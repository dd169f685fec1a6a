import SnapshotAudit.Proofs.Cluster.Answering
import SnapshotAudit.Proofs.Cluster.Silence

/-!
This module contains how long a server serves that is started and stopped again and again. It
listens whenever the last of the calls started it, but it serves only until it is stopped for the
first time: its loop does not start again.
-/

namespace SnapshotAudit

namespace Cluster

inductive ServerCall where
  | start
  | stop

/--
Whether some call stopped the server right after another one had started it.
-/
def Halted (calls : List ServerCall) : Prop :=
  [.start, .stop] <:+: calls

theorem halted_concat_iff {calls : List ServerCall} {last : ServerCall}
    : Halted (calls ++ [last]) ↔ Halted calls ∨ (calls.getLast? = some .start ∧ last = .stop) := by
  have hlast : [ServerCall.start, .stop] <:+ calls ++ [last] ↔
      [ServerCall.start] <:+ calls ∧ [ServerCall.stop] = [last] :=
    @List.suffix_append_inj_of_length_eq _ [ServerCall.start] calls [.stop] [last] rfl
  rw [Halted, List.infix_concat_iff, hlast, List.singleton_suffix_iff_getLast?_eq_some,
    List.singleton_inj, eq_comm (a := ServerCall.stop), or_comm, Halted]

/--
Something happened that left alone a server and whether it has a port. It may have got jobs.
-/
structure Spares (server : Id) (port : UInt16) (v w : Cluster) : Prop where
  kept : ∀ s, v.servers.get? server = some s →
    ∃ jobs, w.servers.get? server = some { s with jobs }
  bound : w.listeners.get? port = some (.server server) ↔
    v.listeners.get? port = some (.server server)

/--
What a cluster has come to in which a server was made and then started and stopped by some calls,
one after the other. Its port is free whenever it is started, unless it has the port itself.
-/
inductive Operated (server : Id) (host : Text) (port : UInt16)
    : List ServerCall → Cluster → Prop where
  | made {w : Cluster} {s : JobServer} (found : w.servers.get? server = some s)
    (host_eq : s.host = host) (port_eq : s.port = port) (listening : s.listening = false)
    (ended : s.ended = false) (unbound : w.listeners.get? port ≠ some (.server server))
    : Operated server host port [] w
  | start {calls : List ServerCall} {w : Cluster} (operated : Operated server host port calls w)
    (free : ∀ listener, w.listeners.get? port = some listener → listener = .server server)
    : Operated server host port (calls ++ [.start]) ((startServer server).run w).2
  | stop {calls : List ServerCall} {w : Cluster} (operated : Operated server host port calls w)
    : Operated server host port (calls ++ [.stop]) ((stopServer server).run w).2
  | meanwhile {calls : List ServerCall} {v w : Cluster}
    (operated : Operated server host port calls v) (spares : Spares server port v w)
    : Operated server host port calls w

structure Stands (server : Id) (host : Text) (port : UInt16) (calls : List ServerCall)
    (s : JobServer) (w : Cluster) : Prop where
  found : w.servers.get? server = some s
  host_eq : s.host = host
  port_eq : s.port = port
  listening : s.listening = true ↔ HostAddress.isValid host = true ∧ calls.getLast? = some .start
  ended : s.ended = true ↔ HostAddress.isValid host = true ∧ Halted calls
  bound : w.listeners.get? port = some (.server server) ↔ s.listening = true

variable {server : Id} {host : Text} {port : UInt16} {calls : List ServerCall} {s : JobServer}
  {w : Cluster}

theorem Stands.start (stands : Stands server host port calls s w)
    (free : ∀ listener, w.listeners.get? port = some listener → listener = .server server)
    : ∃ s, Stands server host port (calls ++ [.start]) s ((startServer server).run w).2 := by
  obtain ⟨found, rfl, rfl, listening, ended, bound⟩ := stands
  have hended : s.ended = true ↔
      HostAddress.isValid s.host = true ∧ Halted (calls ++ [.start]) := by
    simp [ended, halted_concat_iff]
  rw [startServer, run_get, found]
  dsimp only
  split
  next hlistening =>
    have hvalid := (listening.mp hlistening).1
    refine ⟨s, found, rfl, rfl, ?_, hended, bound⟩
    simp [hlistening, hvalid]
  next hidle =>
    rw [run_get]
    split
    next hinvalid =>
      refine ⟨s, found, rfl, rfl, ?_, hended, bound⟩
      simpa [hidle] using hinvalid
    next hvalid =>
      have hfree : ¬w.listeners.contains s.port = true := by
        intro hoccupied
        obtain ⟨listener, hlistener⟩ := SortedMap.contains_eq_true_iff.mp hoccupied
        exact hidle (bound.mp (free listener hlistener ▸ hlistener))
      rw [run_get, if_neg hfree]
      refine ⟨_, SortedMap.get?_insert_self .., rfl, rfl, ?_, hended, ?_⟩
      . simpa using hvalid
      . change (w.listeners.insert s.port _).get? s.port = _ ↔ _
        simp [SortedMap.get?_insert_self]

theorem Stands.stop (stands : Stands server host port calls s w)
    : ∃ s, Stands server host port (calls ++ [.stop]) s ((stopServer server).run w).2 := by
  obtain ⟨found, rfl, rfl, listening, ended, bound⟩ := stands
  rw [stopServer, run_get, found]
  dsimp only
  split
  next hlistening =>
    obtain ⟨hvalid, hstarted⟩ := listening.mp hlistening
    refine ⟨_, SortedMap.get?_insert_self .., rfl, rfl, ?_, ?_, ?_⟩
    . simp
    . simp [hvalid, halted_concat_iff, hstarted]
    . change (w.listeners.erase s.port).get? s.port = _ ↔ _
      simp [SortedMap.get?_erase_eq]
  next hidle =>
    refine ⟨s, found, rfl, rfl, ?_, ?_, bound⟩
    . simp [hidle]
    . rw [ended, halted_concat_iff]
      constructor
      . exact fun h => ⟨h.1, .inl h.2⟩
      . rintro ⟨hvalid, hhalted | ⟨hstarted, -⟩⟩
        . exact ⟨hvalid, hhalted⟩
        . exact absurd (listening.mpr ⟨hvalid, hstarted⟩) hidle

theorem Operated.stands (operated : Operated server host port calls w)
    : ∃ s, Stands server host port calls s w := by
  induction operated with
  | made found host_eq port_eq listening ended unbound =>
    refine ⟨_, found, host_eq, port_eq, ?_, ?_, ?_⟩
    . simp [listening]
    . simp [ended, Halted]
    . simp [listening, unbound]
  | start _ free ih =>
    obtain ⟨s, stands⟩ := ih
    exact stands.start free
  | stop _ ih =>
    obtain ⟨s, stands⟩ := ih
    exact stands.stop
  | meanwhile _ spares ih =>
    obtain ⟨s, stands⟩ := ih
    obtain ⟨jobs, hkept⟩ := spares.kept s stands.found
    exact ⟨_, hkept, stands.host_eq, stands.port_eq, stands.listening, stands.ended,
      spares.bound.trans stands.bound⟩

theorem not_replies_of_ended (hs : w.servers.get? server = some s) (hended : s.ended = true)
    (request : JobRequest) {reply : Bytes} (hreply : reply ≠ [])
    : ¬Replies server port request reply w := by
  rintro ⟨hport, connection, hasked, steps, c, hc, rfl⟩
  have silent : Silent server connection ((ask port request).run w).2 := by
    rw [run_ask hport] at hasked ⊢
    obtain rfl := Option.some.inj hasked
    exact ⟨Nat.lt_succ_self _, ⟨s, hs, hended⟩, _, SortedMap.get?_insert_self .., rfl, rfl⟩
  obtain ⟨_, hget, -, hnothing⟩ := (silent.runFor steps (fun _ => false) none).unanswered
  obtain rfl := Option.some.inj (hget.symm.trans hc)
  exact hreply hnothing

def solitary : Cluster :=
  ((do
    let service ← addService "n1" "data/n1/snapshots"
    addServer service "127.0.0.1" 6001 workers : ClusterM Id).run (start .empty)).2

theorem operated_solitary : Operated 2 "127.0.0.1" 6001 [] solitary :=
  .made rfl rfl rfl rfl rfl nofun

/--
A server listens when its host is an address and the last call has started it. Before it is stopped
for the first time it serves when it listens: whoever asks gets the reply that the node has. After
that nothing comes from it any more, not even when it listens again.
-/
theorem listens_and_serves (operated : Operated server host port calls w)
    : ∃ s, w.servers.get? server = some s ∧
        (s.listening = true ↔
          HostAddress.isValid host = true ∧ calls.getLast? = some .start) ∧
        (Halted calls → ∀ (request : JobRequest) (reply : Bytes), reply ≠ [] →
          ¬Replies server port request reply w) ∧
        (¬Halted calls → ∀ (request : JobRequest) (object : ServiceObject) (reply : Bytes),
          request.body.length ≤ FrameHeader.maximumLength.toNat → AtRest s object w →
          (object.host w.files).reply? request.demand = some reply →
          (s.listening = true ↔ Replies server port request reply w)) := by
  obtain ⟨s, stands⟩ := operated.stands
  refine ⟨s, stands.found, stands.listening, ?_, ?_⟩
  . intro halted request reply hreply replies
    have hvalid := (stands.listening.mp (stands.bound.mp replies.1)).1
    have hended := stands.ended.mpr ⟨hvalid, halted⟩
    exact not_replies_of_ended stands.found hended request hreply replies
  . intro unhalted request object reply hlength rest hreply
    have hrunning : s.ended = false :=
      Bool.eq_false_iff.mpr fun hended => unhalted (stands.ended.mp hended).2
    constructor
    . intro hlistening
      exact replies_of_running (stands.bound.mpr hlistening) stands.found hrunning rest hlength
        hreply
    . exact fun replies => stands.bound.mp replies.1

theorem listens_and_serves_started
    : let w := ((startServer 2).run solitary).2
      Operated 2 "127.0.0.1" 6001 [.start] w ∧
        (∃ outcome,
          Replies 2 6001 (.execute ⟨7, "s", 64, []⟩) (Demand.verifyReply outcome) w) ∧
        Replies 2 6001 (.cancel 7) (Demand.cancelReply false) w ∧
        Replies 2 6001 (.describe "s") (Demand.describeReply none) w := by
  intro w
  have operated : Operated 2 "127.0.0.1" 6001 [.start] w := .start operated_solitary nofun
  obtain ⟨s, hs, listening, -, serves⟩ := listens_and_serves operated
  have hstarted : w.servers.get? 2 = some ⟨0, "127.0.0.1", 6001, 1, true, false, 0⟩ := rfl
  obtain rfl := Option.some.inj (hstarted.symm.trans hs)
  have rest : AtRest ⟨0, "127.0.0.1", 6001, 1, true, false, 0⟩
      ⟨.start "n1", "data/n1/snapshots", false⟩ w :=
    ⟨rfl, rfl, rfl, fun _ => rfl, ⟨_, rfl, by decide, rfl⟩, nofun⟩
  have unhalted : ¬Halted [.start] := fun halted => absurd halted.length_le (by decide)
  refine ⟨operated, ?_, ?_, ?_⟩
  . exact ⟨_, (serves unhalted _ _ _ (by decide) rest rfl).mp rfl⟩
  . exact (serves unhalted _ _ _ (by decide) rest rfl).mp rfl
  . exact (serves unhalted _ _ _ (by decide) rest rfl).mp rfl

/--
A server that was started, stopped and started again listens, and nothing comes when somebody asks.
-/
theorem listens_in_vain
    : let w := ((do
        discard (startServer 2)
        stopServer 2
        discard (startServer 2) : ClusterM Unit).run solitary).2
      Operated 2 "127.0.0.1" 6001 [.start, .stop, .start] w ∧
        (∃ s object, w.servers.get? 2 = some s ∧ s.listening = true ∧ AtRest s object w) ∧
        ∀ reply, reply ≠ [] → ¬Replies 2 6001 (.cancel 7) reply w := by
  intro w
  have started : Operated 2 "127.0.0.1" 6001 [.start] ((startServer 2).run solitary).2 :=
    .start operated_solitary nofun
  refine ⟨.start started.stop nofun, ⟨⟨0, "127.0.0.1", 6001, 1, true, true, 0⟩,
    ⟨.start "n1", "data/n1/snapshots", false⟩, rfl, rfl, ?_⟩, ?_⟩
  . exact ⟨rfl, rfl, rfl, fun _ => rfl, ⟨_, rfl, by decide, rfl⟩, nofun⟩
  . intro reply hreply
    exact not_replies_of_ended rfl rfl (.cancel 7) hreply

end Cluster

end SnapshotAudit
