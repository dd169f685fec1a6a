/-!
This module contains a pool of threads. Work that is given to it waits until a thread is free, and
what has waited longest is taken up first.
-/

namespace SnapshotAudit

structure Pool (τ : Type) where
  threads : Nat
  free : Nat
  waiting : List τ

namespace Pool

variable {τ : Type}

def ofThreads (threads : Nat) : Pool τ :=
  ⟨threads, threads, []⟩

def post (pool : Pool τ) (work : τ) : Pool τ :=
  { pool with waiting := pool.waiting ++ [work] }

def takeUp? (pool : Pool τ) : Option (τ × Pool τ) :=
  match pool.waiting with
  | [] => none
  | work :: rest =>
    if pool.free = 0 then
      none
    else
      some (work, { pool with free := pool.free - 1, waiting := rest })

theorem takeUp?_eq_some {pool next : Pool τ} {work : τ} (h : pool.takeUp? = some (work, next))
    : pool.waiting = work :: next.waiting ∧ pool.free = next.free + 1 ∧
      next.threads = pool.threads := by
  unfold takeUp? at h
  split at h
  next => cases h
  next first rest hwaiting =>
    split at h
    next => cases h
    next hfree =>
      simp only [Option.some.injEq, Prod.mk.injEq] at h
      obtain ⟨rfl, rfl⟩ := h
      refine ⟨hwaiting, ?_, rfl⟩
      dsimp only
      omega

theorem exists_takeUp? {pool : Pool τ} (hfree : 0 < pool.free) (hwaiting : pool.waiting ≠ [])
    : ∃ work next, pool.takeUp? = some (work, next) := by
  obtain ⟨work, rest, hcons⟩ := List.exists_cons_of_ne_nil hwaiting
  refine ⟨work, { pool with free := pool.free - 1, waiting := rest }, ?_⟩
  rw [takeUp?, hcons]
  exact if_neg (by omega)

def release (pool : Pool τ) : Pool τ :=
  { pool with free := pool.free + 1 }

def isIdle (pool : Pool τ) : Bool :=
  pool.free = pool.threads && pool.waiting.isEmpty

end Pool

end SnapshotAudit
