import SnapshotAudit.Address
import SnapshotAudit.Membership

/-!
This module contains the command line of a node: its grammar, what is said about arguments that do
not fit it, and the settings that the others stand for.
-/

namespace SnapshotAudit

structure NodeConfig where
  self : NodeAddress
  dataRoot : Text
  peers : List NodeAddress
  role : Role
  timeout : Nat
deriving DecidableEq

structure Command where
  node : NodeConfig
  snapshot : Text
  verbose : Bool
deriving DecidableEq

inductive CommandError where
  | tooFew
  | invalidPort
  | invalidTimeout (argument : Text)
  | unknownOption (argument : Text)
  | invalidPeer (argument : Text)
deriving DecidableEq

namespace CommandLine

def program : Text := "strata_node"

def usage : List Text := [
  .join ["Usage: ", program,
    " <id> <host> <gossip_port> [peer_id:peer_host:peer_gossip_port ...]"],
  "       [--data-root <dir>] [--client] [--timeout-ms <ms>]",
  "       [--check <snapshot> [--verbose]]"]

def complaint (error : CommandError) : List Text :=
  match error with
  | .tooFew => usage
  | .invalidPort => ["Invalid gossip port"]
  | .invalidTimeout argument => ["Invalid --timeout-ms value: " ++ argument]
  | .unknownOption argument => ("Unknown or incomplete option: " ++ argument) :: usage
  | .invalidPeer argument =>
    [.join ["Invalid peer spec: ", argument, " expected id:host:gossip_port"]]

def maximumPort : Int := 65535 - 1000

def port? (t : Text) : Option UInt16 :=
  match Text.leadingInt? t with
  | none => none
  | some n => if 0 < n && n ≤ maximumPort then some n.toNat.toUInt16 else none

/--
The number of milliseconds at the front of a text: positive, and small enough for a signed word.
-/
def timeout? (t : Text) : Option Nat :=
  match Text.leadingInt? t with
  | none => none
  | some n => if 0 < n && n ≤ Int64.maxValue.toInt then some n.toNat else none

def cutAtColon? (t : Text) : Option (Text × Text) :=
  match t.span (· ≠ 58) with
  | (front, _ :: back) => some (front, back)
  | (_, []) => none

/--
A peer is given by id, host and port with colons in between. Whatever follows the digits of the port
is not looked at.
-/
def peer? (spec : Text) : Option NodeAddress := do
  let (id, rest) ← cutAtColon? spec
  let (host, rest) ← cutAtColon? rest
  if id.isEmpty || host.isEmpty then none
  else return ⟨id, host, ← port? rest⟩

def isOption (argument : Text) : Bool :=
  argument.take 2 = ("--" : Text)

def parseRest (command : Command) (arguments : List Text) : Except CommandError Command :=
  match arguments with
  | [] => .ok command
  | argument :: rest =>
    if argument = ("--client" : Text) then
      parseRest { command with node := { command.node with role := .client } } rest
    else if argument = ("--verbose" : Text) then
      parseRest { command with verbose := true } rest
    else
      match rest with
      | value :: rest' =>
        if argument = ("--data-root" : Text) then
          parseRest { command with node := { command.node with dataRoot := value } } rest'
        else if argument = ("--check" : Text) then
          parseRest { command with snapshot := value } rest'
        else if argument = ("--timeout-ms" : Text) then
          match timeout? value with
          | some ms => parseRest { command with node := { command.node with timeout := ms } } rest'
          | none => .error (.invalidTimeout value)
        else if isOption argument then .error (.unknownOption argument)
        else
          match peer? argument with
          | some peer => parseRest (addPeer command peer) (value :: rest')
          | none => .error (.invalidPeer argument)
      | [] =>
        if isOption argument then .error (.unknownOption argument)
        else
          match peer? argument with
          | some peer => .ok (addPeer command peer)
          | none => .error (.invalidPeer argument)
  termination_by arguments.length
where
  /-- A node is not a peer of itself. -/
  addPeer (command : Command) (peer : NodeAddress) : Command :=
    if peer.id = command.node.self.id then command
    else { command with node := { command.node with peers := command.node.peers ++ [peer] } }

def parse (arguments : List Text) : Except CommandError Command :=
  match arguments.map Text.beforeZero with
  | id :: host :: port :: rest =>
    match port? port with
    | none => .error .invalidPort
    | some port =>
      parseRest {
        node := {
          self := ⟨id, host, port⟩
          dataRoot := "data_" ++ id
          peers := []
          role := .server
          timeout := 30000 }
        snapshot := []
        verbose := false } rest
  | _ => .error .tooFew

end CommandLine

end SnapshotAudit
