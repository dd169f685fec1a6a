import SnapshotAudit.Text

/-!
This module contains what can go wrong in an audit: the kinds of failures that nodes tell each other
about, the faults that an operation stops with, and the chain of causes that stands for a fault once
it leaves the node it happened on.
-/

namespace SnapshotAudit

/--
The kind of a failure or finding as it travels in messages. Ten codes have a meaning; a chain of
causes that was put together elsewhere may hold any other.
-/
structure FailureKind where
  code : UInt8
deriving DecidableEq

namespace FailureKind

def snapshotNotFound : FailureKind := ⟨1⟩
def missingCacheGroup : FailureKind := ⟨2⟩
def missingMetadata : FailureKind := ⟨3⟩
def missingPartition : FailureKind := ⟨4⟩
def corruptPage : FailureKind := ⟨5⟩
def structureViolation : FailureKind := ⟨6⟩
def nodeUnreachable : FailureKind := ⟨7⟩
def nodeTimedOut : FailureKind := ⟨8⟩
def cancelled : FailureKind := ⟨9⟩
def internal : FailureKind := ⟨10⟩

def ofCode? (code : UInt8) : Option FailureKind :=
  if 1 ≤ code && code ≤ 10 then some ⟨code⟩ else none

def name (kind : FailureKind) : Text :=
  match kind.code with
  | 1 => "SnapshotNotFound"
  | 2 => "MissingCacheGroup"
  | 3 => "MissingMetadata"
  | 4 => "MissingPartition"
  | 5 => "CorruptPage"
  | 6 => "StructureViolation"
  | 7 => "NodeUnreachable"
  | 8 => "NodeTimedOut"
  | 9 => "Cancelled"
  | 10 => "Internal"
  | _ => "Unknown"

theorem ofCode?_code {kind : FailureKind} (h : 1 ≤ kind.code ∧ kind.code ≤ 10)
    : ofCode? kind.code = some kind := by
  simp [ofCode?, h]

theorem code_of_ofCode? {code : UInt8} {kind : FailureKind} (h : ofCode? code = some kind)
    : kind.code = code := by
  simp only [ofCode?] at h
  split at h
  · cases h
    rfl
  · cases h

end FailureKind

/--
What an operation stops with: a failure of the audit, a value that the operation does not take, or
a fault of the machine below.
-/
inductive Fault where
  | audit (kind : FailureKind) (text : Text)
  | invalidArgument (text : Text)
  | system (text : Text)
deriving DecidableEq

namespace Fault

def text (fault : Fault) : Text :=
  match fault with
  | audit _ text => text
  | invalidArgument text => text
  | system text => text

/--
What a fault says to whoever takes it: its text, which ends at the first zero byte.
-/
def message (fault : Fault) : Text :=
  fault.text.beforeZero

def kind (fault : Fault) : FailureKind :=
  match fault with
  | audit kind _ => kind
  | invalidArgument _ => .internal
  | system _ => .internal

def structureViolation (text : Text) : Fault :=
  audit .structureViolation text

end Fault

/--
One level of a raised error: a fault, or something that carries neither a message nor a cause.
-/
inductive Raised where
  | fault (fault : Fault)
  | foreign
deriving DecidableEq

structure FailureCause where
  kind : FailureKind
  message : Text
deriving DecidableEq

structure NodeFailure where
  causes : List FailureCause
deriving DecidableEq

namespace NodeFailure

def single (kind : FailureKind) (message : Text) : NodeFailure :=
  ⟨[⟨kind, message⟩]⟩

def rootCause (failure : NodeFailure) : FailureCause :=
  failure.causes.getLast?.getD ⟨.internal, "unknown failure"⟩

def kind (failure : NodeFailure) : FailureKind :=
  failure.rootCause.kind

def hasCause (failure : NodeFailure) (kind : FailureKind) : Bool :=
  failure.causes.any fun cause => cause.kind = kind

def message (failure : NodeFailure) : Text :=
  (failure.causes.head?.getD failure.rootCause).message

/--
The explanation of a raised error, outermost level first. Nothing can be learnt beyond a level that
is foreign, and no error at all is an internal failure.
-/
def ofRaised (raised : List Raised) : NodeFailure :=
  match raised with
  | [] => single .internal "no exception"
  | levels => ⟨causesOf levels⟩
where
  causesOf (levels : List Raised) : List FailureCause :=
    match levels with
    | [] => []
    | .fault fault :: inner => ⟨fault.kind, fault.message⟩ :: causesOf inner
    | .foreign :: _ => [⟨.internal, "non-standard exception"⟩]

@[simp]
theorem kind_single (kind : FailureKind) (message : Text) : (single kind message).kind = kind := rfl

@[simp]
theorem message_single (kind : FailureKind) (message : Text)
    : (single kind message).message = message := rfl

end NodeFailure

end SnapshotAudit
