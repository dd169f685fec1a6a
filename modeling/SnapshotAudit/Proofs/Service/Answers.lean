import SnapshotAudit.Proofs.Service.Serving

/-!
This module contains that all causes of a failure that a service answers with have kinds with a
meaning.
-/

namespace SnapshotAudit

def NodeOutcome.Meaningful (outcome : NodeOutcome) : Prop :=
  ∀ failure, outcome.failure = some failure → ∀ cause ∈ failure.causes,
    1 ≤ cause.kind.code ∧ cause.kind.code ≤ 10

theorem VerifyService.meaningful_cancelledOutcome (service : VerifyService) (job : UInt64)
    (moment : Text) : (service.cancelledOutcome job moment).Meaningful := by
  rintro _ ⟨⟩ cause hcause
  obtain rfl := List.mem_singleton.mp hcause
  simp [FailureKind.cancelled]

theorem PartitionError.meaningful_kind (error : PartitionError)
    : 1 ≤ error.kind.code ∧ error.kind.code ≤ 10 := by
  cases error <;> simp [kind, FailureKind.corruptPage, FailureKind.internal,
    FailureKind.structureViolation]

theorem InspectionError.meaningful_kind (error : InspectionError)
    : 1 ≤ error.kind.code ∧ error.kind.code ≤ 10 := by
  cases error with
  | partition _ _ _ _ cause => exact cause.meaningful_kind
  | _ =>
    simp [kind, FailureKind.snapshotNotFound, FailureKind.cancelled,
      FailureKind.structureViolation]

theorem InspectionError.meaningful_failure (error : InspectionError)
    : ∀ cause ∈ error.failure.causes, 1 ≤ cause.kind.code ∧ cause.kind.code ≤ 10 := by
  have houter := error.meaningful_kind
  cases error with
  | partition _ _ _ _ cause =>
    have hinner := cause.meaningful_kind
    simpa [failure, raised, NodeFailure.ofRaised, NodeFailure.ofRaised.causesOf, Fault.kind,
      PartitionError.fault] using ⟨houter, hinner⟩
  | _ =>
    simpa [failure, raised, NodeFailure.ofRaised, NodeFailure.ofRaised.causesOf, Fault.kind]
      using houter

theorem Inspector.meaningful_inspect (inspector : Inspector) (tree : FileTree)
    (request : VerifyRequest) (cancelled : Nat → Bool)
    : (inspector.inspect tree request cancelled).1.outcome.Meaningful := by
  intro failure hfailure
  unfold inspect at hfailure
  split at hfailure
  next final hwalk =>
    rw [failure_of_walk hwalk] at hfailure
    cases hfailure
  next final error hwalk =>
    cases hfailure
    exact error.meaningful_failure

theorem Serving.meaningful_of_run {inspector : Inspector} {tree : FileTree}
    {steps : List ServingStep} {request : VerifyRequest} {outcome : NodeOutcome}
    (returned : ⟨request, .returned outcome⟩ ∈
      ((start inspector.node).run inspector tree steps).jobs) : outcome.Meaningful := by
  rcases reported_of_run inspector tree steps returned with
    ⟨service, _, moment, _, rfl⟩ | ⟨question, told, _, rfl⟩
  . exact service.meaningful_cancelledOutcome request.job moment
  . exact inspector.meaningful_inspect tree question _

end SnapshotAudit
