import UnifiMcp.Interaction.Program
import UnifiMcp.Changeset.Preimage

/-!
# Sequential apply and rollback

UniFi has no atomic commit, so apply is a sequence of independent calls and partial
failure is a reachable state.  `applySequentially` is a program over the operations of
a controller, `ControllerOp`; nothing is assumed about how these are answered.
-/

namespace UnifiMcp

open Interaction

/-- The ids of created resources, by the position of the mutation that created them. -/
abbrev CreatedIds := List (Nat × String)

/-- The operations of a controller that apply and rollback call. -/
inductive ControllerOp where
  | applyMutation (index : Nat) (mutation : StagedMutation)
  | rollbackMutation (index : Nat) (mutation : StagedMutation) (priorValue : Option Json)
      (createdId : Option String)
  | preimageMatches (preimage : Preimage) (mutations : List StagedMutation)
  | verifyApplied (mutations : List StagedMutation) (createdIds : CreatedIds)
  deriving DecidableEq

/-- What each operation is answered with. -/
abbrev ControllerOp.Answer : ControllerOp → Type
  | .applyMutation _ _ => Except UnifiError (Option String)
  | .rollbackMutation _ _ _ _ => Except UnifiError Unit
  | .preimageMatches _ _ => Except UnifiError Bool
  | .verifyApplied _ _ => Except UnifiError Unit

/-- The signature of programs over a controller. -/
abbrev ControllerSig : Signature := ⟨ControllerOp, ControllerOp.Answer⟩

/-- Call one operation of the controller. -/
def ControllerOp.invoke (op : ControllerOp) : Program ControllerSig op.Answer :=
  Program.perform ControllerSig op

/-- The state of a change set after apply.  `partialApply` is the source's `Partial`. -/
inductive State where
  | applied
  | appliedUnverified
  | partialApply
  | partialRollbackFailed
  | refusedStale
  deriving DecidableEq, Repr

/-- The outcome of applying a change set. -/
structure Outcome where
  state : State
  succeeded : List StagedMutation
  /-- All mutations that did not succeed. -/
  failed : List StagedMutation
  attemptedAndFailed : List StagedMutation
  neverAttempted : List StagedMutation
  rollbackFailures : List String
  /-- Why verification could not confirm the apply, when it could not. -/
  verificationFailure : Option String
  deriving DecidableEq, Repr

/-! ## Rollback -/

/-- What the pre-image holds for a mutation that is to be rolled back. -/
def priorValueOf (preimage : Preimage) : StagedMutation → Option Json
  | .create _ _ => none
  | .update _ id _ | .delete _ id => preimage.getResource id
  | .restore _ => none

/-- Roll back the mutations of a list in the order given, collecting the failures. -/
def rollbackLoop (preimage : Preimage) (createdIds : CreatedIds) :
    List (StagedMutation × Nat) → List String → Program ControllerSig (List String)
  | [], failures => pure failures
  | (.restore backupId, forwardIndex) :: rest, failures =>
      rollbackLoop preimage createdIds rest (failures ++
        [s!"cannot rollback {(StagedMutation.restore backupId).preview} " ++
          s!"(mutation {forwardIndex}): restores cannot be undone"])
  | (mutation, forwardIndex) :: rest, failures => do
      match ← (ControllerOp.rollbackMutation forwardIndex mutation
          (priorValueOf preimage mutation) (createdIds.lookup forwardIndex)).invoke with
      | .error e =>
          rollbackLoop preimage createdIds rest (failures ++
            [s!"rollback failed for {mutation.preview} (mutation {forwardIndex}): {e.toString}"])
      | .ok () => rollbackLoop preimage createdIds rest failures

/-- Attempt to roll back to the pre-image state, the last mutation first. -/
def rollbackToPreimage (preimage : Preimage) (succeeded : List StagedMutation)
    (createdIds : CreatedIds) : Program ControllerSig (Except (List String) Unit) := do
  let failures ← rollbackLoop preimage createdIds succeeded.zipIdx.reverse []
  pure (if failures.isEmpty then .ok () else .error failures)

/-! ## Apply -/

/-- How far the writes of an apply have got. -/
structure Progress where
  succeeded : List StagedMutation
  attemptedAndFailed : List StagedMutation
  neverAttempted : List StagedMutation
  createdIds : CreatedIds
  deriving DecidableEq, Repr

/-- Record the id a write answered with, if it answered with one. -/
def CreatedIds.record (createdIds : CreatedIds) (index : Nat) : Option String → CreatedIds
  | some id => (index, id) :: createdIds
  | none => createdIds

/-- Apply the mutations from position `index` on, stopping at the first failure. -/
def applyLoop : Nat → List StagedMutation → Progress → Program ControllerSig Progress
  | _, [], progress => pure progress
  | index, mutation :: rest, progress => do
      match ← (ControllerOp.applyMutation index mutation).invoke with
      | .ok createdId =>
          applyLoop (index + 1) rest
            { progress with
              succeeded := progress.succeeded ++ [mutation]
              createdIds := progress.createdIds.record index createdId }
      | .error _ =>
          pure { progress with
            attemptedAndFailed := progress.attemptedAndFailed ++ [mutation]
            neverAttempted := progress.neverAttempted ++ rest }

/-- Apply staged mutations sequentially. -/
def applySequentially (preimage : Preimage) (mutations : List StagedMutation) :
    Program ControllerSig Outcome := do
  match ← (ControllerOp.preimageMatches preimage mutations).invoke with
  | .ok true =>
      let progress ← applyLoop 0 mutations ⟨[], [], [], []⟩
      if progress.attemptedAndFailed.isEmpty && progress.neverAttempted.isEmpty then
        let verified ← (ControllerOp.verifyApplied mutations progress.createdIds).invoke
        pure
          { state := match verified with
              | .ok () => .applied
              | .error _ => .appliedUnverified
            succeeded := progress.succeeded
            failed := []
            attemptedAndFailed := []
            neverAttempted := []
            rollbackFailures := []
            verificationFailure := match verified with
              | .ok () => none
              | .error error => some error.toString }
      else
        let rollbackResult ←
          rollbackToPreimage preimage progress.succeeded progress.createdIds
        pure
          { state := match rollbackResult with
              | .ok () => .partialApply
              | .error _ => .partialRollbackFailed
            succeeded := progress.succeeded
            failed := progress.attemptedAndFailed ++ progress.neverAttempted
            attemptedAndFailed := progress.attemptedAndFailed
            neverAttempted := progress.neverAttempted
            rollbackFailures := match rollbackResult with
              | .ok () => []
              | .error rollbackFailures => rollbackFailures
            verificationFailure := none }
  | _ =>
      pure
        { state := .refusedStale
          succeeded := []
          failed := mutations
          attemptedAndFailed := []
          neverAttempted := mutations
          rollbackFailures := []
          verificationFailure := none }

end UnifiMcp
