/-
Sagas: runs of operations that can be undone.

A participant says how one kind of operation takes part.  It records an operation,
which yields a step; it performs the step; and later it either commits the step or rolls
it back.  All four may fail, and all four may change the state `σ` of the resource.

A saga keeps the steps that were performed, newest first, each with the place of its
audit record.  Commit visits them in the order in which they were performed, rollback in
reverse, so that a step is undone while the resource is as the step left it.  Both visit
every step, whatever fails on the way, report all failures together, and leave the saga
without steps.
-/
import DirectorySaga.Saga.Audit
import DirectorySaga.Saga.Error

namespace DirectorySaga

/-- How operations of type `Op` take part in a saga over a resource with states `σ`. -/
structure Participant (Op Step σ ε : Type) where
  /-- The name of an operation. -/
  operationName : Op → String
  /-- Captures what the operation needs to be performed and undone. -/
  record : Op → σ → Except ε Step × σ
  /-- The name of a step. -/
  stepName : Step → String
  /-- Makes the step take effect. -/
  perform : Step → σ → Except ε Unit × σ
  /-- Undoes what performing the step has done. -/
  rollback : Step → σ → Except ε Unit × σ
  /-- Finalizes the step; most steps are final when performed. -/
  commit : Step → σ → Except ε Unit × σ := fun _ s => (.ok (), s)
  /-- What rolling the step back will do. -/
  rollbackDescription : Step → String := fun step => s!"undo {stepName step}"
  /-- What committing the step will do. -/
  commitDescription : Step → String := fun step => s!"finalize {stepName step}"

/-- A performed step and the place of its audit record. -/
structure PendingStep (Step : Type) where
  index : Nat
  step : Step

/-- The steps to be completed, newest first, and the record of all attempts. -/
structure Saga (Step : Type) where
  pending : List (PendingStep Step)
  audit : AuditLog

/-! ### The two ways to complete a step -/

namespace Participant

variable {Op Step σ ε : Type}

/-- Completes a step. -/
def complete (p : Participant Op Step σ ε) : CompletionPhase → Step → σ → Except ε Unit × σ
  | .commit => p.commit
  | .rollback => p.rollback

/-- What completing a step will do. -/
def description (p : Participant Op Step σ ε) : CompletionPhase → Step → String
  | .commit => p.commitDescription
  | .rollback => p.rollbackDescription

end Participant

/-- The status of a step that was completed. -/
def CompletionPhase.done : CompletionPhase → OperationStatus
  | commit => .committed
  | rollback => .rolledBack

/-- The status of a step that could not be completed. -/
def CompletionPhase.broken : CompletionPhase → OperationStatus
  | commit => .commitFailed
  | rollback => .rollbackFailed

/-! ### Running a saga -/

namespace Saga

variable {Op Step σ ε : Type}

/-- The saga without attempts. -/
def empty : Saga Step := ⟨[], .empty⟩

/-- The number of steps to be completed. -/
def size (saga : Saga Step) : Nat := saga.pending.length

/-- Whether no step is to be completed. -/
def isEmpty (saga : Saga Step) : Bool := saga.pending.isEmpty

/-- Records an operation and performs its step, and keeps the step if both succeed. -/
def perform (p : Participant Op Step σ ε) (operation : Op) (saga : Saga Step) (s : σ) :
    Except (SagaError ε) Unit × Saga Step × σ :=
  let name := p.operationName operation
  let index := saga.audit.next
  let audit := saga.audit.start name
  let failed (e : ε) (s : σ) : Except (SagaError ε) Unit × Saga Step × σ :=
    let audit := audit.update index (.settle .failed)
    (.error (.operationFailed name e), { saga with audit }, s)
  match p.record operation s with
  | (.error e, s) => failed e s
  | (.ok step, s) =>
    match p.perform step s with
    | (.error e, s) => failed e s
    | (.ok (), s) =>
      let audit := audit.update index (.performed (p.rollbackDescription step))
      (.ok (), ⟨⟨index, step⟩ :: saga.pending, audit⟩, s)

/-- Completes the steps in the given order, going on past failures. -/
def sweep (p : Participant Op Step σ ε) (phase : CompletionPhase) :
    List (PendingStep Step) → AuditLog → σ → List (CompletionFailure ε) × AuditLog × σ
  | [], audit, s => ([], audit, s)
  | ⟨index, step⟩ :: more, audit, s =>
    match p.complete phase step s with
    | (.ok (), s) => sweep p phase more (audit.update index (.settle phase.done)) s
    | (.error e, s) =>
      let (failures, audit, s) := sweep p phase more (audit.update index (.settle phase.broken)) s
      (⟨p.stepName step, p.description phase step, e⟩ :: failures, audit, s)

/-- The steps in the order in which the phase visits them. -/
def visited (saga : Saga Step) : CompletionPhase → List (PendingStep Step)
  | .commit => saga.pending.reverse
  | .rollback => saga.pending

/-- Completes all steps, and reports the failures if there are any. -/
def complete (p : Participant Op Step σ ε) (phase : CompletionPhase) (saga : Saga Step) (s : σ) :
    Except (SagaError ε) Unit × Saga Step × σ :=
  let (failures, audit, s) := sweep p phase (saga.visited phase) saga.audit s
  (if failures.isEmpty then .ok () else .error (.system phase failures), ⟨[], audit⟩, s)

/-- Finalizes all steps in the order in which they were performed. -/
def commit (p : Participant Op Step σ ε) (saga : Saga Step) (s : σ) :
    Except (SagaError ε) Unit × Saga Step × σ :=
  saga.complete p .commit s

/-- Undoes all steps, the newest first. -/
def rollback (p : Participant Op Step σ ε) (saga : Saga Step) (s : σ) :
    Except (SagaError ε) Unit × Saga Step × σ :=
  saga.complete p .rollback s

end Saga

end DirectorySaga
