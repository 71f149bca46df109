/-
How a saga fails.

An operation that fails has had no effect and leaves the saga as it was.  A completion
that fails is worse: some step could not be finalized or undone, and nobody knows what
the resource looks like now.
-/
namespace DirectorySaga

/-- The way in which a saga is completed. -/
inductive CompletionPhase
  | commit
  | rollback
deriving DecidableEq

/-- The name of the phase. -/
def CompletionPhase.name : CompletionPhase → String
  | commit => "commit"
  | rollback => "rollback"

/-- A step that could not be completed. -/
structure CompletionFailure (ε : Type) where
  /-- The name of the step. -/
  operation : String
  /-- What was to be done. -/
  description : String
  error : ε

/-- The failure in words. -/
def CompletionFailure.message {ε : Type} (f : CompletionFailure ε) : String :=
  s!"{f.description} failed for operation '{f.operation}'"

/-- Why a call to a saga fails. -/
inductive SagaError (ε : Type)
  /-- The operation of that name failed before it took effect. -/
  | operationFailed (operation : String) (source : ε)
  /-- These steps could not be completed. -/
  | system (phase : CompletionPhase) (failures : List (CompletionFailure ε))

namespace SagaError

variable {ε : Type}

/-- Whether the resource can no longer be trusted. -/
def isSystem : SagaError ε → Bool
  | operationFailed .. => false
  | system .. => true

/-- The error in words. -/
def message : SagaError ε → String
  | operationFailed operation _ => s!"operation '{operation}' failed"
  | system phase failures =>
    s!"{phase.name} failed for {failures.length} operation(s); " ++
      "resource state can no longer be trusted"

end SagaError

end DirectorySaga
