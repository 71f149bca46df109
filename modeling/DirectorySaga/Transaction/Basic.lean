/-
Transactions over a directory.

A transaction makes its writes at once and keeps the steps that undo them.  It ends in
one of three ways: it is committed, it is rolled back, or it is abandoned, which rolls
it back too and leaves a report instead of an error.  A transaction that has ended has
no steps left, so whatever is done with it later sends nothing to the directory.

A manager starts transactions over one directory.  Each has its own steps; what they
share is the directory and the sequences for temporary names.
-/
import DirectorySaga.Configuration.Error
import DirectorySaga.Transaction.Recorder

namespace DirectorySaga

/-- Why a call to a transaction fails. -/
abbrev TransactionError : Type := SagaError DirectoryError

/-- A running transaction. -/
structure Transaction (σ : Type) where
  service : Service σ
  parking : Parking
  saga : Saga Step

/-- What is reported when a transaction is abandoned. -/
structure Abandonment where
  /-- The number of writes that were rolled back, or should have been. -/
  pending : Nat
  /-- The error of the rollback. -/
  error : Option TransactionError

variable {σ α ε : Type}

namespace Transaction

/-- The participant through which the transaction writes. -/
def participant (tx : Transaction σ) : Participant Operation Step (World σ) DirectoryError :=
  directoryWrites tx.service tx.parking

/-- The number of writes to be committed or rolled back. -/
def pending (tx : Transaction σ) : Nat := tx.saga.size

/-- The record of all attempted writes. -/
def audit (tx : Transaction σ) : AuditLog := tx.saga.audit

/-- Makes a write. -/
def perform (tx : Transaction σ) (operation : Operation) (w : World σ) :
    Except TransactionError Unit × Transaction σ × World σ :=
  let (result, saga, w) := tx.saga.perform tx.participant operation w
  (result, { tx with saga }, w)

/-- The attributes of an entry; reading leaves no trace in the transaction. -/
def lookup (tx : Transaction σ) (name : Name) (w : World σ) :
    Except DirectoryError Attributes × World σ :=
  w.call (tx.service.lookup name)

/-- Commits or rolls back. -/
def complete (tx : Transaction σ) (phase : CompletionPhase) (w : World σ) :
    Except TransactionError Unit × Transaction σ × World σ :=
  let (result, saga, w) := tx.saga.complete tx.participant phase w
  (result, { tx with saga }, w)

/-- Makes all writes final. -/
def commit (tx : Transaction σ) (w : World σ) :
    Except TransactionError Unit × Transaction σ × World σ :=
  tx.complete .commit w

/-- Undoes all writes. -/
def rollback (tx : Transaction σ) (w : World σ) :
    Except TransactionError Unit × Transaction σ × World σ :=
  tx.complete .rollback w

/-- Gives the transaction up: if anything is pending, it is rolled back and reported. -/
def abandon (tx : Transaction σ) (w : World σ) : Option Abandonment × World σ :=
  if tx.saga.isEmpty then (none, w)
  else
    match tx.rollback w with
    | (.ok (), _, w) => (some ⟨tx.pending, none⟩, w)
    | (.error e, _, w) => (some ⟨tx.pending, some e⟩, w)

/-- Ends the transaction as its outcome demands: a value is returned if the commit
succeeds, an error if the rollback does, and otherwise the completion's own error. -/
def conclude (tx : Transaction σ) (lift : TransactionError → ε) (outcome : Except ε α)
    (w : World σ) : Except ε α × Transaction σ × World σ :=
  let phase : CompletionPhase := if outcome.isOk then .commit else .rollback
  let (result, tx, w) := tx.complete phase w
  match result with
  | .ok () => (outcome, tx, w)
  | .error e => (.error (lift e), tx, w)

end Transaction

/-! ### Reports of abandoned transactions -/

/-- The report of a step that could not be completed. -/
def CompletionFailure.reportLine {ε : Type} (phase : CompletionPhase) (f : CompletionFailure ε) :
    String :=
  s!"ERROR description={f.description} message=completion step failed " ++
    s!"operation={f.operation} phase={phase.name}"

/-- The report of a failed rollback, step by step. -/
def rollbackReport (error : TransactionError) : List String :=
  let steps := match error with
    | .operationFailed .. => []
    | .system phase failures => failures.map (·.reportLine phase)
  steps ++
    [s!"ERROR error={error.message} message=rollback of dropped directory transaction failed"]

/-- The lines of the report. -/
def Abandonment.lines (a : Abandonment) : List String :=
  ("WARN message=directory transaction dropped without completion; rolling back " ++
    s!"pending={a.pending}") ::
  (match a.error with
    | none => []
    | some error => rollbackReport error)

/-! ### Managers -/

/-- Starts transactions over one directory. -/
structure TransactionManager (σ : Type) where
  service : Service σ
  parking : Parking

namespace TransactionManager

/-- The manager of a directory, which must admit writes. -/
def ofService (service : Service σ) (parking : Parking) (directory : σ) :
    Except ConfigurationError (TransactionManager σ) :=
  if service.anonymousReadOnly directory then .error .anonymousReadOnly
  else .ok ⟨service, parking⟩

/-- A new transaction. -/
def start (m : TransactionManager σ) : Transaction σ := ⟨m.service, m.parking, .empty⟩

/-- Runs `body` in a transaction, which is committed if it returns a value and rolled back
if it fails. -/
def execute (m : TransactionManager σ) (lift : TransactionError → ε)
    (body : Transaction σ → World σ → Except ε α × Transaction σ × World σ) (w : World σ) :
    Except ε α × World σ :=
  let (outcome, tx, w) := body m.start w
  let (result, _, w) := tx.conclude lift outcome w
  (result, w)

end TransactionManager

end DirectorySaga
