/-
Directory writes as participants of a saga.

To record a write is to find out what its inverse needs: the attributes that a rebind
overwrites or a modification changes, and for a removal a temporary name.  A removal is
refused already here when other entries hang below: a parked entry could be moved
together with them, and only the commit would fail.

The resource of the saga is the directory and, beside it, the sequences from which
temporary names are numbered.
-/
import DirectorySaga.Directory.Service
import DirectorySaga.Saga.Basic
import DirectorySaga.Transaction.Parking
import DirectorySaga.Transaction.Step

namespace DirectorySaga

/-- What directory writes can change: the directory and the sequences. -/
structure World (σ : Type) where
  directory : σ
  sequences : Sequences

variable {σ α : Type}

namespace World

/-- Makes a call to the directory. -/
def call (act : σ → Except DirectoryError α × σ) (w : World σ) :
    Except DirectoryError α × World σ :=
  let (result, directory) := act w.directory
  (result, { w with directory })

/-- Asks for a temporary name. -/
def temporaryName (parking : Parking) (name : Name) (w : World σ) :
    Except DirectoryError Name × World σ :=
  let (result, sequences) := parking.temporaryName name w.sequences
  (result, { w with sequences })

end World

namespace Step

/-- The step for an operation. -/
def record (service : Service σ) (parking : Parking) (operation : Operation) (w : World σ) :
    Except DirectoryError Step × World σ :=
  match operation with
  | .bind name attributes => (.ok (.bind name attributes), w)
  | .rebind name attributes =>
    match w.call (service.lookup name) with
    | (.ok before, w) => (.ok (.rebind name attributes (some before)), w)
    | (.error (.nameNotFound _), w) => (.ok (.rebind name attributes none), w)
    | (.error e, w) => (.error e, w)
  | .rename old new => (.ok (.rename old new), w)
  | .unbind name =>
    match w.call (service.hasChildren name) with
    | (.ok true, w) => (.error (.notEmpty name), w)
    | (.ok false, w) =>
      let (result, w) := w.temporaryName parking name
      (result.map (.unbind name), w)
    | (.error e, w) => (.error e, w)
  | .modifyAttributes name items =>
    match w.call (service.lookup name) with
    | (.ok before, w) => (.ok (.modifyAttributes name items (before.compensatingItems items)), w)
    | (.error e, w) => (.error e, w)

/-- Sends what makes the step take effect. -/
def perform (service : Service σ) (step : Step) (w : World σ) :
    Except DirectoryError Unit × World σ :=
  w.call (service.write step.forward)

/-- Sends what undoes the step. -/
def rollback (service : Service σ) (step : Step) (w : World σ) :
    Except DirectoryError Unit × World σ :=
  w.call (service.write step.inverse)

/-- Sends what makes the step final, if anything. -/
def commit (service : Service σ) (step : Step) (w : World σ) :
    Except DirectoryError Unit × World σ :=
  match step.final? with
  | some operation => w.call (service.write operation)
  | none => (.ok (), w)

end Step

/-- How directory writes take part in a saga. -/
def directoryWrites (service : Service σ) (parking : Parking) :
    Participant Operation Step (World σ) DirectoryError where
  operationName operation := operation.kind.name
  record := Step.record service parking
  stepName step := step.kind.name
  perform := Step.perform service
  rollback := Step.rollback service
  commit := Step.commit service
  rollbackDescription := Step.rollbackDescription
  commitDescription := Step.commitDescription

end DirectorySaga
