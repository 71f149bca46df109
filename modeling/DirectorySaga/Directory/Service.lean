/-
What a transaction needs of a directory.

A transaction does not care where entries are kept: it looks entries up, asks whether
they have others below them, and writes.  A service answers these calls from a state of
its own, and any call may fail or change that state; the directory in memory is the
service whose state is the entries and whose calls do exactly what they say.
-/
import DirectorySaga.Directory.Basic

namespace DirectorySaga

/-- Access to a directory whose state is a `σ`.  Every call answers, successfully or not,
and leaves a state behind. -/
structure Service (σ : Type) where
  /-- The attributes of an entry. -/
  lookup : Name → σ → Except DirectoryError Attributes × σ
  /-- Whether an entry has others below it. -/
  hasChildren : Name → σ → Except DirectoryError Bool × σ
  /-- Carries out an operation. -/
  write : Operation → σ → Except DirectoryError Unit × σ
  /-- Whether the directory is accessed anonymously and for reading only. -/
  anonymousReadOnly : σ → Bool := fun _ => false

namespace Directory

/-- Carries out an operation; a refused one leaves the directory as it is. -/
def perform (operation : Operation) (d : Directory) : Except DirectoryError Unit × Directory :=
  match d.write operation with
  | .ok written => (.ok (), written)
  | .error e => (.error e, d)

/-- The directory in memory as a service. -/
def service : Service Directory where
  lookup name d := (d.lookup name, d)
  hasChildren name d := (d.hasChildren name, d)
  write := perform
  anonymousReadOnly := readOnly

end Directory

end DirectorySaga
