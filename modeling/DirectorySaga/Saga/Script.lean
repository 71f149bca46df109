/-
Scripted participants.

A script is an operation that is its own step and does nothing but leave a line in a
log, `perform x` when `x` is performed; it fails in the phases for which it has an error
text.  Scripts show how a saga behaves whatever its participants do.  There are
participants that give all that a participant can give and others that leave some of
it to the defaults.
-/
import DirectorySaga.Saga.Basic

namespace DirectorySaga

/-- A phase in the life of a scripted operation. -/
inductive ScriptPhase
  | record
  | perform
  | rollback
  | commit

/-- The name of the phase. -/
def ScriptPhase.name : ScriptPhase → String
  | record => "record"
  | perform => "perform"
  | rollback => "rollback"
  | commit => "commit"

/-- An operation that behaves as written down. -/
structure Script where
  name : String
  /-- The errors of the phases that fail. -/
  failure : ScriptPhase → Option String
  rollbackDescription : String
  commitDescription : String

/-- How much of a scripted participant is left to the defaults. -/
inductive ScriptKind
  /-- Nothing. -/
  | scripted
  /-- The two descriptions. -/
  | undescribed
  /-- The two descriptions and the commit. -/
  | plain

namespace Script

/-- Leaves a line in the log, and fails if the script says so. -/
def run (phase : ScriptPhase) (script : Script) (log : List String) :
    Except String Unit × List String :=
  let log := log ++ [s!"{phase.name} {script.name}"]
  match script.failure phase with
  | none => (.ok (), log)
  | some error => (.error error, log)

/-- The participant that leaves the commit and the descriptions to the defaults. -/
def plain : Participant Script Script (List String) String where
  operationName := name
  record script log := ((run .record script log).1.map fun _ => script, (run .record script log).2)
  stepName := name
  perform := run .perform
  rollback := run .rollback

/-- The participant that leaves the descriptions to the defaults. -/
def undescribed : Participant Script Script (List String) String :=
  { plain with commit := run .commit }

/-- The participant that follows the script in everything. -/
def scripted : Participant Script Script (List String) String :=
  { undescribed with rollbackDescription, commitDescription }

/-- The participant of that kind. -/
def participant : ScriptKind → Participant Script Script (List String) String
  | .scripted => scripted
  | .undescribed => undescribed
  | .plain => plain

end Script

end DirectorySaga
