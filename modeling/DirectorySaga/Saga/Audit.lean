/-
The audit log of a saga.

Every attempted operation gets one record, in the order of the attempts.  A record is
opened when the attempt starts, settled when the operation turns out to be performed or
to have failed, and settled once more when a performed operation is committed or rolled
back.  Records are known by their place in the log and are never removed.
-/
namespace DirectorySaga

/-- What has become of an attempted operation. -/
inductive OperationStatus
  /-- It took effect and awaits commit or rollback. -/
  | performed
  /-- It could not be recorded or did not take effect. -/
  | failed
  /-- It was finalized. -/
  | committed
  /-- It could not be finalized. -/
  | commitFailed
  /-- It was undone. -/
  | rolledBack
  /-- It could not be undone. -/
  | rollbackFailed
deriving DecidableEq

/-- The name of the status. -/
def OperationStatus.name : OperationStatus → String
  | performed => "Performed"
  | failed => "Failed"
  | committed => "Committed"
  | commitFailed => "CommitFailed"
  | rolledBack => "RolledBack"
  | rollbackFailed => "RollbackFailed"

/-- The sign of the status in a summary. -/
def OperationStatus.sign : OperationStatus → String
  | performed => "•"
  | committed => "✓"
  | failed => "✗"
  | rolledBack => "↩"
  | commitFailed | rollbackFailed => "⚠"

/-- The record of one attempt. -/
structure AuditRecord where
  /-- The name of the operation. -/
  operation : String
  status : OperationStatus
  /-- Whether the status has been settled since the attempt started. -/
  settled : Bool
  /-- What a rollback will do, once the operation has been performed. -/
  rollback : Option String
deriving DecidableEq

/-- The record of an attempt that has just started. -/
def AuditRecord.started (operation : String) : AuditRecord := ⟨operation, .performed, false, none⟩

/-- The record with a settled status. -/
def AuditRecord.settle (status : OperationStatus) (r : AuditRecord) : AuditRecord :=
  { r with status, settled := true }

/-- The record of an operation that has been performed. -/
def AuditRecord.performed (rollback : String) (r : AuditRecord) : AuditRecord :=
  { r.settle .performed with rollback := some rollback }

/-- The records of all attempts, oldest first. -/
structure AuditLog where
  records : List AuditRecord
deriving DecidableEq

namespace AuditLog

/-- The log without records. -/
def empty : AuditLog := ⟨[]⟩

/-- The place of the next record. -/
def next (log : AuditLog) : Nat := log.records.length

/-- The log with a record for an attempt that starts. -/
def start (log : AuditLog) (operation : String) : AuditLog :=
  ⟨log.records ++ [.started operation]⟩

/-- The log with the record at `index` changed. -/
def update (log : AuditLog) (index : Nat) (change : AuditRecord → AuditRecord) : AuditLog :=
  ⟨log.records.modify index change⟩

/-- One line per record: the sign of its status and the name of its operation. -/
def summary (log : AuditLog) : String :=
  "\n".intercalate (log.records.map fun r => s!"{r.status.sign} {r.operation}")

end AuditLog

end DirectorySaga
