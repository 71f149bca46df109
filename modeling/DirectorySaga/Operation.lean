/-
The writes that can take part in a transaction.

There are five kinds of them.  The same values are what a transaction is asked to do,
what a directory is asked to do, and what undoes an earlier one.
-/
import DirectorySaga.Attributes.Modification

namespace DirectorySaga

/-! ### Kinds -/

/-- The kind of a write. -/
inductive OperationKind
  | bind
  | rebind
  | rename
  | unbind
  | modifyAttributes
deriving DecidableEq

/-- A word that names no kind of write. -/
structure UnsupportedOperation where
  word : String
deriving DecidableEq

/-- The refusal in words. -/
def UnsupportedOperation.message (e : UnsupportedOperation) : String :=
  s!"'{e.word}' is not a transactional directory operation"

namespace OperationKind

/-- All kinds. -/
def all : List OperationKind := [bind, rebind, rename, unbind, modifyAttributes]

/-- The name of the kind. -/
def name : OperationKind → String
  | bind => "bind"
  | rebind => "rebind"
  | rename => "rename"
  | unbind => "unbind"
  | modifyAttributes => "modifyAttributes"

/-- The kind of that name. -/
def ofName (word : String) : Except UnsupportedOperation OperationKind :=
  match all.find? (·.name == word) with
  | some kind => .ok kind
  | none => .error ⟨word⟩

end OperationKind

/-! ### Operations -/

/-- A write with its arguments. -/
inductive Operation
  /-- Adds an entry. -/
  | bind (name : Name) (attributes : Attributes)
  /-- Sets all attributes of an entry, adding it if need be. -/
  | rebind (name : Name) (attributes : Attributes)
  /-- Moves an entry and all below it. -/
  | rename (old new : Name)
  /-- Takes an entry away. -/
  | unbind (name : Name)
  /-- Changes attributes of an entry. -/
  | modifyAttributes (name : Name) (items : List Modification)
deriving BEq

namespace Operation

/-- The kind of the operation. -/
def kind : Operation → OperationKind
  | bind .. => .bind
  | rebind .. => .rebind
  | rename .. => .rename
  | unbind .. => .unbind
  | modifyAttributes .. => .modifyAttributes

/-- The entry that the operation acts on; for a move, where the entry is before it. -/
def target : Operation → Name
  | bind name _ | rebind name _ | unbind name | modifyAttributes name _ => name
  | rename old _ => old

end Operation

end DirectorySaga
