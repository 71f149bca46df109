/-
A directory in memory.

A directory maps the names of its entries to their attributes.  A new entry needs an
entry bound at its parent, unless its parent is the root; an entry is moved together
with everything below it; and only an entry with nothing below it can be taken away.
Every call either answers or names its reason to refuse, and a refused write changes
nothing.

`ParentClosed` says that the entries form a tree: no entry hangs below a missing one.
Seeding entries one by one can break that, the writes cannot.
-/
import DirectorySaga.Operation

namespace DirectorySaga

/-- The entries of a directory by name, in the order of names. -/
abbrev Entries : Type := Std.ExtTreeMap Name Attributes

/-- The entries, and whether they are accessed anonymously and for reading only; the
mark is an announcement, and writes are carried out all the same. -/
structure Directory where
  entries : Entries
  readOnly : Bool

namespace Directory

/-- The directory without entries. -/
def empty : Directory := ⟨∅, false⟩

instance : Inhabited Directory := ⟨empty⟩

/-! ### Looking -/

/-- Whether an entry is bound at the name. -/
def contains (d : Directory) (name : Name) : Bool := d.entries.contains name

/-- The number of entries. -/
def size (d : Directory) : Nat := d.entries.size

/-- The names of the entries, in order. -/
def names (d : Directory) : List Name := d.entries.keys

/-- Whether an entry is bound anywhere below the name. -/
def hasBelow (d : Directory) (name : Name) : Bool := d.names.any (·.isBelow name)

/-- The attributes of the entry. -/
def lookup (d : Directory) (name : Name) : Except DirectoryError Attributes :=
  match d.entries[name]? with
  | some attributes => .ok attributes
  | none => .error (.nameNotFound name)

/-- Whether the entry has others below it. -/
def hasChildren (d : Directory) (name : Name) : Except DirectoryError Bool :=
  if d.contains name then .ok (d.hasBelow name) else .error (.nameNotFound name)

/-- Every entry's parent is the root or is bound. -/
def ParentClosed (d : Directory) : Prop :=
  ∀ name ∈ d.entries, ∀ parent, name.parent? = some parent → parent ≠ .root → parent ∈ d.entries

/-! ### Writing -/

/-- Binds an entry without any check. -/
def seed (d : Directory) (name : Name) (attributes : Attributes) : Directory :=
  { d with entries := d.entries.insert name attributes }

/-- Binds an entry without any check but that the text is a name; fails in words. -/
def seedText (d : Directory) (text : String) (attributes : Attributes) :
    Except String Directory :=
  match Name.read text with
  | .ok name => .ok (d.seed name attributes)
  | .error e => .error s!"invalid seed entry name: {e.message}"

/-- Refuses a name that has no place in the tree. -/
def requireParent (d : Directory) (name : Name) : Except DirectoryError Unit :=
  match name.parent? with
  | none => .error (.invalidName "" .rootBound)
  | some parent =>
    if parent.isRoot || d.contains parent then .ok () else .error (.nameNotFound parent)

/-- Adds an entry. -/
def bind (d : Directory) (name : Name) (attributes : Attributes) :
    Except DirectoryError Directory := do
  if d.contains name then throw (.nameAlreadyBound name)
  d.requireParent name
  return d.seed name attributes

/-- Sets all attributes of an entry, adding it if need be. -/
def rebind (d : Directory) (name : Name) (attributes : Attributes) :
    Except DirectoryError Directory := do
  d.requireParent name
  return d.seed name attributes

/-- The entries after the entry at `name` has gone along with a move from `old` to `new`. -/
def moveEntry (old new : Name) (entries : Entries) (name : Name) : Entries :=
  match entries[name]?, name.rebase? old new with
  | some attributes, some target => (entries.erase name).insert target attributes
  | _, _ => entries

/-- Moves an entry and all below it, one after the other in the order of their names. -/
def rename (d : Directory) (old new : Name) : Except DirectoryError Directory := do
  unless d.contains old do throw (.nameNotFound old)
  if d.contains new then throw (.nameAlreadyBound new)
  if new.isBelow old then throw (.invalidName new.text .movedBelowItself)
  d.requireParent new
  let moved := d.names.filter fun name => name == old || name.isBelow old
  return { d with entries := moved.foldl (moveEntry old new) d.entries }

/-- Takes an entry away. -/
def unbind (d : Directory) (name : Name) : Except DirectoryError Directory := do
  unless d.contains name do throw (.nameNotFound name)
  if d.hasBelow name then throw (.notEmpty name)
  return { d with entries := d.entries.erase name }

/-- Changes attributes of an entry. -/
def modifyAttributes (d : Directory) (name : Name) (items : List Modification) :
    Except DirectoryError Directory := do
  let attributes ← d.lookup name
  return d.seed name (← attributes.modify name items)

/-- Carries out an operation. -/
def write (d : Directory) : Operation → Except DirectoryError Directory
  | .bind name attributes => d.bind name attributes
  | .rebind name attributes => d.rebind name attributes
  | .rename old new => d.rename old new
  | .unbind name => d.unbind name
  | .modifyAttributes name items => d.modifyAttributes name items

end Directory

end DirectorySaga
