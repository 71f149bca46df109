/-
Changing attributes.

An item adds values to an attribute, replaces the attribute or removes values of it.
What it does depends on that one attribute alone: `Modification.change` takes the
attribute as it is, if there is one, to the attribute as it will be, and refuses only
to remove what is not there.  A list of items is applied in order, and a refusal means
that nothing is changed at all.
-/
import DirectorySaga.Attributes.Basic
import DirectorySaga.Error

namespace DirectorySaga

/-- What is done with the values of an item. -/
inductive ModificationOp
  | add
  | replace
  | remove
deriving DecidableEq

/-- One change of one attribute. -/
structure Modification where
  op : ModificationOp
  attr : Attribute
deriving BEq

/-! ### One attribute -/

/-- The attribute with these values; without values there is none. -/
def Attribute.withValues? (a : Attribute) (values : List String) : Option Attribute :=
  if values.isEmpty then none else some { a with values }

namespace Modification

/-- The values with the new ones behind them, each only if it is not there already. -/
def addValues (values added : List String) : List String :=
  added.foldl (fun values v => if values.contains v then values else values ++ [v]) values

/-- The values without the removed ones, each of which must be there at its turn. -/
def removeValues (values : List String) : List String → Option (List String)
  | [] => some values
  | v :: more => if values.contains v then removeValues (values.filter (· != v)) more else none

/-- The attribute after the change, `none` standing for its absence before and after;
fails if it lacks what is to be removed. -/
def change (item : Modification) : Option Attribute → Option (Option Attribute) :=
  let given := item.attr
  match item.op with
  | .add => fun
    | none => some (some given)
    | some a => some (some { a with values := addValues a.values given.values })
  | .replace => fun _ => some (given.withValues? given.values)
  | .remove => fun
    | none => none
    | some a =>
      if given.values.isEmpty then some none
      else (removeValues a.values given.values).map a.withValues?

end Modification

/-! ### Attribute sets -/

namespace Attributes

/-- The set after one item, on behalf of the entry `owner`. -/
def apply (owner : Name) (s : Attributes) (item : Modification) :
    Except DirectoryError Attributes :=
  let id := item.attr.id
  match item.change (s.get? id) with
  | some changed => .ok (s.set id changed)
  | none => .error (.noSuchAttribute owner id)

/-- The set after all items in order, on behalf of the entry `owner`. -/
def modify (owner : Name) (s : Attributes) (items : List Modification) :
    Except DirectoryError Attributes :=
  items.foldlM (apply owner) s

end Attributes

end DirectorySaga
