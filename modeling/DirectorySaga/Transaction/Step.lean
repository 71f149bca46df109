/-
Recorded writes.

A step is a write together with what it takes to undo it.  What is sent to the directory
when the step is performed, undone or committed is in each case an operation:
`forward`, `inverse` and, for a removal only, `final`.  A removal is performed as a move
to the temporary name and undone by the move back; the entry is taken away on commit.
-/
import DirectorySaga.Operation

namespace DirectorySaga

/-- A write that can be undone. -/
inductive Step
  | bind (name : Name) (attributes : Attributes)
  /-- With the attributes of the entry before, if there was one. -/
  | rebind (name : Name) (attributes : Attributes) (before : Option Attributes)
  | rename (old new : Name)
  /-- With the name under which the entry waits for the commit. -/
  | unbind (name temporary : Name)
  /-- With the items that bring the changed attributes back. -/
  | modifyAttributes (name : Name) (items compensating : List Modification)
deriving BEq

namespace Step

/-- The kind of the recorded write. -/
def kind : Step → OperationKind
  | bind .. => .bind
  | rebind .. => .rebind
  | rename .. => .rename
  | unbind .. => .unbind
  | modifyAttributes .. => .modifyAttributes

/-- What is sent to make the write take effect. -/
def forward : Step → Operation
  | bind name attributes => .bind name attributes
  | rebind name attributes _ => .rebind name attributes
  | rename old new => .rename old new
  | unbind name temporary => .rename name temporary
  | modifyAttributes name items _ => .modifyAttributes name items

/-- What is sent to undo the write. -/
def inverse : Step → Operation
  | bind name _ => .unbind name
  | rebind name _ (some before) => .rebind name before
  | rebind name _ none => .unbind name
  | rename old new => .rename new old
  | unbind name temporary => .rename temporary name
  | modifyAttributes name _ compensating => .modifyAttributes name compensating

/-- What is sent to make the write final, if anything. -/
def final? : Step → Option Operation
  | unbind _ temporary => some (.unbind temporary)
  | _ => none

/-- What a rollback of the step will do. -/
def rollbackDescription : Step → String
  | bind name _ | rebind name _ none => s!"unbind '{name.text}'"
  | rebind name _ (some _) => s!"restore previous attributes of '{name.text}'"
  | rename old new | unbind old new => s!"rename '{new.text}' back to '{old.text}'"
  | modifyAttributes name _ _ => s!"restore modified attributes of '{name.text}'"

/-- What a commit of the step will do. -/
def commitDescription : Step → String
  | unbind _ temporary => s!"unbind '{temporary.text}'"
  | step => s!"finalize {step.kind.name}"

end Step

/-! ### Undoing a modification -/

namespace Modification

/-- The items that concern an attribute first, leaving out those whose folded id has been
seen before. -/
def firstOfEachId (seen : List String) : List Modification → List Modification
  | [] => []
  | item :: more =>
    if seen.contains item.attr.foldedId then firstOfEachId seen more
    else item :: firstOfEachId (item.attr.foldedId :: seen) more

/-- The item that brings the attribute named by `item` back to what it is in `before`.
Replacing it by no values removes it. -/
def restoring (before : Attributes) (item : Modification) : Modification :=
  ⟨.replace, (before.get? item.attr.id).getD (.named item.attr.id)⟩

end Modification

/-- One item for each attribute that the items concern, bringing it back to what it is in
`before`. -/
def Attributes.compensatingItems (before : Attributes) (items : List Modification) :
    List Modification :=
  (Modification.firstOfEachId [] items).map (Modification.restoring before)

end DirectorySaga
