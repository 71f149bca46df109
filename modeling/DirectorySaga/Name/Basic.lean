/-
Names of directory entries.

A directory is a tree, and the name of an entry spells the path from the entry up to
the root: the relative name of the entry itself comes first, the level next to the root
last.  A relative name holds at least one component, which the type says by keeping
the first apart.  The name without any level is the root.

A component pairs an attribute type with a value.  Types are compared without regard
to case, so the constructor `Component.of` brings them into one form; values are kept
as they are.

Names are ordered level by level from the leaf, levels component by component, and
components by type and then by value.  All four orders are lexicographic, hence lawful,
and entries can be kept in a sorted map.
-/
import Std.Data.ExtTreeMap
import DirectorySaga.Text.Blank
import DirectorySaga.Text.Lower

namespace DirectorySaga

/-! ### Components -/

/-- One `type=value` pair of a relative name. -/
structure Component where
  key : String
  value : String
deriving DecidableEq

namespace Component

/-- The component of a type, without white space around it and in small letters. -/
def of (key value : String) : Component := ⟨Text.lower (Text.trim key), value⟩

/-- The component with another value. -/
def withValue (c : Component) (value : String) : Component := { c with value }

instance : Ord Component := ⟨compareLex (compareOn Component.key) (compareOn Component.value)⟩

instance : Std.TransOrd Component :=
  inferInstanceAs (Std.TransCmp (compareLex (compareOn Component.key) (compareOn Component.value)))

instance : Std.LawfulEqOrd Component where
  eq_of_compare {a b} h := by
    obtain ⟨ka, va⟩ := a
    obtain ⟨kb, vb⟩ := b
    have h' : (compare ka kb).then (compare va vb) = .eq := h
    rw [Ordering.then_eq_eq] at h'
    rw [Std.LawfulEqCmp.eq_of_compare h'.1, Std.LawfulEqCmp.eq_of_compare h'.2]

end Component

/-! ### Relative names -/

/-- The name of an entry below its parent: one component or more. -/
structure Rdn where
  first : Component
  rest : List Component
deriving DecidableEq

namespace Rdn

/-- The relative name of one component. -/
def single (c : Component) : Rdn := ⟨c, []⟩

/-- The components in order. -/
def components (r : Rdn) : List Component := r.first :: r.rest

/-- The relative name of these components, if there are any. -/
def ofComponents? : List Component → Option Rdn
  | [] => none
  | c :: rest => some ⟨c, rest⟩

/-- The relative name with `suffix` appended to the value of its first component. -/
def withSuffix (r : Rdn) (suffix : String) : Rdn :=
  { r with first := r.first.withValue (r.first.value ++ suffix) }

instance : Ord Rdn := ⟨compareLex (compareOn Rdn.first) (compareOn Rdn.rest)⟩

instance : Std.TransOrd Rdn :=
  inferInstanceAs (Std.TransCmp (compareLex (compareOn Rdn.first) (compareOn Rdn.rest)))

instance : Std.LawfulEqOrd Rdn where
  eq_of_compare {a b} h := by
    obtain ⟨fa, ra⟩ := a
    obtain ⟨fb, rb⟩ := b
    have h' : (compare fa fb).then (compare ra rb) = .eq := h
    rw [Ordering.then_eq_eq] at h'
    rw [Std.LawfulEqCmp.eq_of_compare h'.1, Std.LawfulEqCmp.eq_of_compare h'.2]

end Rdn

/-! ### Names -/

/-- The name of an entry: its levels from the leaf to the root. -/
structure Name where
  levels : List Rdn
deriving DecidableEq

namespace Name

/-- The name of the directory's root, above every entry. -/
def root : Name := ⟨[]⟩

instance : Inhabited Name := ⟨root⟩

/-- Whether the name is the root's. -/
def isRoot (n : Name) : Bool := n.levels.isEmpty

/-- The number of levels below the root. -/
def depth (n : Name) : Nat := n.levels.length

/-- The lowest level; the root has none. -/
def leaf? (n : Name) : Option Rdn := n.levels.head?

/-- The name one level up; the root has none. -/
def parent? (n : Name) : Option Name :=
  match n.levels with
  | [] => none
  | _ :: above => some ⟨above⟩

/-- The name one level down. -/
def child (n : Name) (leaf : Rdn) : Name := ⟨leaf :: n.levels⟩

/-- The name placed under `base`. -/
def under (n base : Name) : Name := ⟨n.levels ++ base.levels⟩

/-- Whether the name lies strictly below `ancestor`. -/
def isBelow (n ancestor : Name) : Bool :=
  ancestor.depth < n.depth && ancestor.levels.isSuffixOf n.levels

/-- The name with its upper part `old` replaced by `new`, if it is `old` or lies below it. -/
def rebase? (n old new : Name) : Option Name :=
  if old.levels.isSuffixOf n.levels then
    some (under ⟨n.levels.take (n.depth - old.depth)⟩ new)
  else none

/-- A name lies below another when it puts at least one level in front of it. -/
theorem isBelow_iff {n ancestor : Name} :
    n.isBelow ancestor = true ↔ ∃ front, front ≠ [] ∧ front ++ ancestor.levels = n.levels := by
  rw [isBelow, Bool.and_eq_true, decide_eq_true_iff, List.isSuffixOf_iff_suffix]
  constructor
  · rintro ⟨hlt, front, h⟩
    refine ⟨front, ?_, h⟩
    rintro rfl
    simp [depth, ← h] at hlt
  · rintro ⟨front, hne, h⟩
    have : 0 < front.length := List.length_pos_iff.mpr hne
    refine ⟨?_, front, h⟩
    rw [depth, depth, ← h, List.length_append]
    omega

/-- Rebasing keeps what stands in front of the old base. -/
theorem rebase?_append (front : List Rdn) (old new : Name) :
    rebase? ⟨front ++ old.levels⟩ old new = some ⟨front ++ new.levels⟩ := by
  simp [rebase?, under, depth]

instance : Ord Name := ⟨compareOn Name.levels⟩

instance : Std.TransOrd Name := inferInstanceAs (Std.TransCmp (compareOn Name.levels))

instance : Std.LawfulEqOrd Name where
  eq_of_compare {a b} h := by
    obtain ⟨la⟩ := a
    obtain ⟨lb⟩ := b
    have h' : compare la lb = .eq := h
    rw [Std.LawfulEqCmp.eq_of_compare h']

/-- The name itself, its parent, and so on up to the root. -/
def ancestry (n : Name) : List Name := go n.levels
where
  go : List Rdn → List Name
    | [] => [root]
    | r :: above => ⟨r :: above⟩ :: go above

end Name

end DirectorySaga
