/-
Where an entry waits while its removal can still be undone.

Taking an entry away within a transaction only moves it to a temporary name; it goes for
good on commit.  A parking rule says what that name is.  One rule keeps the entry where
it is and appends a suffix to the value of its leaf; the other moves it below a node set
apart for this and appends a number, drawn from a sequence, so that equal leaves get
different names.  Rules that share a node should share a sequence.
-/
import DirectorySaga.Error

namespace DirectorySaga

/-! ### Sequences -/

/-- Which sequence of numbers. -/
abbrev SequenceId : Type := Nat

/-- The next number of every sequence.  Numbers are 64-bit words, and after the largest
comes zero. -/
structure Sequences where
  upcoming : SequenceId → UInt64

namespace Sequences

/-- Sequences that all start at one. -/
def initial : Sequences := ⟨fun _ => 1⟩

/-- The sequences with `number` as the next number of `id`. -/
def set (s : Sequences) (id : SequenceId) (number : UInt64) : Sequences :=
  ⟨fun other => if other = id then number else s.upcoming other⟩

/-- Draws the next number of a sequence. -/
def draw (s : Sequences) (id : SequenceId) : UInt64 × Sequences :=
  (s.upcoming id, s.set id (s.upcoming id + 1))

end Sequences

/-! ### Parking rules -/

/-- How temporary names are formed. -/
inductive Parking
  /-- The entry stays below its parent, and its leaf gets the suffix. -/
  | suffix (text : String)
  /-- The entry goes below `node`, and its leaf gets the next number of the sequence. -/
  | subtree (node : Name) (sequence : SequenceId)

namespace Parking

/-- The suffix unless another is chosen. -/
def defaultSuffix : String := "_temp"

/-- The rule unless another is chosen. -/
def default : Parking := .suffix defaultSuffix

instance : Inhabited Parking := ⟨default⟩

/-- The temporary name of an entry.  The root has none, and then no number is drawn. -/
def temporaryName (parking : Parking) (name : Name) (s : Sequences) :
    Except DirectoryError Name × Sequences :=
  match name.levels with
  | [] => (.error (.invalidName "" .rootHasNoLeaf), s)
  | leaf :: above =>
    match parking with
    | .suffix text => (.ok (Name.child ⟨above⟩ (leaf.withSuffix text)), s)
    | .subtree node sequence =>
      let (number, s) := s.draw sequence
      (.ok (node.child (leaf.withSuffix number.toNat.repr)), s)

end Parking

end DirectorySaga
