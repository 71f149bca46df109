/-
The subtree at a name.

A name lies *within* another when it is that name or lies below it.  Written out, such
a name is some front put before the levels of the other, and nearly everything said
here follows from the laws of list suffixes.

A move from `old` to `new` carries every name within `old` to a name within `new` and
leaves the others where they are.  Carrying keeps children children, and as long as the
name started within `old`, the move back undoes it.
-/
import DirectorySaga.Name.Basic

namespace DirectorySaga.Name

/-! ### Parents and children -/

theorem parent?_eq_some_iff {n p : Name} : n.parent? = some p ↔ ∃ leaf, n = p.child leaf := by
  obtain ⟨levels⟩ := n
  obtain ⟨above⟩ := p
  cases levels with
  | nil => simp [parent?, child]
  | cons r rest =>
    simp only [parent?, child, Option.some.injEq, mk.injEq, List.cons.injEq]
    exact ⟨fun h => ⟨r, rfl, h⟩, fun ⟨_, _, h⟩ => h⟩

theorem parent?_eq_none_iff {n : Name} : n.parent? = none ↔ n = root := by
  obtain ⟨levels⟩ := n
  cases levels <;> simp [parent?, root]

@[simp] theorem parent?_child (p : Name) (leaf : Rdn) : (p.child leaf).parent? = some p := rfl

theorem isRoot_iff {n : Name} : n.isRoot = true ↔ n = root := by
  obtain ⟨levels⟩ := n
  simp [isRoot, root]

theorem child_inj {p q : Name} {leaf leaf' : Rdn} :
    p.child leaf = q.child leaf' ↔ leaf = leaf' ∧ p = q := by
  obtain ⟨above⟩ := p
  obtain ⟨above'⟩ := q
  simp [child]

/-! ### Lying within a subtree -/

/-- The name is `base` or lies below it. -/
def Within (n base : Name) : Prop := base.levels <:+ n.levels

instance (n base : Name) : Decidable (n.Within base) :=
  inferInstanceAs (Decidable (base.levels <:+ n.levels))

theorem within_refl (n : Name) : n.Within n := List.suffix_refl _

theorem within_root (n : Name) : n.Within root := List.nil_suffix

theorem Within.trans {n m base : Name} (h : n.Within m) (h' : m.Within base) : n.Within base :=
  List.IsSuffix.trans h' h

/-- Two names above one name lie in line. -/
theorem Within.linear {n a b : Name} (ha : n.Within a) (hb : n.Within b) :
    a.Within b ∨ b.Within a :=
  (List.suffix_or_suffix_of_suffix ha hb).symm

theorem within_iff {n base : Name} : n.Within base ↔ ∃ front : Name, n = front.under base := by
  constructor
  · rintro ⟨front, h⟩
    exact ⟨⟨front⟩, by rw [under, h]⟩
  · rintro ⟨front, rfl⟩
    exact ⟨front.levels, rfl⟩

theorem isBelow_iff_within {n base : Name} :
    n.isBelow base = true ↔ n.Within base ∧ n ≠ base := by
  rw [isBelow_iff]
  constructor
  · rintro ⟨front, hne, h⟩
    refine ⟨⟨front, h⟩, ?_⟩
    rintro rfl
    exact hne (List.append_left_eq_self.mp h)
  · rintro ⟨⟨front, h⟩, hne⟩
    refine ⟨front, ?_, h⟩
    rintro rfl
    exact hne (congrArg mk h.symm)

theorem within_iff_eq_or_isBelow {n base : Name} :
    n.Within base ↔ n = base ∨ n.isBelow base = true := by
  rw [isBelow_iff_within]
  constructor
  · intro h
    by_cases hn : n = base
    · exact Or.inl hn
    · exact Or.inr ⟨h, hn⟩
  · rintro (rfl | ⟨h, -⟩)
    · exact within_refl n
    · exact h

/-- Not to lie below a name is to be that name or not to lie within it at all. -/
theorem not_isBelow_iff {n base : Name} : n.isBelow base = false ↔ (n.Within base → n = base) := by
  rw [← Bool.not_eq_true, isBelow_iff_within, not_and, Classical.not_not]

/-- No two names lie within each other. -/
theorem Within.antisymm {n m : Name} (h : n.Within m) (h' : m.Within n) : n = m := by
  have hlen : m.levels = n.levels := h.eq_of_length (Nat.le_antisymm h.length_le h'.length_le)
  exact congrArg mk hlen.symm

theorem eq_root_of_within_root {n : Name} (h : root.Within n) : n = root :=
  (within_root n).antisymm h

/-- A child lies within what its parent lies within, and within itself. -/
theorem child_within_iff {p base : Name} {leaf : Rdn} :
    (p.child leaf).Within base ↔ p.child leaf = base ∨ p.Within base := by
  obtain ⟨above⟩ := p
  obtain ⟨levels⟩ := base
  simp only [Within, child, List.suffix_cons_iff, mk.injEq]
  exact or_congr_left ⟨Eq.symm, Eq.symm⟩

theorem child_within (p : Name) (leaf : Rdn) : (p.child leaf).Within p :=
  child_within_iff.mpr (Or.inr (within_refl p))

/-- A name does not lie within its child. -/
theorem not_within_child (p : Name) (leaf : Rdn) : ¬ p.Within (p.child leaf) := by
  intro h
  have hlen : (p.child leaf).levels.length ≤ p.levels.length := h.length_le
  rw [child, List.length_cons] at hlen
  omega

theorem child_ne (p : Name) (leaf : Rdn) : p.child leaf ≠ p := by
  intro h
  have hw : p.Within (p.child leaf) := by
    rw [h]
    exact within_refl p
  exact not_within_child p leaf hw

theorem isBelow_child {p base : Name} {leaf : Rdn} :
    (p.child leaf).isBelow base = true ↔ p.Within base := by
  rw [isBelow_iff_within, child_within_iff]
  constructor
  · rintro ⟨heq | hp, hne⟩
    · exact absurd heq hne
    · exact hp
  · intro hp
    refine ⟨Or.inr hp, ?_⟩
    rintro rfl
    exact not_within_child p leaf hp

/-- Names within one that is below the base are below the base. -/
theorem Within.isBelow {n m base : Name} (h : n.Within m) (hm : m.isBelow base = true) :
    n.isBelow base = true := by
  obtain ⟨hw, hne⟩ := isBelow_iff_within.mp hm
  refine isBelow_iff_within.mpr ⟨h.trans hw, ?_⟩
  rintro rfl
  exact hne (hw.antisymm h)

/-! ### Carrying names along with a move -/

/-- Where the name is after a move of `old` to `new`. -/
def carry (n old new : Name) : Name := (n.rebase? old new).getD n

theorem rebase?_eq_none_iff {n old new : Name} : n.rebase? old new = none ↔ ¬ n.Within old := by
  rw [Within, ← List.isSuffixOf_iff_suffix, rebase?]
  split <;> simp_all

theorem rebase?_under (front old new : Name) :
    (front.under old).rebase? old new = some (front.under new) :=
  rebase?_append front.levels old new

theorem carry_under (front old new : Name) : (front.under old).carry old new = front.under new := by
  rw [carry, rebase?_under, Option.getD_some]

theorem carry_self (old new : Name) : old.carry old new = new :=
  carry_under root old new

theorem carry_of_not_within {n old new : Name} (h : ¬ n.Within old) : n.carry old new = n := by
  rw [carry, rebase?_eq_none_iff.mpr h, Option.getD_none]

theorem rebase?_of_within {n old new : Name} (h : n.Within old) :
    n.rebase? old new = some (n.carry old new) := by
  obtain ⟨front, rfl⟩ := within_iff.mp h
  rw [carry_under, rebase?_under]

theorem carry_within {n old new : Name} (h : n.Within old) : (n.carry old new).Within new := by
  obtain ⟨front, rfl⟩ := within_iff.mp h
  rw [carry_under]
  exact within_iff.mpr ⟨front, rfl⟩

/-- The move back undoes the move. -/
theorem carry_carry {n old new : Name} (h : n.Within old) :
    (n.carry old new).carry new old = n := by
  obtain ⟨front, rfl⟩ := within_iff.mp h
  rw [carry_under, carry_under]

theorem carry_injOn {n m old new : Name} (hn : n.Within old) (hm : m.Within old)
    (h : n.carry old new = m.carry old new) : n = m := by
  rw [← carry_carry hn, h, carry_carry hm]

theorem child_carry {p old new : Name} {leaf : Rdn} (h : p.Within old) :
    (p.child leaf).carry old new = (p.carry old new).child leaf := by
  obtain ⟨front, rfl⟩ := within_iff.mp h
  rw [carry_under]
  exact carry_under (front.child leaf) old new

theorem carry_ne_root {n old new : Name} (h : n.Within old) (hnew : new ≠ root) :
    n.carry old new ≠ root := by
  intro hc
  have hw : root.Within new := hc ▸ carry_within h
  exact hnew (eq_root_of_within_root hw)

/-! ### Names of units and persons -/

/-- The name of a unit, right below the root. -/
def unit (value : String) : Name := root.child (.single ⟨"ou", value⟩)

/-- The name of a person within a unit. -/
def member (unit : Name) (value : String) : Name := unit.child (.single ⟨"cn", value⟩)

end DirectorySaga.Name
