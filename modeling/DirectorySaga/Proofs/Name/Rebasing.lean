/-
Rebasing moves a subtree as it is.

A name lies below another when the way up from it, parent by parent, comes past the other
(`isBelow_iff_transGen`).  Rebasing exchanges the end of that way and keeps the front of it: a
name within the old base is a front put before that base, and becomes the same front put before
the new one.

The front is all that counts between two names of one subtree.  Whether one of them lies within
the other can be told from their fronts (`under_within_under`), so the answer is the same at the
new base, and to put the old base back is to rebase the other way.
-/
import Mathlib.Logic.Relation
import DirectorySaga.Proofs.Name.Subtree

namespace DirectorySaga.Name

variable {n m p old new : Name}

/-! ### The way up -/

/-- The second name is right above the first. -/
def HasParent (n p : Name) : Prop := n.parent? = some p

theorem isBelow_of_hasParent (h : n.HasParent p) : n.isBelow p = true := by
  obtain ⟨leaf, rfl⟩ := parent?_eq_some_iff.mp h
  exact isBelow_child.mpr (within_refl p)

theorem isBelow_trans {base : Name} (h : n.isBelow m = true) (h' : m.isBelow base = true) :
    n.isBelow base = true :=
  (isBelow_iff_within.mp h).1.isBelow h'

/-- **A name lies below all that its way up comes to**, and below nothing else. -/
theorem isBelow_iff_transGen {n base : Name} :
    n.isBelow base = true ↔ Relation.TransGen HasParent n base := by
  constructor
  · obtain ⟨levels⟩ := n
    induction levels with
    | nil =>
      intro h
      simp [isBelow, depth] at h
    | cons leaf above ih =>
      intro h
      have hparent : HasParent ⟨leaf :: above⟩ ⟨above⟩ := rfl
      have hwithin : Within ⟨above⟩ base := isBelow_child.mp h
      rcases within_iff_eq_or_isBelow.mp hwithin with heq | hbelow
      · rw [← heq]
        exact .single hparent
      · exact .head hparent (ih hbelow)
  · intro h
    induction h with
    | single hparent => exact isBelow_of_hasParent hparent
    | tail _ hparent ih => exact isBelow_trans ih (isBelow_of_hasParent hparent)

/-! ### Fronts -/

/-- Which of two names lies within the other does not depend on what both are put under. -/
theorem under_within_under {front front' base : Name} :
    (front.under base).Within (front'.under base) ↔ front.Within front' := by
  constructor
  · rintro ⟨more, h⟩
    have hlevels : (more ++ front'.levels) ++ base.levels = front.levels ++ base.levels := by
      rw [List.append_assoc]
      exact h
    exact ⟨more, List.append_cancel_right hlevels⟩
  · rintro ⟨more, h⟩
    refine ⟨more, ?_⟩
    show more ++ (front'.levels ++ base.levels) = front.levels ++ base.levels
    rw [← h, List.append_assoc]

theorem carry_within_carry (hn : n.Within old) (hm : m.Within old) :
    (n.carry old new).Within (m.carry old new) ↔ n.Within m := by
  obtain ⟨front, rfl⟩ := within_iff.mp hn
  obtain ⟨front', rfl⟩ := within_iff.mp hm
  rw [carry_under, carry_under, under_within_under, under_within_under]

/-- **A move keeps what lies below what.** -/
theorem carry_isBelow_carry (hn : n.Within old) (hm : m.Within old) :
    (n.carry old new).isBelow (m.carry old new) = true ↔ n.isBelow m = true := by
  have heq : n.carry old new = m.carry old new ↔ n = m := by
    refine ⟨carry_injOn hn hm, fun h => ?_⟩
    rw [h]
  rw [isBelow_iff_within, isBelow_iff_within, carry_within_carry hn hm, Ne, Ne, heq]

/-! ### Rebasing -/

theorem isSome_rebase?_iff : (n.rebase? old new).isSome = true ↔ n.Within old := by
  by_cases h : n.Within old
  · simp [rebase?_of_within h, h]
  · simp [rebase?_eq_none_iff.mpr h, h]

theorem rebase?_eq_some_iff_carry :
    n.rebase? old new = some m ↔ n.Within old ∧ n.carry old new = m := by
  by_cases h : n.Within old
  · simp [rebase?_of_within h, h]
  · simp [rebase?_eq_none_iff.mpr h, h]

/-- Below the base, the parent is moved along. -/
theorem exists_parent_carry (h : n.Within old) (hne : n ≠ old) :
    ∃ p, n.HasParent p ∧ p.Within old ∧ (n.carry old new).HasParent (p.carry old new) := by
  obtain ⟨levels⟩ := n
  cases levels with
  | nil => exact absurd (eq_root_of_within_root h).symm hne
  | cons leaf above =>
    have hp : Within ⟨above⟩ old := by
      rcases child_within_iff.mp (h : (child ⟨above⟩ leaf).Within old) with heq | hp
      · exact absurd heq hne
      · exact hp
    refine ⟨⟨above⟩, rfl, hp, ?_⟩
    show ((child ⟨above⟩ leaf).carry old new).parent? = some _
    rw [child_carry hp, parent?_child]

/--
**Rebasing is an isomorphism of subtrees.**  To lie below a name is to reach it by going up
once or more often.  A name is rebased just when it is the old base or lies below it.  Then it
becomes the new base or a name below that; rebasing it the other way gives it back; its parent
is rebased to the parent of what it becomes, unless it is the base itself; and of two names that
are rebased, one lies below the other just when this holds of what they become.
-/
theorem rebase?_isomorphism (old new : Name) :
    (∀ n : Name, n.isBelow old = true ↔ Relation.TransGen HasParent n old) ∧
    (∀ n : Name, (n.rebase? old new).isSome = true ↔ n = old ∨ n.isBelow old = true) ∧
    (∀ n m : Name, n.rebase? old new = some m →
      (m = new ∨ m.isBelow new = true) ∧ m.rebase? new old = some n ∧
        (n ≠ old → ∃ p q, n.parent? = some p ∧ p.rebase? old new = some q ∧
          m.parent? = some q)) ∧
    ∀ n n' m m' : Name, n.rebase? old new = some m → n'.rebase? old new = some m' →
      (n.isBelow n' = true ↔ m.isBelow m' = true) := by
  refine ⟨fun n => isBelow_iff_transGen, fun n => ?_, ?_, ?_⟩
  · rw [isSome_rebase?_iff, within_iff_eq_or_isBelow]
  · intro n m h
    obtain ⟨hn, rfl⟩ := rebase?_eq_some_iff_carry.mp h
    have hm : (n.carry old new).Within new := carry_within hn
    refine ⟨within_iff_eq_or_isBelow.mp hm, ?_, ?_⟩
    · exact rebase?_eq_some_iff_carry.mpr ⟨hm, carry_carry hn⟩
    · intro hne
      obtain ⟨p, hparent, hp, hcarried⟩ := exists_parent_carry hn hne
      exact ⟨p, p.carry old new, hparent, rebase?_of_within hp, hcarried⟩
  · intro n n' m m' h h'
    obtain ⟨hn, rfl⟩ := rebase?_eq_some_iff_carry.mp h
    obtain ⟨hn', rfl⟩ := rebase?_eq_some_iff_carry.mp h'
    exact (carry_isBelow_carry hn hn').symm

end DirectorySaga.Name
