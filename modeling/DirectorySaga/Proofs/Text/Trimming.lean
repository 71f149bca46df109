/-
What is left when both ends are trimmed.

The library trims twice: white space around a text, and plain spaces around the pieces of
a value.  Both times the ends are dropped from the front first and then from the back, and
what is left can be told without saying how it was found: it is bare, that is, begins and
ends with something that stays, and only what goes was before and behind it
(`trimEnds_eq_iff`).  There is just one such part of a list, so later modules never follow
the dropping itself.
-/
import Mathlib.Data.List.DropRight
import DirectorySaga.Text.Blank

namespace DirectorySaga.Text

variable {α : Type} {p : α → Bool} {l core : List α}

/-- Nothing that satisfies `p` stands at either end. -/
structure Bare (p : α → Bool) (l : List α) : Prop where
  head : ∀ a ∈ l.head?, p a = false
  last : ∀ a ∈ l.getLast?, p a = false

theorem Bare.nil : Bare p [] := ⟨by simp, by simp⟩

theorem dropWhileEnd_eq_rdropWhile (p : α → Bool) (l : List α) :
    dropWhileEnd p l = l.rdropWhile p := by
  induction l with
  | nil => rfl
  | cons a rest ih =>
    have hrest : rest.rdropWhile p = (rest.reverse.dropWhile p).reverse := rfl
    have hcons : (a :: rest).rdropWhile p = ((a :: rest).reverse.dropWhile p).reverse := rfl
    rw [dropWhileEnd, ih, hrest, hcons, List.reverse_cons, List.dropWhile_append]
    cases rest.reverse.dropWhile p with
    | nil => by_cases ha : p a = true <;> simp [ha]
    | cons b kept => simp

/-- The list without all that satisfies `p` at its ends. -/
def trimEnds (p : α → Bool) (l : List α) : List α := dropWhileEnd p (l.dropWhile p)

theorem trimChars_eq (cs : List Char) : trimChars cs = trimEnds isBlank cs := rfl

theorem bare_trimEnds (p : α → Bool) (l : List α) : Bare p (trimEnds p l) := by
  unfold trimEnds
  rw [dropWhileEnd_eq_rdropWhile]
  constructor
  · intro a ha
    -- the back is dropped without touching the head
    obtain ⟨back, hback⟩ := List.rdropWhile_prefix p (l.dropWhile p)
    have hhead := List.head?_dropWhile_not p l
    rw [← hback, List.head?_append, ha] at hhead
    exact hhead
  · intro a ha
    have hne : (l.dropWhile p).rdropWhile p ≠ [] := by
      intro h
      simp [h] at ha
    have hlast := List.rdropWhile_last_not p (l.dropWhile p) hne
    rw [List.getLast?_eq_some_getLast hne] at ha
    obtain rfl := Option.some.inj ha
    simpa using hlast

/-- Only what satisfies `p` is dropped. -/
theorem exists_append_trimEnds (p : α → Bool) (l : List α) :
    ∃ front back, l = front ++ trimEnds p l ++ back ∧
      (∀ a ∈ front, p a = true) ∧ ∀ a ∈ back, p a = true := by
  refine ⟨l.takeWhile p, (l.dropWhile p).rtakeWhile p, ?_, ?_, ?_⟩
  · unfold trimEnds
    rw [dropWhileEnd_eq_rdropWhile, List.append_assoc, List.rdropWhile_append_rtakeWhile,
      List.takeWhile_append_dropWhile]
  · intro a ha
    exact List.mem_takeWhile_imp ha
  · intro a ha
    exact List.mem_rtakeWhile_imp ha

theorem trimEnds_append {front back : List α} (hcore : Bare p core)
    (hfront : ∀ a ∈ front, p a = true) (hback : ∀ a ∈ back, p a = true) :
    trimEnds p (front ++ core ++ back) = core := by
  unfold trimEnds
  rw [dropWhileEnd_eq_rdropWhile, List.append_assoc, List.dropWhile_append_of_pos hfront]
  cases core with
  | nil =>
    have hnil : back.dropWhile p = [] := by simpa using hback
    rw [List.nil_append, hnil, List.rdropWhile_nil]
  | cons a rest =>
    have ha : p a = false := hcore.head a rfl
    have hkept : (a :: rest).rdropWhile p = a :: rest := by
      rw [List.rdropWhile_eq_self_iff]
      intro hne
      have := hcore.last _ (List.getLast?_eq_some_getLast hne)
      simp [this]
    have hback' : ∀ b ∈ back.reverse, p b = true := fun b hb => hback b (List.mem_reverse.mp hb)
    rw [List.cons_append, List.dropWhile_cons_of_neg (by simp [ha]), ← List.cons_append]
    show ((a :: rest ++ back).reverse.dropWhile p).reverse = _
    rw [List.reverse_append, List.dropWhile_append_of_pos hback']
    exact hkept

/-- **Trimming leaves the bare part** between all that satisfies `p`. -/
theorem trimEnds_eq_iff :
    trimEnds p l = core ↔
      Bare p core ∧ ∃ front back, l = front ++ core ++ back ∧
        (∀ a ∈ front, p a = true) ∧ ∀ a ∈ back, p a = true := by
  constructor
  · intro h
    subst h
    exact ⟨bare_trimEnds p l, exists_append_trimEnds p l⟩
  · intro ⟨hcore, front, back, hl, hfront, hback⟩
    rw [hl]
    exact trimEnds_append hcore hfront hback

theorem Bare.trimEnds_eq (h : Bare p l) : trimEnds p l = l :=
  trimEnds_eq_iff.mpr ⟨h, [], [], by simp, by simp, by simp⟩

/-- Nothing is left just when everything is dropped. -/
theorem trimEnds_eq_nil_iff : trimEnds p l = [] ↔ ∀ a ∈ l, p a = true := by
  constructor
  · intro h a ha
    obtain ⟨-, front, back, hl, hfront, hback⟩ := trimEnds_eq_iff.mp h
    rw [hl, List.append_nil, List.mem_append] at ha
    exact ha.elim (hfront a) (hback a)
  · intro h
    exact trimEnds_eq_iff.mpr ⟨.nil, l, [], by simp, h, by simp⟩

/-- What trimming leaves was there before. -/
theorem mem_of_mem_trimEnds {a : α} (h : a ∈ trimEnds p l) : a ∈ l := by
  obtain ⟨front, back, hl, -, -⟩ := exists_append_trimEnds p l
  rw [hl]
  simp [h]

end DirectorySaga.Text
