/-
One item, or one for each of its values.

To remove several values is to remove the first and then the others, and it fails where this
fails: the values that are left decide what the next removal finds, and an attribute that has
lost its last value has lost any other value as well.  To add several values to an attribute is
to add the first and then the others, since a value that is there already is passed over.
So an item comes to the same as one item for each of its values (`modify_singly_remove`,
`modify_singly_add`).

An item that adds to a missing attribute does not work like this.  It is taken over as it is,
with the repetitions in its values, and even without any value; but of items with one value each,
the first creates the attribute and the others find it.  `AddsSingly` says when this makes no
difference, and `modify_singly` that it makes one in all other cases.
-/
import DirectorySaga.Proofs.Attributes.Order

namespace DirectorySaga

/-! ### Values -/

namespace Modification

/-- An item for each value of the item, in order. -/
def singly (item : Modification) : List Modification :=
  item.attr.values.map fun v => ⟨item.op, ⟨item.attr.id, [v]⟩⟩

theorem singly_cons (op : ModificationOp) (id v : String) (more : List String) :
    singly ⟨op, ⟨id, v :: more⟩⟩ = ⟨op, ⟨id, [v]⟩⟩ :: singly ⟨op, ⟨id, more⟩⟩ := rfl

theorem nodup_addValues : ∀ (added : List String) {values : List String}, values.Nodup →
    (addValues values added).Nodup := by
  intro added
  induction added with
  | nil =>
    intro values h
    exact h
  | cons v more ih =>
    intro values h
    rw [addValues, List.foldl_cons]
    refine ih ?_
    by_cases hv : values.contains v = true
    · rw [if_pos hv]
      exact h
    · rw [if_neg hv]
      refine List.nodup_append.mpr ⟨h, List.pairwise_singleton _ v, ?_⟩
      intro x hx y hy hxy
      rw [hxy, List.mem_singleton.mp hy] at hx
      exact hv (List.contains_iff_mem.mpr hx)

/-- Values that are all new, and all different, are put behind the others. -/
theorem addValues_of_nodup : ∀ (added values : List String), (values ++ added).Nodup →
    addValues values added = values ++ added := by
  intro added
  induction added with
  | nil =>
    intro values _
    exact (List.append_nil values).symm
  | cons v more ih =>
    intro values h
    have hv : v ∉ values := fun hmem =>
      (List.nodup_append.mp h).2.2 v hmem v List.mem_cons_self rfl
    rw [addValues, List.foldl_cons, if_neg (mt List.contains_iff_mem.mp hv), ← addValues,
      ih _ (by rwa [List.append_assoc]), List.append_assoc, List.singleton_append]

/-- Adding values to nothing leaves out repetitions. -/
theorem addValues_nil_eq_iff {values : List String} :
    addValues [] values = values ↔ values.Nodup := by
  constructor
  · intro h
    rw [← h]
    exact nodup_addValues values List.nodup_nil
  · intro h
    exact addValues_of_nodup values [] h

/-- Nothing can be removed where there is nothing. -/
theorem removeValues_nil {values : List String} (h : values ≠ []) :
    removeValues [] values = none := by
  cases values with
  | nil => exact absurd rfl h
  | cons v more => rfl

end Modification

/-! ### Changing an attribute twice -/

namespace Attributes

open Modification (singly singly_cons addValues removeValues removeValues_nil)

variable {s : Attributes} {a b : Attribute} {id v : String} {owner : Name}
  {values more : List String}

private theorem putIn_putIn (h : a.foldedId = b.foldedId) (list : List Attribute) :
    putIn b (putIn a list) = putIn b list := by
  induction list with
  | nil => simp [putIn, h]
  | cons c rest ih =>
    by_cases hc : c.foldedId = b.foldedId
    · simp [putIn, h, hc]
    · simp [putIn, h, hc, ih]

private theorem filter_putIn {key : String} (h : a.foldedId = key) (list : List Attribute) :
    (putIn a list).filter (·.foldedId != key) = list.filter (·.foldedId != key) := by
  induction list with
  | nil => simp [putIn, h]
  | cons c rest ih =>
    by_cases hc : c.foldedId = key
    · simp [putIn, h, hc]
    · simp [putIn, h, hc, ih]

/-- To put what is there already changes nothing. -/
theorem put_self (h : s.get? id = some a) : s.put a = s := by
  obtain ⟨front, back, hs, hput, -⟩ := inPlace_put (s := s) (foldedId_of_get? h)
  rw [h] at hs
  exact ext_list (hput.trans hs.symm)

/-- What is put in the place of something that was put counts alone. -/
theorem put_put (h : a.foldedId = b.foldedId) : (s.put a).put b = s.put b :=
  ext_list (putIn_putIn h s.list)

/-- What an attribute that was put is changed to counts alone. -/
theorem set_put {changed : Option Attribute} (ha : a.foldedId = Text.lower id)
    (hchanged : ∀ b, changed = some b → b.foldedId = Text.lower id) :
    (s.put a).set id changed = s.set id changed := by
  cases changed with
  | none => exact ext_list (filter_putIn ha s.list)
  | some b => exact put_put (ha.trans (hchanged b rfl).symm)

theorem get?_put_self (ha : a.foldedId = Text.lower id) : (s.put a).get? id = some a := by
  rw [get?_put, if_pos ha]

/-! ### Adding -/

theorem apply_add_found (h : s.get? id = some a) (values : List String) :
    s.apply owner ⟨.add, ⟨id, values⟩⟩ =
      .ok (s.put { a with values := addValues a.values values }) := by
  simp only [apply, h, Modification.change, set]

theorem apply_add_missing (h : s.get? id = none) (values : List String) :
    s.apply owner ⟨.add, ⟨id, values⟩⟩ = .ok (s.put ⟨id, values⟩) := by
  simp only [apply, h, Modification.change, set]

/-- **To an attribute that is there, values can be added one by one.** -/
theorem modify_singly_add : ∀ (values : List String) {s : Attributes} {a : Attribute},
    s.get? id = some a →
      s.modify owner (singly ⟨.add, ⟨id, values⟩⟩) = s.apply owner ⟨.add, ⟨id, values⟩⟩ := by
  intro values
  induction values with
  | nil =>
    intro s a h
    rw [apply_add_found h, addValues, List.foldl_nil, put_self h]
    rfl
  | cons v more ih =>
    intro s a h
    have ha : a.foldedId = Text.lower id := foldedId_of_get? h
    let b : Attribute := { a with values := addValues a.values [v] }
    have hb : b.foldedId = Text.lower id := ha
    have hfound : (s.put b).get? id = some b := get?_put_self hb
    rw [singly_cons, modify_cons_of_ok (apply_add_found h [v]), ih hfound,
      apply_add_found hfound, apply_add_found h]
    exact congrArg Except.ok (put_put rfl)

/-- Of values that are added one by one to a missing attribute the repetitions are left out. -/
theorem modify_singly_add_missing (h : s.get? id = none) (hvalues : values ≠ []) :
    s.modify owner (singly ⟨.add, ⟨id, values⟩⟩) = .ok (s.put ⟨id, addValues [] values⟩) := by
  cases values with
  | nil => exact absurd rfl hvalues
  | cons v more =>
    have hfound : (s.put ⟨id, [v]⟩).get? id = some ⟨id, [v]⟩ := get?_put_self rfl
    rw [singly_cons, modify_cons_of_ok (apply_add_missing h [v]), modify_singly_add more hfound,
      apply_add_found hfound]
    exact congrArg Except.ok (put_put rfl)

/-! ### Removing -/

theorem apply_remove_missing (h : s.get? id = none) (values : List String) :
    s.apply owner ⟨.remove, ⟨id, values⟩⟩ = .error (.noSuchAttribute owner id) := by
  simp only [apply, h, Modification.change]

theorem apply_remove_found (h : s.get? id = some a) (hvalues : values ≠ []) :
    s.apply owner ⟨.remove, ⟨id, values⟩⟩ =
      match removeValues a.values values with
      | some left => .ok (s.set id (a.withValues? left))
      | none => .error (.noSuchAttribute owner id) := by
  have hempty : values.isEmpty = false := by
    rwa [← Bool.not_eq_true, List.isEmpty_iff]
  simp only [apply, h, Modification.change, hempty]
  cases removeValues a.values values <;> rfl

/-- To remove several values is to remove the first and then the others. -/
theorem apply_remove_cons (s : Attributes) (hmore : more ≠ []) :
    s.apply owner ⟨.remove, ⟨id, v :: more⟩⟩ =
      (s.apply owner ⟨.remove, ⟨id, [v]⟩⟩).bind fun t =>
        t.apply owner ⟨.remove, ⟨id, more⟩⟩ := by
  cases h : s.get? id with
  | none =>
    rw [apply_remove_missing h, apply_remove_missing h]
    rfl
  | some a =>
    have ha : a.foldedId = Text.lower id := foldedId_of_get? h
    rw [apply_remove_found h (List.cons_ne_nil v more),
      apply_remove_found h (List.cons_ne_nil v []), removeValues, removeValues]
    by_cases hv : a.values.contains v = true
    · rw [if_pos hv, if_pos hv, removeValues]
      simp only [Except.bind]
      generalize a.values.filter (· != v) = left
      by_cases hleft : left = []
      · subst hleft
        have herased : (s.set id (a.withValues? [])).get? id = none := by
          show (s.erase id).get? id = none
          rw [get?_erase, if_pos rfl]
        rw [apply_remove_missing herased, removeValues_nil hmore]
      · let b : Attribute := { a with values := left }
        have hb : b.foldedId = Text.lower id := ha
        have hkept : a.withValues? left = some b := if_neg (mt List.isEmpty_iff.mp hleft)
        rw [hkept, set, apply_remove_found (get?_put_self hb) hmore]
        cases removeValues left more with
        | none => rfl
        | some rest =>
          have hrest : ∀ c, b.withValues? rest = some c → c.foldedId = Text.lower id :=
            fun c hc => (foldedId_withValues? hc).trans hb
          exact congrArg Except.ok (set_put hb hrest).symm
    · rw [if_neg hv, if_neg hv]
      rfl

/-- **Values can be removed one by one**, also if that fails. -/
theorem modify_singly_remove : ∀ (values : List String) (s : Attributes), values ≠ [] →
    s.modify owner (singly ⟨.remove, ⟨id, values⟩⟩) = s.apply owner ⟨.remove, ⟨id, values⟩⟩ := by
  intro values
  induction values with
  | nil =>
    intro s h
    exact absurd rfl h
  | cons v more ih =>
    intro s _
    rw [singly_cons, modify_cons]
    by_cases hmore : more = []
    · subst hmore
      cases s.apply owner ⟨.remove, ⟨id, [v]⟩⟩ <;> rfl
    · rw [apply_remove_cons s hmore]
      exact congrArg _ (funext fun t => ih t hmore)

/-! ### One item or several -/

theorem modify_one (owner : Name) (s : Attributes) (item : Modification) :
    s.modify owner [item] = s.apply owner item := by
  rw [modify_cons]
  cases s.apply owner item <;> rfl

/-- The attribute is there to be added to, or there are values to create it with and none of
them comes twice. -/
def AddsSingly (s : Attributes) (given : Attribute) : Prop :=
  s.contains given.id = true ∨ given.values ≠ [] ∧ given.values.Nodup

/-- What is added to a missing attribute stays, and so do repetitions. -/
theorem singly_add_same (owner : Name) (h : s.get? id = none) (values : List String) :
    ∃ singles, s.modify owner (singly ⟨.add, ⟨id, values⟩⟩) = .ok singles ∧
      (values ≠ [] ∧ values.Nodup → s.put ⟨id, values⟩ = singles) ∧
      ((s.put ⟨id, values⟩ == singles) = true → values ≠ [] ∧ values.Nodup) := by
  have hput : ∀ values, (s.put ⟨id, values⟩).values? id = some values := by
    intro values
    exact congrArg (Option.map Attribute.values) (get?_put_self rfl)
  by_cases hvalues : values = []
  · subst hvalues
    refine ⟨s, rfl, fun hne => absurd rfl hne.1, fun hequal => ?_⟩
    have hid := beq_iff_values?.mp hequal id
    rw [hput, Attributes.values?, h] at hid
    cases hid
  · refine ⟨_, modify_singly_add_missing h hvalues, fun hne => ?_, fun hequal => ⟨hvalues, ?_⟩⟩
    · rw [Modification.addValues_nil_eq_iff.mpr hne.2]
    · have hid := beq_iff_values?.mp hequal id
      rw [hput, hput, Option.some.injEq] at hid
      exact Modification.addValues_nil_eq_iff.mp hid.symm

/--
**One item or one for each value.**  An item that adds, and the items that add its values one
after the other, always apply.  They leave the very same set if the attribute is there, or if
the item has values and none of them comes twice; in all other cases they leave sets that are
not equal.  An item that removes values does the very same as the items that remove them one
after the other, also if it is refused, and an entry from which they cannot all be removed
keeps its attributes.
-/
theorem modify_singly (owner : Name) (s : Attributes) (id : String) (values : List String) :
    (∃ whole singles, s.modify owner [⟨.add, ⟨id, values⟩⟩] = .ok whole ∧
      s.modify owner (singly ⟨.add, ⟨id, values⟩⟩) = .ok singles ∧
      (s.AddsSingly ⟨id, values⟩ → whole = singles) ∧
      ((whole == singles) = true → s.AddsSingly ⟨id, values⟩)) ∧
    (values ≠ [] →
      s.modify owner [⟨.remove, ⟨id, values⟩⟩] =
        s.modify owner (singly ⟨.remove, ⟨id, values⟩⟩) ∧
      ∀ e, s.modify owner (singly ⟨.remove, ⟨id, values⟩⟩) = .error e →
        ∀ d : Directory, d.entries[owner]? = some s →
          d.perform (.modifyAttributes owner (singly ⟨.remove, ⟨id, values⟩⟩)) =
            (.error e, d)) := by
  constructor
  · rw [modify_one, AddsSingly, contains]
    cases h : s.get? id with
    | some a =>
      refine ⟨_, _, apply_add_found h values, ?_, fun _ => rfl, fun _ => Or.inl rfl⟩
      rw [modify_singly_add values h, apply_add_found h]
    | none =>
      obtain ⟨singles, hsingles, hsame, honly⟩ := singly_add_same owner h values
      refine ⟨_, singles, apply_add_missing h values, hsingles, fun hadds => ?_, fun hequal => ?_⟩
      · exact hsame (hadds.resolve_left Bool.false_ne_true)
      · exact Or.inr (honly hequal)
  · intro hvalues
    refine ⟨?_, fun e h d hd => perform_refused hd h⟩
    rw [modify_one, modify_singly_remove values s hvalues]

/-- A value that is given twice is there twice if it is added to a missing attribute, and once
if it is added as often as it was given. -/
theorem add_twice_ne :
    let twice : Modification := ⟨.add, ⟨"mail", ["a", "a"]⟩⟩
    ∃ whole singles, empty.modify .root [twice] = .ok whole ∧
      empty.modify .root (singly twice) = .ok singles ∧
      whole.values? "mail" = some ["a", "a"] ∧ singles.values? "mail" = some ["a"] ∧
      (whole == singles) = false := by
  exact ⟨_, _, rfl, rfl, by decide +kernel, by decide +kernel, by decide +kernel⟩

end Attributes

end DirectorySaga
