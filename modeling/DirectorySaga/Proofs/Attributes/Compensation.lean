/-
Undoing a modification.

The items recorded with a modification replace each attribute it names by what that
attribute was before.  Replacing never fails, and what it leaves depends on the folded
id alone, so it does not matter how often or in what spelling the modification named an
attribute.

One thing is lost: an attribute without values cannot be brought back, because replacing
by no values removes.  Hence the relation `Restores`, which a rollback establishes
instead of equality; between sets whose attributes all have values it is equality.  It is
the only thing: a modification is undone exactly unless it names such an attribute
(`modify_compensatingItems_exact`).
-/
import DirectorySaga.Proofs.Attributes.Values
import DirectorySaga.Transaction.Step

namespace DirectorySaga.Attributes

open Modification (restoring firstOfEachId)

variable {now before after s t : Attributes} {items : List Modification} {owner : Name}
  {id : String}

/-! ### Equal but for attributes without values -/

/-- The set says what `before` says, except that attributes that have no values there may
be missing. -/
def Restores (now before : Attributes) : Prop :=
  ∀ id, now.values? id = before.values? id ∨ now.values? id = none ∧ before.values? id = some []

theorem Restores.refl (s : Attributes) : s.Restores s := fun _ => Or.inl rfl

/-- A restored set is equal to the one before if that one has no attribute without values. -/
theorem Restores.beq (h : now.Restores before) (hbefore : before.HasValues) :
    (now == before) = true := by
  rw [beq_iff_values?]
  intro id
  exact (h id).resolve_right fun ⟨_, hempty⟩ => ne_nil_of_values? hbefore hempty

/-! ### Replacing -/

/-- What a replacement can bring back of an attribute: its values, if there are any. -/
def restorable (before : Attributes) (id : String) : Option (List String) :=
  (before.values? id).filter (!·.isEmpty)

theorem foldedId_restoring (before : Attributes) (item : Modification) :
    (restoring before item).attr.foldedId = item.attr.foldedId := by
  unfold restoring
  cases h : before.get? item.attr.id with
  | none => rfl
  | some a => exact foldedId_of_get? h

private theorem values_restoring (before : Attributes) (item : Modification) :
    (restoring before item).attr.values = (before.values? item.attr.id).getD [] := by
  unfold restoring values?
  cases before.get? item.attr.id <;> rfl

/-- A replacement never fails, and changes what is said under its id only. -/
theorem apply_replace (owner : Name) (s : Attributes) (a : Attribute) :
    ∃ t, s.apply owner ⟨.replace, a⟩ = .ok t ∧ ∀ id,
      t.values? id =
        if a.foldedId = Text.lower id then (some a.values).filter (!·.isEmpty)
        else s.values? id := by
  refine ⟨s.set a.id (a.withValues? a.values), apply_eq_ok_iff.mpr ⟨_, rfl, rfl⟩, fun id => ?_⟩
  have hget : (s.set a.id (a.withValues? a.values)).get? id =
      if a.foldedId = Text.lower id then a.withValues? a.values else s.get? id :=
    get?_set (fun _ hb => foldedId_withValues? hb) id
  rw [values?, hget]
  by_cases hid : a.foldedId = Text.lower id
  · rw [if_pos hid, if_pos hid]
    unfold Attribute.withValues?
    cases a.values <;> rfl
  · rw [if_neg hid, if_neg hid, values?]

/-- Bringing one attribute back never fails and concerns that attribute only. -/
theorem apply_restoring (owner : Name) (before s : Attributes) (item : Modification) :
    ∃ t, s.apply owner (restoring before item) = .ok t ∧ ∀ id,
      t.values? id =
        if item.attr.foldedId = Text.lower id then before.restorable id else s.values? id := by
  obtain ⟨t, happly, hvalues⟩ := apply_replace owner s (restoring before item).attr
  refine ⟨t, happly, fun id => ?_⟩
  rw [hvalues, foldedId_restoring, values_restoring]
  by_cases hid : item.attr.foldedId = Text.lower id
  · rw [if_pos hid, if_pos hid, restorable, values?_congr hid]
    cases before.values? id <;> rfl
  · rw [if_neg hid, if_neg hid]

/-- Bringing attributes back one after the other brings all of them back. -/
theorem modify_restoring (owner : Name) (before : Attributes) :
    ∀ (items : List Modification) (s : Attributes),
      ∃ t, s.modify owner (items.map (restoring before)) = .ok t ∧
        (∀ id, Named id items → t.values? id = before.restorable id) ∧
        ∀ id, ¬ Named id items → t.values? id = s.values? id := by
  intro items
  induction items with
  | nil =>
    intro s
    exact ⟨s, rfl, fun id ⟨_, hmem, _⟩ => absurd hmem List.not_mem_nil, fun _ _ => rfl⟩
  | cons item items ih =>
    intro s
    obtain ⟨u, happly, hu⟩ := apply_restoring owner before s item
    obtain ⟨t, hmodify, hnamed, hother⟩ := ih u
    refine ⟨t, modify_cons_eq_ok_iff.mpr ⟨u, happly, hmodify⟩, ?_, ?_⟩
    · rintro id ⟨other, hmem, hid⟩
      by_cases hlater : Named id items
      · exact hnamed id hlater
      · rcases List.mem_cons.mp hmem with rfl | hmem
        · rw [hother id hlater, hu, if_pos hid]
        · exact absurd ⟨other, hmem, hid⟩ hlater
    · intro id hnot
      have hitem : item.attr.foldedId ≠ Text.lower id :=
        fun hid => hnot ⟨item, List.mem_cons_self, hid⟩
      have hitems : ¬ Named id items :=
        fun ⟨other, hmem, hid⟩ => hnot ⟨other, List.mem_cons_of_mem _ hmem, hid⟩
      rw [hother id hitems, hu, if_neg hitem]

/-! ### The recorded items -/

private theorem named_firstOfEachId : ∀ (items : List Modification) (seen : List String),
    Named id (firstOfEachId seen items) ↔ Text.lower id ∉ seen ∧ Named id items := by
  intro items
  induction items with
  | nil =>
    intro seen
    constructor
    · rintro ⟨_, hmem, _⟩
      cases hmem
    · rintro ⟨-, _, hmem, _⟩
      cases hmem
  | cons item items ih =>
    intro seen
    have hcons : ∀ rest : List Modification,
        Named id (item :: rest) ↔ item.attr.foldedId = Text.lower id ∨ Named id rest := by
      intro rest
      simp only [Named, List.mem_cons, exists_eq_or_imp]
    rw [firstOfEachId, hcons]
    by_cases hseen : item.attr.foldedId ∈ seen
    · rw [if_pos (List.contains_iff_mem.mpr hseen), ih]
      refine and_congr_right fun hnot => ?_
      have hne : item.attr.foldedId ≠ Text.lower id := fun hid => hnot (hid ▸ hseen)
      simp [hne]
    · rw [if_neg (mt List.contains_iff_mem.mp hseen), hcons, ih, List.mem_cons]
      by_cases hid : item.attr.foldedId = Text.lower id
      · simp [hid, hid ▸ hseen]
      · simp [hid, Ne.symm hid]

/-- **What the recorded items do**, applied to any set: they never fail, they bring back
every attribute that the modification named, and they leave the others alone. -/
theorem modify_compensatingItems (owner : Name) (before : Attributes) (items : List Modification)
    (s : Attributes) :
    ∃ t, s.modify owner (before.compensatingItems items) = .ok t ∧
      (∀ id, Named id items → t.values? id = before.restorable id) ∧
      ∀ id, ¬ Named id items → t.values? id = s.values? id := by
  have hnamed : ∀ id, Named id (firstOfEachId [] items) ↔ Named id items := by
    intro id
    rw [named_firstOfEachId]
    simp
  obtain ⟨t, hmodify, hback, hother⟩ := modify_restoring owner before (firstOfEachId [] items) s
  exact ⟨t, hmodify, fun id h => hback id ((hnamed id).mpr h),
    fun id h => hother id (mt (hnamed id).mp h)⟩

theorem restorable_eq (before : Attributes) (id : String) :
    before.restorable id = before.values? id ∨
      before.restorable id = none ∧ before.values? id = some [] := by
  unfold restorable
  cases before.values? id with
  | none => exact Or.inl rfl
  | some values =>
    cases values with
    | nil => exact Or.inr ⟨rfl, rfl⟩
    | cons v rest => exact Or.inl rfl

/-- **The recorded items undo the modification**, also when attributes without values have
been lost in between. -/
theorem compensatingItems_restores (h : before.modify owner items = .ok after)
    (hnow : now.Restores after) :
    ∃ back, now.modify owner (before.compensatingItems items) = .ok back ∧
      back.Restores before := by
  obtain ⟨back, hmodify, hnamed, hother⟩ := modify_compensatingItems owner before items now
  refine ⟨back, hmodify, fun id => ?_⟩
  by_cases hid : Named id items
  · rw [hnamed id hid]
    exact restorable_eq before id
  · have hkept : after.values? id = before.values? id := by
      rw [values?, get?_modify_of_not_named h hid, values?]
    rw [hother id hid, ← hkept]
    exact hnow id

/-! ### Exactness -/

theorem named_compensatingItems :
    Named id (before.compensatingItems items) ↔ Named id items := by
  have hrestoring : ∀ rest : List Modification,
      Named id (rest.map (restoring before)) ↔ Named id rest := by
    intro rest
    constructor
    · rintro ⟨_, hmem, hid⟩
      obtain ⟨item, hitem, rfl⟩ := List.mem_map.mp hmem
      exact ⟨item, hitem, (foldedId_restoring before item).symm.trans hid⟩
    · rintro ⟨item, hmem, hid⟩
      exact ⟨_, List.mem_map_of_mem hmem, (foldedId_restoring before item).trans hid⟩
  rw [compensatingItems, hrestoring, named_firstOfEachId]
  simp

/-- All that a replacement cannot bring back is an attribute without values. -/
theorem restorable_eq_iff :
    before.restorable id = before.values? id ↔ before.values? id ≠ some [] := by
  unfold restorable
  cases before.values? id with
  | none => simp
  | some values =>
    cases values with
    | nil => simp
    | cons v rest => simp

/-- The attributes that the items name have values: said of the ids, and of the set. -/
private theorem values?_ne_nil_iff :
    (∀ id, Named id items → before.values? id ≠ some []) ↔
      ∀ a ∈ before.list, Named a.id items → a.values ≠ [] := by
  constructor
  · intro h a ha hnamed hempty
    refine h a.id hnamed ?_
    rw [values?, get?_of_mem ha, Option.map_some, hempty]
  · intro h id hnamed hempty
    obtain ⟨a, ha, hvalues⟩ := Option.map_eq_some_iff.mp hempty
    have hid : a.foldedId = Text.lower id := foldedId_of_get? ha
    obtain ⟨item, hmem, hitem⟩ := hnamed
    exact h a (mem_of_get? ha) ⟨item, hmem, hitem.trans hid.symm⟩ hvalues

/--
**How exactly a modification is undone.**  Let the items turn `before` into `after`.  The items
recorded with them then apply to `after`; an attribute that no item named is the very same
as before; and the whole set is equal to the one before just when every attribute that was
named had values then.
-/
theorem modify_compensatingItems_exact (owner' : Name)
    (h : before.modify owner items = .ok after) :
    ∃ back, after.modify owner' (before.compensatingItems items) = .ok back ∧
      (∀ id, ¬ Named id items → back.get? id = before.get? id) ∧
      ((back == before) = true ↔ ∀ a ∈ before.list, Named a.id items → a.values ≠ []) := by
  obtain ⟨back, hback, hnamed, -⟩ := modify_compensatingItems owner' before items after
  have hother : ∀ id, ¬ Named id items → back.get? id = before.get? id := by
    intro id hid
    rw [get?_modify_of_not_named hback (mt named_compensatingItems.mp hid),
      get?_modify_of_not_named h hid]
  refine ⟨back, hback, hother, ?_⟩
  rw [beq_iff_values?, ← values?_ne_nil_iff]
  refine forall_congr' fun id => ?_
  by_cases hid : Named id items
  · rw [hnamed id hid, restorable_eq_iff]
    simp [hid]
  · rw [values?, values?, hother id hid]
    simp [hid]

/-- The mail addresses are taken away and replaced by another under other spellings of the id;
the seal, which has no values, is not named. -/
theorem modify_compensatingItems_exact_mail :
    let before := ofList [⟨"cn", ["ann"]⟩, ⟨"Mail", ["a@x", "b@x"]⟩, .named "seal"]
    let items : List Modification :=
      [⟨.remove, ⟨"MAIL", ["a@x"]⟩⟩, ⟨.remove, .named "mail"⟩, ⟨.add, ⟨"mail", ["c@x"]⟩⟩,
        ⟨.add, ⟨"phone", ["1"]⟩⟩]
    ∃ after, before.modify .root items = .ok after ∧
      ∃ back, after.modify .root (before.compensatingItems items) = .ok back ∧
        (∀ id, ¬ Named id items → back.get? id = before.get? id) ∧
        ((back == before) = true ↔ ∀ a ∈ before.list, Named a.id items → a.values ≠ []) := by
  intro before items
  have happlies : (before.modify .root items).isOk = true := by decide +kernel
  cases h : before.modify .root items with
  | error e => simp [h, Except.isOk, Except.toBool] at happlies
  | ok after => exact ⟨after, rfl, modify_compensatingItems_exact .root h⟩

end DirectorySaga.Attributes
