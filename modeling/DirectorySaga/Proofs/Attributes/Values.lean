/-
What an attribute set says.

The list behind an attribute set has an order and spellings of ids, and neither counts.
What counts is which values stand under which id: `values?`.  Two sets are equal just
when they say the same under every id, and what an item does to a set can be told from
the one attribute it names.
-/
import DirectorySaga.Attributes.Modification

namespace DirectorySaga.Attributes

variable {s t : Attributes} {id other : String} {a : Attribute}

/-- The values of the attribute of this id, if there is one. -/
def values? (s : Attributes) (id : String) : Option (List String) :=
  (s.get? id).map Attribute.values

/-- Every attribute has a value. -/
def HasValues (s : Attributes) : Prop := ∀ a ∈ s.list, a.values ≠ []

/-! ### Looking up -/

theorem get?_congr (h : Text.lower id = Text.lower other) : s.get? id = s.get? other := by
  unfold get?
  rw [h]

theorem values?_congr (h : Text.lower id = Text.lower other) : s.values? id = s.values? other := by
  unfold values?
  rw [get?_congr h]

theorem mem_of_get? (h : s.get? id = some a) : a ∈ s.list := List.mem_of_find?_eq_some h

theorem foldedId_of_get? (h : s.get? id = some a) : a.foldedId = Text.lower id := by
  have hfound := List.find?_some h
  exact beq_iff_eq.mp hfound

private theorem find?_of_mem : ∀ {list : List Attribute}, (list.map Attribute.foldedId).Nodup →
    a ∈ list → list.find? (·.foldedId == a.foldedId) = some a := by
  intro list
  induction list with
  | nil =>
    intro _ h
    cases h
  | cons b rest ih =>
    intro hnodup hmem
    rw [List.map_cons, List.nodup_cons] at hnodup
    rcases List.mem_cons.mp hmem with rfl | hmem
    · simp
    · have hne : b.foldedId ≠ a.foldedId := fun h => hnodup.1 (h ▸ List.mem_map_of_mem hmem)
      rw [List.find?_cons_of_neg (by simpa using hne)]
      exact ih hnodup.2 hmem

/-- An attribute of the set is found under its own id. -/
theorem get?_of_mem (h : a ∈ s.list) : s.get? a.id = some a := find?_of_mem s.distinct h

/-- What is found under an id is the attribute whose folded id is the id in small letters. -/
theorem get?_eq_some_iff : s.get? id = some a ↔ a ∈ s.list ∧ a.foldedId = Text.lower id := by
  constructor
  · intro h
    exact ⟨mem_of_get? h, foldedId_of_get? h⟩
  · rintro ⟨hmem, hid⟩
    rw [← get?_of_mem hmem]
    exact get?_congr hid.symm

theorem mem_foldedIds_iff :
    Text.lower id ∈ s.list.map Attribute.foldedId ↔ s.values? id ≠ none := by
  rw [values?, Ne, Option.map_eq_none_iff, ← Ne, Option.ne_none_iff_exists', List.mem_map]
  exact exists_congr fun a => get?_eq_some_iff.symm

theorem ne_nil_of_values? (hs : s.HasValues) : s.values? id ≠ some [] := by
  intro h
  obtain ⟨a, ha, hvalues⟩ := Option.map_eq_some_iff.mp h
  exact hs a (mem_of_get? ha) hvalues

/-! ### Equality -/

theorem foldedIds_subset_of_values? (h : ∀ id, s.values? id = t.values? id) :
    s.list.map Attribute.foldedId ⊆ t.list.map Attribute.foldedId := by
  intro key hkey
  obtain ⟨a, -, rfl⟩ := List.mem_map.mp hkey
  exact mem_foldedIds_iff.mpr (h a.id ▸ mem_foldedIds_iff.mp hkey)

private theorem foldedIds_perm (h : ∀ id, s.values? id = t.values? id) :
    (s.list.map Attribute.foldedId).Perm (t.list.map Attribute.foldedId) := by
  rw [List.perm_ext_iff_of_nodup s.distinct t.distinct]
  intro key
  exact ⟨fun hkey => foldedIds_subset_of_values? h hkey,
    fun hkey => foldedIds_subset_of_values? (fun id => (h id).symm) hkey⟩

/-- When every id of `s` is one of `t` and there are as many, there are no others. -/
private theorem foldedIds_subset (hsize : s.size = t.size)
    (h : s.list.map Attribute.foldedId ⊆ t.list.map Attribute.foldedId) :
    t.list.map Attribute.foldedId ⊆ s.list.map Attribute.foldedId := by
  intro key hkey
  by_cases hs : key ∈ s.list.map Attribute.foldedId
  · exact hs
  have hsub : key :: s.list.map Attribute.foldedId ⊆ t.list.map Attribute.foldedId :=
    List.cons_subset.mpr ⟨hkey, h⟩
  have hle := (List.nodup_cons.mpr ⟨hs, s.distinct⟩).length_le_of_subset hsub
  simp only [List.length_cons, List.length_map] at hle
  unfold size at hsize
  omega

private theorem beq_def : (s == t) = true ↔
    s.size = t.size ∧ ∀ a ∈ s.list, ∃ b, t.get? a.id = some b ∧ b.values = a.values := by
  change (s.size == t.size && s.list.all fun a => t.get? a.id == some a) = true ↔ _
  rw [Bool.and_eq_true, beq_iff_eq, List.all_eq_true]
  refine and_congr_right' (forall_congr' fun a => forall_congr' fun _ => ?_)
  cases hb : t.get? a.id with
  | none => simp
  | some b =>
    have hfold : b.foldedId = a.foldedId := foldedId_of_get? hb
    change (b == a) = true ↔ _
    rw [Attribute.beq_iff]
    simp [hfold]

/-- **Sets are equal when they say the same under every id.** -/
theorem beq_iff_values? : (s == t) = true ↔ ∀ id, s.values? id = t.values? id := by
  rw [beq_def]
  constructor
  · rintro ⟨hsize, hall⟩ id
    have hsub : s.list.map Attribute.foldedId ⊆ t.list.map Attribute.foldedId := by
      intro key hkey
      obtain ⟨a, ha, rfl⟩ := List.mem_map.mp hkey
      obtain ⟨b, hb, -⟩ := hall a ha
      exact List.mem_map.mpr ⟨b, mem_of_get? hb, foldedId_of_get? hb⟩
    cases hs : s.get? id with
    | some a =>
      obtain ⟨b, hb, hvalues⟩ := hall a (mem_of_get? hs)
      rw [get?_congr (foldedId_of_get? hs)] at hb
      rw [values?, values?, hs, hb, Option.map_some, Option.map_some, hvalues]
    | none =>
      have hnone : s.values? id = none := by rw [values?, hs, Option.map_none]
      rw [hnone]
      by_cases ht : t.values? id = none
      · exact ht.symm
      · have hkey := foldedIds_subset hsize hsub (mem_foldedIds_iff.mpr ht)
        exact absurd hnone (mem_foldedIds_iff.mp hkey)
  · intro h
    refine ⟨?_, fun a ha => ?_⟩
    · have hlength := (foldedIds_perm h).length_eq
      rwa [List.length_map, List.length_map] at hlength
    · have hvalues := h a.id
      rw [values?, get?_of_mem ha, Option.map_some] at hvalues
      exact Option.map_eq_some_iff.mp hvalues.symm

/-! ### One item -/

theorem foldedId_withValues? {values : List String} {b : Attribute}
    (h : a.withValues? values = some b) : b.foldedId = a.foldedId := by
  unfold Attribute.withValues? at h
  split at h
  · cases h
  · cases h
    rfl

/-- An item that finds an attribute of its id leaves one of its id. -/
theorem foldedId_change {item : Modification} {before : Option Attribute}
    (hbefore : ∀ b, before = some b → b.foldedId = item.attr.foldedId)
    (h : item.change before = some (some a)) : a.foldedId = item.attr.foldedId := by
  obtain ⟨op, given⟩ := item
  cases op with
  | replace => exact foldedId_withValues? (Option.some.inj h)
  | add =>
    cases before with
    | none =>
      cases h
      rfl
    | some b =>
      cases h
      exact hbefore b rfl
  | remove =>
    cases before with
    | none => cases h
    | some b =>
      simp only [Modification.change] at h
      split at h
      · cases h
      · obtain ⟨values, -, hvalues⟩ := Option.map_eq_some_iff.mp h
        exact (foldedId_withValues? hvalues).trans (hbefore b rfl)

theorem get?_set {changed : Option Attribute}
    (h : ∀ a, changed = some a → a.foldedId = Text.lower id)
    (other : String) :
    (s.set id changed).get? other =
      if Text.lower id = Text.lower other then changed else s.get? other := by
  cases changed with
  | none => exact get?_erase s id other
  | some a => rw [set, get?_put, h a rfl]

theorem apply_eq_ok_iff {owner : Name} {item : Modification} :
    s.apply owner item = .ok t ↔
      ∃ changed, item.change (s.get? item.attr.id) = some changed ∧
        s.set item.attr.id changed = t := by
  unfold apply
  dsimp only
  split
  · next changed h => simp [h]
  · next h => simp [h]

/-- **An item changes what is found under its id only.** -/
theorem get?_apply {owner : Name} {item : Modification} (h : s.apply owner item = .ok t) :
    ∃ changed, item.change (s.get? item.attr.id) = some changed ∧
      ∀ id, t.get? id = if item.attr.foldedId = Text.lower id then changed else s.get? id := by
  obtain ⟨changed, hchanged, rfl⟩ := apply_eq_ok_iff.mp h
  refine ⟨changed, hchanged, get?_set fun a ha => ?_⟩
  exact foldedId_change (fun b hb => foldedId_of_get? hb) (ha ▸ hchanged)

/-! ### Lists of items -/

theorem modify_cons_eq_ok_iff {owner : Name} {item : Modification} {items : List Modification} :
    s.modify owner (item :: items) = .ok t ↔
      ∃ u, s.apply owner item = .ok u ∧ u.modify owner items = .ok t := by
  unfold modify
  rw [List.foldlM_cons]
  cases s.apply owner item <;> simp [Bind.bind, Except.bind]

/-- Some item names the id, in whatever spelling. -/
def Named (id : String) (items : List Modification) : Prop :=
  ∃ item ∈ items, item.attr.foldedId = Text.lower id

/-- Attributes that no item names stay as they are. -/
theorem get?_modify_of_not_named {owner : Name} :
    ∀ {items : List Modification} {s : Attributes}, s.modify owner items = .ok t →
      ¬ Named id items → t.get? id = s.get? id := by
  intro items
  induction items with
  | nil =>
    intro s h _
    cases h
    rfl
  | cons item items ih =>
    intro s h hnot
    obtain ⟨u, hu, ht⟩ := modify_cons_eq_ok_iff.mp h
    obtain ⟨changed, -, hget⟩ := get?_apply hu
    rw [ih ht fun ⟨other, hmem, hid⟩ => hnot ⟨other, List.mem_cons_of_mem _ hmem, hid⟩, hget,
      if_neg fun hid => hnot ⟨item, List.mem_cons_self, hid⟩]

end DirectorySaga.Attributes
