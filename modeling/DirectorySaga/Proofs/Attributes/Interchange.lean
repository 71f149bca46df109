/-
Equal attribute sets are interchangeable.

A rollback brings back the attributes of an entry, but not their order, and not the spelling of
their ids.  That this is good enough is a matter of two runs: whatever is done from then on is
done to another list of attributes than the one before, and must come to the same.  It does,
because everything is decided by the values that stand under each folded id.  So equal sets give
equal answers, item by item and hence for whole lists of items (`modify_same`), and what would be
recorded to undo a modification of the one would undo it of the other.
-/
import DirectorySaga.Proofs.Attributes.Independence
import DirectorySaga.Proofs.Saga.Lockstep
import DirectorySaga.Transaction.Step

namespace DirectorySaga.Attributes

open Modification (restoring)

variable {s t : Attributes}

/-! ### When sets are equal -/

/-- The folded ids of the attributes, in order. -/
abbrev foldedIds (s : Attributes) : List String := s.list.map Attribute.foldedId

/-- **Sets are equal when they have the same folded ids, and the same values under each.** -/
theorem beq_iff_foldedIds :
    (s == t) = true ↔ (∀ key, key ∈ s.foldedIds ↔ key ∈ t.foldedIds) ∧
      ∀ a ∈ s.list, ∀ b ∈ t.list, a.foldedId = b.foldedId → a.values = b.values := by
  rw [beq_iff_values?]
  constructor
  · intro h
    refine ⟨fun key => ⟨fun hkey => foldedIds_subset_of_values? h hkey,
      fun hkey => foldedIds_subset_of_values? (fun id => (h id).symm) hkey⟩,
      fun a ha b hb hid => ?_⟩
    have hvalues : some a.values = some b.values := by
      calc some a.values = s.values? a.id := by rw [values?, get?_of_mem ha, Option.map_some]
        _ = t.values? b.id := (h a.id).trans (values?_congr hid)
        _ = some b.values := by rw [values?, get?_of_mem hb, Option.map_some]
    exact Option.some.inj hvalues
  · rintro ⟨hids, hvalues⟩ id
    have hid : s.values? id ≠ none ↔ t.values? id ≠ none := by
      rw [← mem_foldedIds_iff, ← mem_foldedIds_iff]
      exact hids (Text.lower id)
    unfold values? at hid ⊢
    cases hs : s.get? id with
    | none =>
      rw [hs] at hid
      cases ht : t.get? id with
      | none => rfl
      | some b => simp [ht] at hid
    | some a =>
      rw [hs] at hid
      cases ht : t.get? id with
      | none => simp [ht] at hid
      | some b =>
        have hsame : a.foldedId = b.foldedId :=
          (foldedId_of_get? hs).trans (foldedId_of_get? ht).symm
        rw [Option.map_some, Option.map_some,
          hvalues a (mem_of_get? hs) b (mem_of_get? ht) hsame]

theorem size_eq_of_beq (h : (s == t) = true) : s.size = t.size := by
  have hboth : (s.size == t.size && s.list.all fun a => t.get? a.id == some a) = true := h
  rw [Bool.and_eq_true, beq_iff_eq] at hboth
  exact hboth.1

/-- Equal sets have equal attributes under every id. -/
theorem get?_beq (h : (s == t) = true) (id : String) : (s.get? id == t.get? id) = true := by
  have hvalues : (s.get? id).map Attribute.values = (t.get? id).map Attribute.values :=
    beq_iff_values?.mp h id
  cases hs : s.get? id with
  | none =>
    rw [hs, Option.map_none, eq_comm, Option.map_eq_none_iff] at hvalues
    rw [hvalues]
    rfl
  | some a =>
    rw [hs, Option.map_some, eq_comm, Option.map_eq_some_iff] at hvalues
    obtain ⟨b, hb, hsame⟩ := hvalues
    rw [hb]
    exact Attribute.beq_iff.mpr
      ⟨(foldedId_of_get? hs).trans (foldedId_of_get? hb).symm, hsame.symm⟩

theorem contains_eq_of_beq (h : (s == t) = true) (id : String) :
    s.contains id = t.contains id := by
  have hsome : (s.values? id).isSome = (t.values? id).isSome := by
    rw [beq_iff_values?.mp h id]
  unfold values? at hsome
  rwa [Option.isSome_map, Option.isSome_map] at hsome

/-! ### Modifications -/

/-- Both are refused for the same reason, or both succeed with equal sets. -/
abbrev SameUpToOrder : Except DirectoryError Attributes → Except DirectoryError Attributes → Prop :=
  SameAnswer fun s t => (s == t) = true

/-- An item does the same to equal sets. -/
theorem apply_same (h : (s == t) = true) (owner : Name) (item : Modification) :
    SameUpToOrder (s.apply owner item) (t.apply owner item) := by
  rw [beq_iff_values?] at h
  cases hchange : item.op.changeValues item.attr.values (s.values? item.attr.id) with
  | none =>
    rw [apply_eq_error hchange, apply_eq_error (h item.attr.id ▸ hchange)]
    exact .error _
  | some changed =>
    obtain ⟨s', hs', hafter⟩ := apply_eq_ok hchange
    obtain ⟨t', ht', hafter'⟩ := apply_eq_ok (h item.attr.id ▸ hchange)
    rw [hs', ht']
    refine .ok (beq_iff_values?.mpr fun id => ?_)
    rw [hafter, hafter', h]

/-- **Items do the same to equal sets.** -/
theorem modify_same (owner : Name) : ∀ (items : List Modification) {s t : Attributes},
    (s == t) = true → SameUpToOrder (s.modify owner items) (t.modify owner items) := by
  intro items
  induction items with
  | nil =>
    intro s t h
    exact .ok h
  | cons item more ih =>
    intro s t h
    have happly : SameUpToOrder (s.apply owner item) (t.apply owner item) :=
      apply_same h owner item
    rw [modify_cons, modify_cons]
    generalize s.apply owner item = answer, t.apply owner item = answer' at happly
    cases happly with
    | error e => exact .error e
    | ok hnext => exact ih hnext

/-! ### Recorded items -/

/-- What would bring an attribute of the one set back would bring it back in the other. -/
theorem restoring_beq (h : (s == t) = true) (item : Modification) :
    (restoring s item == restoring t item) = true := by
  have hfound : (s.get? item.attr.id == t.get? item.attr.id) = true := get?_beq h item.attr.id
  refine Modification.beq_iff.mpr ⟨rfl, ?_⟩
  rw [← Attribute.beq_iff]
  unfold restoring
  cases hs : s.get? item.attr.id with
  | none =>
    cases ht : t.get? item.attr.id with
    | none => exact Attribute.beq_iff.mpr ⟨rfl, rfl⟩
    | some b =>
      rw [hs, ht] at hfound
      cases hfound
  | some a =>
    cases ht : t.get? item.attr.id with
    | none =>
      rw [hs, ht] at hfound
      cases hfound
    | some b =>
      rw [hs, ht] at hfound
      exact hfound

theorem map_restoring_beq (h : (s == t) = true) (items : List Modification) :
    (items.map (restoring s) == items.map (restoring t)) = true := by
  induction items with
  | nil => rfl
  | cons item more ih =>
    rw [List.map_cons, List.map_cons, List.cons_beq_cons, restoring_beq h item, ih]
    rfl

/--
**Equal sets are interchangeable.**  Two sets are equal just when they have the same folded ids
and the same values under each, in whatever order and spelling.  If they are, the same is found
in both under every id; every list of items is refused by both for the same reason, or leaves
equal sets; and the items recorded to undo it are equal, one by one.
-/
theorem equal_interchangeable (s t : Attributes) :
    ((s == t) = true ↔ (∀ key, key ∈ s.foldedIds ↔ key ∈ t.foldedIds) ∧
      ∀ a ∈ s.list, ∀ b ∈ t.list, a.foldedId = b.foldedId → a.values = b.values) ∧
    ((s == t) = true →
      s.size = t.size ∧
      (∀ id, (s.get? id == t.get? id) = true ∧ s.contains id = t.contains id) ∧
      ∀ (owner : Name) (items : List Modification),
        SameUpToOrder (s.modify owner items) (t.modify owner items) ∧
          (s.compensatingItems items == t.compensatingItems items) = true) := by
  refine ⟨beq_iff_foldedIds, fun h => ⟨size_eq_of_beq h, fun id => ?_, fun owner items => ?_⟩⟩
  · exact ⟨get?_beq h id, contains_eq_of_beq h id⟩
  · exact ⟨modify_same owner items h, map_restoring_beq h _⟩

end DirectorySaga.Attributes
