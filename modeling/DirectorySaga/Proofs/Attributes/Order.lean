/-
An attribute set is a map that keeps the order of arrival.

Whatever is done to a set is done in one place.  Putting an attribute, taking one away and
applying an item all leave the list as it was in front of the attribute of one id and behind it,
and have their say only about what stands between (`InPlace`).  If nothing stood there, what comes
is put at the end.  So attributes never pass each other: a call, and a whole run of calls, keeps
the attributes that it does not name in their order (`filter_run`).

That no two attributes have one folded id is kept with the list.  Therefore the place is found by
looking for the id, and what is found is all that there is under it.
-/
import Mathlib.Data.List.Nodup
import DirectorySaga.Proofs.Attributes.Independence

namespace DirectorySaga.Attributes

variable {s t : Attributes} {a b : Attribute} {id : String} {after : Option Attribute}
  {owner : Name} {item : Modification}

/-! ### One place -/

/-- `t` is `s` with `after` in the place of what is found under the id, or else at the end. -/
def InPlace (s : Attributes) (id : String) (after : Option Attribute) (t : Attributes) : Prop :=
  ∃ front back, s.list = front ++ (s.get? id).toList ++ back ∧
    t.list = front ++ after.toList ++ back ∧ (s.get? id = none → back = [])

theorem contains_eq_true_iff :
    s.contains id = true ↔ ∃ a ∈ s.list, a.foldedId = Text.lower id := by
  rw [contains, Option.isSome_iff_exists]
  exact exists_congr fun a => get?_eq_some_iff

theorem foldedId_ne_of_get? (h : s.get? id = none) : ∀ b ∈ s.list, b.foldedId ≠ Text.lower id := by
  intro b hb hid
  rw [get?_eq_some_iff.mpr ⟨hb, hid⟩] at h
  cases h

/-- Around the attribute of an id there are only others. -/
theorem exists_around (h : s.get? id = some b) :
    ∃ front back, s.list = front ++ b :: back ∧
      ∀ c ∈ front ++ back, c.foldedId ≠ Text.lower id := by
  obtain ⟨front, back, hlist⟩ := List.append_of_mem (mem_of_get? h)
  refine ⟨front, back, hlist, fun c hc hid => ?_⟩
  have hnodup := s.distinct
  rw [hlist, List.map_append, List.map_cons, List.nodup_middle, List.nodup_cons,
    ← List.map_append] at hnodup
  have hsame : c.foldedId = b.foldedId := hid.trans (foldedId_of_get? h).symm
  exact hnodup.1 (hsame ▸ List.mem_map_of_mem hc)

theorem putIn_append {front : List Attribute} (hfront : ∀ c ∈ front, c.foldedId ≠ a.foldedId)
    (list : List Attribute) : putIn a (front ++ list) = front ++ putIn a list := by
  induction front with
  | nil => rfl
  | cons c front ih =>
    obtain ⟨hc, hmore⟩ := List.forall_mem_cons.mp hfront
    rw [List.cons_append, putIn, if_neg hc, ih hmore, List.cons_append]

theorem inPlace_put (ha : a.foldedId = Text.lower id) : s.InPlace id (some a) (s.put a) := by
  cases h : s.get? id with
  | none =>
    have hother : ∀ b ∈ s.list, b.foldedId ≠ a.foldedId := ha ▸ foldedId_ne_of_get? h
    have hput : putIn a (s.list ++ []) = s.list ++ [a] := putIn_append hother []
    rw [List.append_nil] at hput
    exact ⟨s.list, [], by simp [h], by simp [put, hput], fun _ => rfl⟩
  | some b =>
    obtain ⟨front, back, hlist, hother⟩ := exists_around h
    have hfront : ∀ c ∈ front, c.foldedId ≠ a.foldedId := by
      intro c hc
      rw [ha]
      exact hother c (List.mem_append_left back hc)
    have hput : putIn a s.list = front ++ a :: back := by
      rw [hlist, putIn_append hfront, putIn, if_pos ((foldedId_of_get? h).trans ha.symm)]
    exact ⟨front, back, by simp [h, hlist], by simp [put, hput], by simp [h]⟩

theorem inPlace_erase (s : Attributes) (id : String) : s.InPlace id none (s.erase id) := by
  have hkept : ∀ {list : List Attribute}, (∀ c ∈ list, c.foldedId ≠ Text.lower id) →
      list.filter (·.foldedId != Text.lower id) = list :=
    fun hother => List.filter_eq_self.mpr fun c hc => bne_iff_ne.mpr (hother c hc)
  cases h : s.get? id with
  | none =>
    exact ⟨s.list, [], by simp [h], by simp [erase, hkept (foldedId_ne_of_get? h)], fun _ => rfl⟩
  | some b =>
    obtain ⟨front, back, hlist, hother⟩ := exists_around h
    have hfront := hkept fun c hc => hother c (List.mem_append_left back hc)
    have hback := hkept fun c hc => hother c (List.mem_append_right front hc)
    have herase : (s.erase id).list = front ++ back := by
      simp [erase, hlist, hfront, hback, foldedId_of_get? h]
    exact ⟨front, back, by simp [h, hlist], by simp [herase], by simp [h]⟩

/-- **An item changes a set in the place of its attribute.** -/
theorem inPlace_apply (h : s.apply owner item = .ok t) :
    s.InPlace item.attr.id (t.get? item.attr.id) t := by
  obtain ⟨changed, hchanged, hfound⟩ := get?_apply h
  obtain ⟨_, hchanged', rfl⟩ := apply_eq_ok_iff.mp h
  cases hchanged.symm.trans hchanged'
  have hself : (s.set item.attr.id changed).get? item.attr.id = changed :=
    (hfound item.attr.id).trans (if_pos rfl)
  rw [hself]
  cases changed with
  | none => exact inPlace_erase s item.attr.id
  | some a => exact inPlace_put (foldedId_change (fun b hb => foldedId_of_get? hb) hchanged)

/-- What stands elsewhere is kept, and in its order. -/
theorem InPlace.filter_eq (h : s.InPlace id after t)
    (hafter : ∀ a ∈ after, a.foldedId = Text.lower id) {keep : String → Bool}
    (hid : keep (Text.lower id) = false) :
    t.list.filter (keep ·.foldedId) = s.list.filter (keep ·.foldedId) := by
  obtain ⟨front, back, hs, ht, -⟩ := h
  have hgone : ∀ {place : Option Attribute}, (∀ a ∈ place, a.foldedId = Text.lower id) →
      place.toList.filter (keep ·.foldedId) = [] := by
    intro place hplace
    refine List.filter_eq_nil_iff.mpr fun a ha => ?_
    rw [hplace a (Option.mem_toList.mp ha), hid]
    exact Bool.false_ne_true
  rw [hs, ht]
  simp only [List.filter_append, hgone hafter, hgone fun a ha => foldedId_of_get? ha]

/-! ### Calls -/

/-- A call that changes a set. -/
inductive Edit
  | put (a : Attribute)
  /-- Puts an attribute of this id and these values, and does not answer. -/
  | having (id : String) (values : List String)
  | remove (id : String)
  | modify (owner : Name) (items : List Modification)

namespace Edit

/-- The set after the call.  A modification that is refused leaves it as it is. -/
def run (s : Attributes) : Edit → Attributes
  | put a => (s.exchange a).2
  | having id values => (s.exchange ⟨id, values⟩).2
  | remove id => (s.extract id).2
  | modify owner items =>
    match s.modify owner items with
    | .ok t => t
    | .error _ => s

/-- The set after the calls, which begin with the empty set. -/
def reached (edits : List Edit) : Attributes := edits.foldl run empty

/-- The folded ids that the call names. -/
def ids : Edit → List String
  | put a => [a.foldedId]
  | having id _ | remove id => [Text.lower id]
  | modify _ items => items.map (·.attr.foldedId)

/-- The attributes whose folded ids none of the calls names, in order. -/
def unnamed (edits : List Edit) (s : Attributes) : List Attribute :=
  s.list.filter fun a => !edits.any (·.ids.contains a.foldedId)

end Edit

theorem filter_modify {keep : String → Bool} : ∀ {items : List Modification} {s : Attributes},
    s.modify owner items = .ok t → (∀ item ∈ items, keep item.attr.foldedId = false) →
      t.list.filter (keep ·.foldedId) = s.list.filter (keep ·.foldedId) := by
  intro items
  induction items with
  | nil =>
    intro s h _
    cases h
    rfl
  | cons item more ih =>
    intro s h hkeep
    obtain ⟨u, hu, ht⟩ := modify_cons_eq_ok_iff.mp h
    obtain ⟨hitem, hmore⟩ := List.forall_mem_cons.mp hkeep
    rw [ih ht hmore]
    exact (inPlace_apply hu).filter_eq (fun a ha => foldedId_of_get? ha) hitem

/-- **A call keeps the attributes that it does not name**, in their order. -/
theorem filter_run {keep : String → Bool} {edit : Edit} (hkeep : ∀ key ∈ edit.ids, keep key = false)
    (s : Attributes) :
    (edit.run s).list.filter (keep ·.foldedId) = s.list.filter (keep ·.foldedId) := by
  have hput : ∀ a : Attribute, keep a.foldedId = false →
      (s.exchange a).2.list.filter (keep ·.foldedId) = s.list.filter (keep ·.foldedId) := by
    intro a ha
    rw [exchange_eq]
    refine (inPlace_put (rfl : a.foldedId = Text.lower a.id)).filter_eq ?_ ha
    simp [Attribute.foldedId]
  cases edit with
  | put a => exact hput a (hkeep _ List.mem_cons_self)
  | having id values => exact hput ⟨id, values⟩ (hkeep _ List.mem_cons_self)
  | remove id =>
    rw [Edit.run, extract_eq]
    exact (inPlace_erase s id).filter_eq (by simp) (hkeep _ List.mem_cons_self)
  | modify owner items =>
    cases h : s.modify owner items with
    | error e => simp only [Edit.run, h]
    | ok t =>
      simp only [Edit.run, h]
      exact filter_modify h fun item hitem => hkeep _ (List.mem_map_of_mem hitem)

/-- A run of calls keeps the attributes that none of them names, in their order. -/
theorem unnamed_foldl_run (edits : List Edit) (s : Attributes) :
    Edit.unnamed edits (edits.foldl Edit.run s) = Edit.unnamed edits s := by
  have hkept : ∀ (keep : String → Bool) (edits : List Edit) (s : Attributes),
      (∀ edit ∈ edits, ∀ key ∈ edit.ids, keep key = false) →
      (edits.foldl Edit.run s).list.filter (keep ·.foldedId) = s.list.filter (keep ·.foldedId) := by
    intro keep edits
    induction edits with
    | nil =>
      intro s _
      rfl
    | cons edit more ih =>
      intro s hkeep
      obtain ⟨hedit, hmore⟩ := List.forall_mem_cons.mp hkeep
      rw [List.foldl_cons, ih _ hmore, filter_run hedit]
  refine hkept (fun key => !edits.any (·.ids.contains key)) edits s ?_
  intro edit hedit key hkey
  simp only [Bool.not_eq_false', List.any_eq_true]
  exact ⟨edit, hedit, List.contains_iff_mem.mpr hkey⟩

/-- What a list of items does to a set, seen at one of its items. -/
theorem exists_at_item {before after : List Modification}
    (h : s.modify owner (before ++ item :: after) = .ok t) :
    ∃ u v, s.modify owner before = .ok u ∧ u.apply owner item = .ok v ∧
      v.modify owner after = .ok t := by
  induction before generalizing s with
  | nil =>
    obtain ⟨v, hv, ht⟩ := modify_cons_eq_ok_iff.mp h
    exact ⟨s, v, rfl, hv, ht⟩
  | cons first before ih =>
    obtain ⟨r, hr, hmore⟩ := modify_cons_eq_ok_iff.mp h
    obtain ⟨u, v, hu, hv, ht⟩ := ih hmore
    exact ⟨u, v, modify_cons_eq_ok_iff.mpr ⟨r, hr, hu⟩, hv, ht⟩

/--
**An attribute set is a map by folded id that keeps the order of arrival**, after any run of calls.
Its attributes have different folded ids, and its size is their number.  An id finds the attribute
whose folded id is the id in small letters, if there is one.  Putting an attribute answers with
what the id found, and leaves the attribute as it was spelled in the place of that, or else at the
end; taking an attribute away leaves the others where they were; and so does each item of a
modification at its turn, whatever it leaves of its own attribute.  Further calls keep the
attributes that they do not name, in their order.
-/
theorem reached_ordered_map (edits : List Edit) :
    let s := Edit.reached edits
    ((s.list.map Attribute.foldedId).Nodup ∧ s.size = s.list.length) ∧
    (∀ id a, s.get? id = some a ↔ a ∈ s.list ∧ a.foldedId = Text.lower id) ∧
    (∀ id, s.contains id = true ↔ ∃ a ∈ s.list, a.foldedId = Text.lower id) ∧
    (∀ a, (s.exchange a).1 = s.get? a.id ∧ s.InPlace a.id (some a) (s.exchange a).2) ∧
    (∀ id, (s.extract id).1 = s.get? id ∧ s.InPlace id none (s.extract id).2) ∧
    (∀ owner before item after t, s.modify owner (before ++ item :: after) = .ok t →
      ∃ u v, s.modify owner before = .ok u ∧ u.apply owner item = .ok v ∧
        u.InPlace item.attr.id (v.get? item.attr.id) v ∧ v.modify owner after = .ok t) ∧
    ∀ more, Edit.unnamed more (Edit.reached (edits ++ more)) = Edit.unnamed more s := by
  intro s
  refine ⟨⟨s.distinct, rfl⟩, fun id a => get?_eq_some_iff, fun id => contains_eq_true_iff,
    ?_, ?_, ?_, ?_⟩
  · intro a
    rw [exchange_eq]
    exact ⟨rfl, inPlace_put rfl⟩
  · intro id
    rw [extract_eq]
    exact ⟨rfl, inPlace_erase s id⟩
  · intro owner before item after t h
    obtain ⟨u, v, hu, hv, ht⟩ := exists_at_item h
    exact ⟨u, v, hu, hv, inPlace_apply hv, ht⟩
  · intro more
    rw [Edit.reached, List.foldl_append]
    exact unnamed_foldl_run more s

end DirectorySaga.Attributes
