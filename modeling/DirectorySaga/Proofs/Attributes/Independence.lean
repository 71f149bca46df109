/-
Attributes are changed independently of each other.

An item finds its attribute by id and does not look at the others.  So a list of items may
be sorted by id: what it does to a set is, id by id, what the items of that id do to the
attribute of that id alone.  A set cut down to one id is `only`, a list of items cut down to
it is `naming`, and cutting down commutes with changing: item by item (`apply_only`), hence
for whole lists (`modify_only`), also when a list is refused, which is for a reason that one
attribute gives (`modify_refused`).

What an item does depends on its values and on those of the attribute, not on the spelling of
ids (`values_change`), so equal lists of items turn equal sets into equal sets (`modify_congr`).
Together these facts say that items of different attributes may be exchanged.
-/
import DirectorySaga.Directory.Service
import DirectorySaga.Proofs.Attributes.Values
import DirectorySaga.Proofs.Directory.Entries

namespace DirectorySaga

namespace Attributes

variable {s s' t u : Attributes} {id other : String} {owner : Name} {item item' : Modification}
  {items items' : List Modification} {e : DirectoryError}

/-! ### Cutting down to one id -/

/-- The attribute of this id alone, if there is one. -/
def only (s : Attributes) (id : String) : Attributes :=
  ⟨s.list.filter (·.foldedId == Text.lower id), nodup_filter_foldedId _ s.distinct⟩

/-- The items that name the id, in order. -/
def naming (id : String) (items : List Modification) : List Modification :=
  items.filter (·.attr.foldedId == Text.lower id)

theorem get?_only (s : Attributes) (id other : String) :
    (s.only id).get? other = if Text.lower id = Text.lower other then s.get? other else none := by
  simp only [get?, only, List.find?_filter]
  split
  · next h =>
    congr 1
    funext a
    by_cases ha : a.foldedId = Text.lower other
    · simp [ha, h]
    · simp [ha]
  · next h =>
    rw [List.find?_eq_none]
    intro a _
    simp only [beq_iff_eq, decide_eq_true_eq, not_and]
    intro ha hother
    exact h (ha.symm.trans hother)

/-- A set cut down to one id has one attribute at most. -/
theorem list_only (s : Attributes) (id : String) : (s.only id).list = (s.get? id).toList := by
  obtain ⟨list, distinct⟩ := s
  simp only [only, get?]
  induction list with
  | nil => rfl
  | cons a rest ih =>
    rw [List.map_cons, List.nodup_cons] at distinct
    by_cases ha : a.foldedId = Text.lower id
    · have hrest : rest.filter (·.foldedId == Text.lower id) = [] := by
        rw [List.filter_eq_nil_iff]
        intro b hb hid
        have hkey : b.foldedId = a.foldedId := (beq_iff_eq.mp hid).trans ha.symm
        exact distinct.1 (hkey ▸ List.mem_map_of_mem hb)
      simp [ha, hrest]
    · simp only [beq_iff_eq, ha, not_false_eq_true, List.filter_cons_of_neg, List.find?_cons_of_neg]
      exact ih distinct.2

theorem ext_list (h : s.list = t.list) : s = t := by
  cases s
  cases t
  cases h
  rfl

theorem only_eq_iff : s.only id = t.only id ↔ s.get? id = t.get? id := by
  constructor
  · intro h
    have hlist : (s.get? id).toList = (t.get? id).toList := by rw [← list_only, h, list_only]
    have hhead := congrArg List.head? hlist
    rwa [Option.head?_toList, Option.head?_toList] at hhead
  · intro h
    refine ext_list ?_
    rw [list_only, list_only, h]

theorem values?_only (s : Attributes) (id : String) : (s.only id).values? id = s.values? id := by
  rw [values?, get?_only, if_pos rfl, values?]

theorem naming_cons_self (h : item.attr.foldedId = Text.lower id) :
    naming id (item :: items) = item :: naming id items := by
  unfold naming
  exact List.filter_cons_of_pos (by simpa using h)

theorem naming_cons_other (h : item.attr.foldedId ≠ Text.lower id) :
    naming id (item :: items) = naming id items := by
  unfold naming
  exact List.filter_cons_of_neg (by simpa using h)

/-- A set in which nothing is found under other ids is what `t` is cut down to, if both have the
same under this id. -/
theorem eq_only (hother : ∀ other, Text.lower id ≠ Text.lower other → u.get? other = none)
    (hid : u.get? id = t.get? id) : u = t.only id := by
  have hself : u.only id = u := by
    refine ext_list (List.filter_eq_self.mpr fun a ha => ?_)
    by_cases hid : Text.lower id = Text.lower a.id
    · exact beq_iff_eq.mpr hid.symm
    · have hnone := hother a.id hid
      rw [get?_of_mem ha] at hnone
      cases hnone
  rw [← hself, only_eq_iff, hid]

/-! ### One item -/

/-- **An item changes its own attribute as if there were no other**, or is refused for the same
reason. -/
theorem apply_only (h : item.attr.foldedId = Text.lower id) :
    (s.only id).apply owner item = (s.apply owner item).map (·.only id) := by
  have hget : (s.only id).get? item.attr.id = s.get? item.attr.id := by
    exact (get?_only s id item.attr.id).trans (if_pos h.symm)
  cases hchange : item.change (s.get? item.attr.id) with
  | none => simp only [apply, hget, hchange, Except.map]
  | some changed =>
    have hwhole : s.apply owner item = .ok (s.set item.attr.id changed) :=
      apply_eq_ok_iff.mpr ⟨changed, hchange, rfl⟩
    have hpart : (s.only id).apply owner item = .ok ((s.only id).set item.attr.id changed) :=
      apply_eq_ok_iff.mpr ⟨changed, hget ▸ hchange, rfl⟩
    obtain ⟨_, hchanged, hfound⟩ := get?_apply hwhole
    obtain ⟨_, hchanged', hfound'⟩ := get?_apply hpart
    rw [hget] at hchanged'
    cases hchanged.symm.trans hchanged'
    rw [hwhole, hpart]
    refine congrArg Except.ok (eq_only ?_ ?_)
    · intro other hother
      rw [hfound', if_neg (h ▸ hother), get?_only, if_neg hother]
    · rw [hfound, hfound', if_pos h, if_pos h]

/-- An item leaves the other attributes alone. -/
theorem only_of_apply (h : s.apply owner item = .ok t) (hid : item.attr.foldedId ≠ Text.lower id) :
    t.only id = s.only id := by
  obtain ⟨changed, -, hfound⟩ := get?_apply h
  rw [only_eq_iff, hfound, if_neg hid]

/-! ### Lists of items -/

theorem modify_cons (owner : Name) (s : Attributes) (item : Modification)
    (items : List Modification) :
    s.modify owner (item :: items) = (s.apply owner item).bind fun u => u.modify owner items := by
  unfold modify
  rw [List.foldlM_cons]
  rfl

theorem modify_cons_of_ok (h : s.apply owner item = .ok u) :
    s.modify owner (item :: items) = u.modify owner items := by
  rw [modify_cons, h, Except.bind]

theorem modify_cons_of_error (h : s.apply owner item = .error e) :
    s.modify owner (item :: items) = .error e := by
  rw [modify_cons, h, Except.bind]

/-- **What a list of items does to a set it does id by id.** -/
theorem modify_only (id : String) : ∀ {items : List Modification} {s : Attributes},
    s.modify owner items = .ok t →
      (s.only id).modify owner (naming id items) = .ok (t.only id) := by
  intro items
  induction items with
  | nil =>
    intro s h
    cases h
    rfl
  | cons item more ih =>
    intro s h
    obtain ⟨u, hu, ht⟩ := modify_cons_eq_ok_iff.mp h
    by_cases hid : item.attr.foldedId = Text.lower id
    · have hpart : (s.only id).apply owner item = .ok (u.only id) := by
        rw [apply_only hid, hu]
        rfl
      rw [naming_cons_self hid, modify_cons_of_ok hpart]
      exact ih ht
    · rw [naming_cons_other hid, ← only_of_apply hu hid]
      exact ih ht

/-- **A list of items is refused for the reason of one attribute.** -/
theorem modify_refused : ∀ {items : List Modification} {s : Attributes},
    s.modify owner items = .error e →
      ∃ id, (s.only id).modify owner (naming id items) = .error e := by
  intro items
  induction items with
  | nil =>
    intro s h
    cases h
  | cons item more ih =>
    intro s h
    cases hu : s.apply owner item with
    | error e' =>
      rw [modify_cons_of_error hu] at h
      cases h
      have hpart : (s.only item.attr.id).apply owner item = .error e := by
        rw [apply_only rfl, hu]
        rfl
      refine ⟨item.attr.id, ?_⟩
      rw [naming_cons_self rfl, modify_cons_of_error hpart]
    | ok u =>
      rw [modify_cons_of_ok hu] at h
      obtain ⟨id, hrefused⟩ := ih h
      refine ⟨id, ?_⟩
      by_cases hid : item.attr.foldedId = Text.lower id
      · have hpart : (s.only id).apply owner item = .ok (u.only id) := by
          rw [apply_only hid, hu]
          rfl
        rw [naming_cons_self hid, modify_cons_of_ok hpart]
        exact hrefused
      · rw [naming_cons_other hid, ← only_of_apply hu hid]
        exact hrefused

end Attributes

/-! ### What becomes of the values -/

/-- What an item with the values `given` makes of the values of its attribute, `none` standing
for the absence of the attribute; fails if they lack what is to be removed. -/
def ModificationOp.changeValues (given : List String) :
    ModificationOp → Option (List String) → Option (Option (List String))
  | .add, none => some (some given)
  | .add, some values => some (some (Modification.addValues values given))
  | .replace, _ => some (if given.isEmpty then none else some given)
  | .remove, none => none
  | .remove, some values =>
    if given.isEmpty then some none
    else (Modification.removeValues values given).map fun left =>
      if left.isEmpty then none else some left

theorem Attribute.values_withValues? (a : Attribute) (values : List String) :
    (a.withValues? values).map Attribute.values = if values.isEmpty then none else some values := by
  unfold withValues?
  split <;> rfl

theorem Modification.values_change (item : Modification) (before : Option Attribute) :
    (item.change before).map (Option.map Attribute.values) =
      item.op.changeValues item.attr.values (before.map Attribute.values) := by
  obtain ⟨op, given⟩ := item
  cases op with
  | add => cases before <;> rfl
  | replace => exact congrArg some (given.values_withValues? given.values)
  | remove =>
    cases before with
    | none => rfl
    | some a =>
      simp only [change, ModificationOp.changeValues, Option.map_some]
      split
      · rfl
      · rw [Option.map_map]
        congr 1
        funext left
        exact a.values_withValues? left

/-- Items are equal when they do the same with the same values of the same attribute. -/
theorem Modification.beq_iff {item item' : Modification} :
    (item == item') = true ↔
      item.op = item'.op ∧ item.attr.foldedId = item'.attr.foldedId ∧
        item.attr.values = item'.attr.values := by
  change (item.op == item'.op && item.attr == item'.attr) = true ↔ _
  rw [Bool.and_eq_true, beq_iff_eq, Attribute.beq_iff]

/-! ### Equal items and equal sets -/

namespace Attributes

variable {s s' t t' : Attributes} {id : String} {owner : Name} {item item' : Modification}
  {items items' : List Modification}

theorem apply_eq_error (h : item.op.changeValues item.attr.values (s.values? item.attr.id) = none) :
    s.apply owner item = .error (.noSuchAttribute owner item.attr.id) := by
  have hchange : item.change (s.get? item.attr.id) = none := by
    rwa [values?, ← item.values_change, Option.map_eq_none_iff] at h
  simp only [apply, hchange]

theorem apply_eq_ok {changed : Option (List String)}
    (h : item.op.changeValues item.attr.values (s.values? item.attr.id) = some changed) :
    ∃ t, s.apply owner item = .ok t ∧ ∀ id,
      t.values? id = if item.attr.foldedId = Text.lower id then changed else s.values? id := by
  rw [values?, ← item.values_change] at h
  obtain ⟨a, hchange, rfl⟩ := Option.map_eq_some_iff.mp h
  have happly : s.apply owner item = .ok (s.set item.attr.id a) :=
    apply_eq_ok_iff.mpr ⟨a, hchange, rfl⟩
  obtain ⟨a', hchange', hfound⟩ := get?_apply happly
  cases hchange.symm.trans hchange'
  refine ⟨_, happly, fun id => ?_⟩
  rw [values?, hfound]
  split <;> rfl

/-- Both are refused, or both succeed with equal sets. -/
inductive EqualOrRefused :
    Except DirectoryError Attributes → Except DirectoryError Attributes → Prop
  | equal {t t' : Attributes} (h : (t == t') = true) : EqualOrRefused (.ok t) (.ok t')
  | refused (e e' : DirectoryError) : EqualOrRefused (.error e) (.error e')

/-- Equal items turn equal sets into equal sets. -/
theorem apply_congr (hitem : (item == item') = true) (hs : (s == s') = true) :
    EqualOrRefused (s.apply owner item) (s'.apply owner item') := by
  obtain ⟨hop, hid, hgiven⟩ := Modification.beq_iff.mp hitem
  rw [beq_iff_values?] at hs
  have hvalues : s.values? item.attr.id = s'.values? item'.attr.id :=
    (hs item.attr.id).trans (values?_congr hid)
  have hsame : item.op.changeValues item.attr.values (s.values? item.attr.id) =
      item'.op.changeValues item'.attr.values (s'.values? item'.attr.id) := by
    rw [hop, hgiven, hvalues]
  cases hchange : item.op.changeValues item.attr.values (s.values? item.attr.id) with
  | none =>
    rw [apply_eq_error hchange, apply_eq_error (hsame ▸ hchange)]
    exact .refused _ _
  | some changed =>
    obtain ⟨t, ht, hafter⟩ := apply_eq_ok hchange
    obtain ⟨t', ht', hafter'⟩ := apply_eq_ok (hsame ▸ hchange)
    rw [ht, ht']
    refine .equal (beq_iff_values?.mpr fun id => ?_)
    rw [hafter, hafter', hid, hs]

/-- Equal lists of items turn equal sets into equal sets. -/
theorem modify_congr : ∀ {items items' : List Modification} {s s' : Attributes},
    (items == items') = true → (s == s') = true →
      EqualOrRefused (s.modify owner items) (s'.modify owner items') := by
  intro items
  induction items with
  | nil =>
    intro items' s s' hitems hs
    cases items' with
    | nil => exact .equal hs
    | cons item' more' => cases hitems
  | cons item more ih =>
    intro items' s s' hitems hs
    cases items' with
    | nil => cases hitems
    | cons item' more' =>
      rw [List.cons_beq_cons, Bool.and_eq_true] at hitems
      have happly : EqualOrRefused (s.apply owner item) (s'.apply owner item') :=
        apply_congr hitems.1 hs
      rw [modify_cons, modify_cons]
      generalize s.apply owner item = answer, s'.apply owner item' = answer' at happly
      cases happly with
      | refused e e' => exact .refused e e'
      | equal h => exact ih hitems.2 h

/-! ### Independence -/

/-- A modification that is refused changes no entry. -/
theorem perform_refused {d : Directory} {e : DirectoryError} (hd : d.entries[owner]? = some s)
    (h : s.modify owner items = .error e) :
    d.perform (.modifyAttributes owner items) = (.error e, d) := by
  have hwrite : d.write (.modifyAttributes owner items) = .error e := by
    rw [Directory.write, Directory.modifyAttributes_eq, hd]
    simp only [h, Except.map]
  rw [Directory.perform, hwrite]

/-- Lists with equal items of each id, in the same order, turn a set into equal sets. -/
theorem modify_exchange (hnaming : ∀ id, (naming id items == naming id items') = true) :
    EqualOrRefused (s.modify owner items) (s.modify owner items') := by
  have hpart : ∀ id, EqualOrRefused ((s.only id).modify owner (naming id items))
      ((s.only id).modify owner (naming id items')) :=
    fun id => modify_congr (hnaming id) (beq_iff_values?.mpr fun _ => rfl)
  cases h : s.modify owner items with
  | error e =>
    cases h' : s.modify owner items' with
    | error e' => exact .refused e e'
    | ok t' =>
      obtain ⟨id, hrefused⟩ := modify_refused h
      have hpart := hpart id
      rw [hrefused, modify_only id h'] at hpart
      cases hpart
  | ok t =>
    cases h' : s.modify owner items' with
    | error e' =>
      obtain ⟨id, hrefused⟩ := modify_refused h'
      have hpart := hpart id
      rw [hrefused, modify_only id h] at hpart
      cases hpart
    | ok t' =>
      refine .equal (beq_iff_values?.mpr fun id => ?_)
      have hpart := hpart id
      rw [modify_only id h, modify_only id h'] at hpart
      cases hpart with
      | equal hequal =>
        have hvalues := beq_iff_values?.mp hequal id
        rwa [values?_only, values?_only] at hvalues

/--
**Attributes are changed independently of each other.**  A list of items applies to a set just
when, for every id, the items of that id apply to the attribute of that id alone.  Then it
leaves of each attribute what these items leave of it, and an attribute that no item names as
it is.  If it does not apply, the reason is that of one attribute, and an entry with this set
keeps it.  So lists with equal items of each id, in the same order, are all refused, or they
all succeed with equal sets.
-/
theorem modify_independent (owner : Name) (s : Attributes) (items : List Modification) :
    ((∃ t, s.modify owner items = .ok t) ↔
      ∀ id, ∃ u, (s.only id).modify owner (naming id items) = .ok u) ∧
    (∀ t, s.modify owner items = .ok t → ∀ id,
      (s.only id).modify owner (naming id items) = .ok (t.only id) ∧
        (¬ Named id items → t.get? id = s.get? id)) ∧
    (∀ e, s.modify owner items = .error e →
      (∃ id, (s.only id).modify owner (naming id items) = .error e) ∧
        ∀ d : Directory, d.entries[owner]? = some s →
          d.perform (.modifyAttributes owner items) = (.error e, d)) ∧
    ∀ items', (∀ id, (naming id items == naming id items') = true) →
      EqualOrRefused (s.modify owner items) (s.modify owner items') := by
  refine ⟨⟨?_, ?_⟩, ?_, ?_, fun _ => modify_exchange⟩
  · rintro ⟨t, h⟩ id
    exact ⟨t.only id, modify_only id h⟩
  · intro hparts
    cases h : s.modify owner items with
    | ok t => exact ⟨t, rfl⟩
    | error e =>
      obtain ⟨id, hrefused⟩ := modify_refused h
      obtain ⟨u, happlies⟩ := hparts id
      rw [hrefused] at happlies
      cases happlies
  · intro t h id
    exact ⟨modify_only id h, get?_modify_of_not_named h⟩
  · intro e h
    exact ⟨modify_refused h, fun d hd => perform_refused hd h⟩

end Attributes

end DirectorySaga
