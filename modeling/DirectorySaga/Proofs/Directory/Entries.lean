/-
What the calls of a directory do to its entries.

Each write is a check followed by a change.  The lemmas of this module take the two
apart: a write succeeds exactly under its check, and then the directory is the changed
one.  The changes are three: an entry is set, an entry is removed, and a subtree is
moved.  What a move does is said in the module on moves.

`ParentClosed` is used through `mem_of_within`: in a closed directory whatever lies
between the root and a bound entry is bound too.
-/
import DirectorySaga.Directory.Basic
import DirectorySaga.Proofs.Name.Subtree

namespace DirectorySaga.Directory

variable {d d' : Directory} {name n : Name}

/-! ### Entries -/

theorem mem_iff_getElem? : n ∈ d.entries ↔ ∃ attributes, d.entries[n]? = some attributes := by
  rw [Std.ExtTreeMap.mem_iff_isSome_getElem?, Option.isSome_iff_exists]

theorem mem_of_getElem? {attributes : Attributes} (h : d.entries[n]? = some attributes) :
    n ∈ d.entries := mem_iff_getElem?.mpr ⟨attributes, h⟩

theorem not_mem_iff_getElem? : n ∉ d.entries ↔ d.entries[n]? = none := by
  rw [Std.ExtTreeMap.mem_iff_isSome_getElem?, Option.not_isSome_iff_eq_none]

/-- Directories with the same entries under every name bind the same names. -/
theorem mem_congr (h : d.entries[n]?.isSome = d'.entries[n]?.isSome) :
    n ∈ d.entries ↔ n ∈ d'.entries := by
  rw [Std.ExtTreeMap.mem_iff_isSome_getElem?, Std.ExtTreeMap.mem_iff_isSome_getElem?, h]

theorem contains_iff : d.contains n = true ↔ n ∈ d.entries := Std.ExtTreeMap.contains_iff_mem

theorem hasBelow_iff : d.hasBelow name = true ↔ ∃ n ∈ d.entries, n.isBelow name = true := by
  rw [hasBelow, names, List.any_eq_true]
  exact exists_congr fun n => and_congr_left' Std.ExtTreeMap.mem_keys

/-- Nothing lies below a name if what is bound within it is that name. -/
theorem not_hasBelow_iff :
    d.hasBelow name = false ↔ ∀ n ∈ d.entries, n.Within name → n = name := by
  rw [← Bool.not_eq_true, hasBelow_iff]
  simp only [not_exists, not_and, Bool.not_eq_true, Name.not_isBelow_iff]

/-- Directories that have the same entries are the same. -/
theorem ext_entries (hmark : d.readOnly = d'.readOnly)
    (h : ∀ n : Name, d.entries[n]? = d'.entries[n]?) : d = d' := by
  obtain ⟨entries, mark⟩ := d
  obtain ⟨entries', mark'⟩ := d'
  have hentries : entries = entries' := Std.ExtTreeMap.ext_getElem? fun {n} => h n
  have hmark' : mark = mark' := hmark
  rw [hentries, hmark']

/-! ### The changes -/

/-- The directory without the entry. -/
def remove (d : Directory) (name : Name) : Directory := { d with entries := d.entries.erase name }

/-- The directory after the entries within `old` have been moved, whatever is in the way. -/
def move (d : Directory) (old new : Name) : Directory :=
  let moved := d.names.filter fun name => name == old || name.isBelow old
  { d with entries := moved.foldl (moveEntry old new) d.entries }

theorem getElem?_seed (d : Directory) (name : Name) (attributes : Attributes) (n : Name) :
    (d.seed name attributes).entries[n]? =
      if name = n then some attributes else d.entries[n]? := by
  rw [seed, Std.ExtTreeMap.getElem?_insert]
  simp only [Std.compare_eq_iff_eq]

theorem getElem?_remove (d : Directory) (name n : Name) :
    (d.remove name).entries[n]? = if name = n then none else d.entries[n]? := by
  rw [remove, Std.ExtTreeMap.getElem?_erase]
  simp only [Std.compare_eq_iff_eq]

theorem mem_seed {attributes : Attributes} :
    n ∈ (d.seed name attributes).entries ↔ name = n ∨ n ∈ d.entries := by
  rw [seed, Std.ExtTreeMap.mem_insert, Std.compare_eq_iff_eq]

theorem mem_remove : n ∈ (d.remove name).entries ↔ name ≠ n ∧ n ∈ d.entries := by
  rw [remove, Std.ExtTreeMap.mem_erase, Ne, Ne, Std.compare_eq_iff_eq]

/-! ### The checks -/

/-- The name has a place in the tree: its parent is the root or is bound. -/
def HasPlace (d : Directory) (name : Name) : Prop :=
  ∃ parent, name.parent? = some parent ∧ (parent = .root ∨ parent ∈ d.entries)

theorem requireParent_eq_ok_iff : d.requireParent name = .ok () ↔ d.HasPlace name := by
  unfold requireParent HasPlace
  cases h : name.parent? with
  | none => simp
  | some parent =>
    simp only [Option.some.injEq, exists_eq_left', ← Name.isRoot_iff, ← contains_iff]
    split <;> simp_all

theorem HasPlace.ne_root (h : d.HasPlace name) : name ≠ .root := by
  obtain ⟨parent, hp, -⟩ := h
  rintro rfl
  simp [Name.parent?, Name.root] at hp

/-- The subtree at `old` can go to `new`: there is something to move, the target is free and
outside the subtree, and it has a place. -/
structure Movable (d : Directory) (old new : Name) : Prop where
  bound : old ∈ d.entries
  free : new ∉ d.entries
  outside : ¬ new.Within old
  place : d.HasPlace new

/-! ### The writes, check by check -/

theorem bind_eq (d : Directory) (name : Name) (attributes : Attributes) :
    d.bind name attributes =
      if d.contains name then .error (.nameAlreadyBound name)
      else (d.requireParent name).map fun _ => d.seed name attributes := by
  unfold bind
  split
  · rfl
  · cases d.requireParent name <;> rfl

theorem rebind_eq (d : Directory) (name : Name) (attributes : Attributes) :
    d.rebind name attributes = (d.requireParent name).map fun _ => d.seed name attributes := by
  unfold rebind
  cases d.requireParent name <;> rfl

theorem rename_eq (d : Directory) (old new : Name) :
    d.rename old new =
      if ¬ d.contains old then .error (.nameNotFound old)
      else if d.contains new then .error (.nameAlreadyBound new)
      else if new.isBelow old then .error (.invalidName new.text .movedBelowItself)
      else (d.requireParent new).map fun _ => d.move old new := by
  unfold rename
  by_cases hold : d.contains old = true
  · rw [if_pos hold, if_neg (not_not_intro hold)]
    split
    · rfl
    · split
      · rfl
      · cases d.requireParent new <;> rfl
  · rw [if_neg hold, if_pos hold]
    rfl

theorem unbind_eq (d : Directory) (name : Name) :
    d.unbind name =
      if ¬ d.contains name then .error (.nameNotFound name)
      else if d.hasBelow name then .error (.notEmpty name)
      else .ok (d.remove name) := by
  unfold unbind
  by_cases hc : d.contains name = true
  · rw [if_pos hc, if_neg (not_not_intro hc)]
    split <;> rfl
  · rw [if_neg hc, if_pos hc]
    rfl

theorem modifyAttributes_eq (d : Directory) (name : Name) (items : List Modification) :
    d.modifyAttributes name items =
      match d.entries[name]? with
      | none => .error (.nameNotFound name)
      | some before => (before.modify name items).map (d.seed name) := by
  unfold modifyAttributes lookup
  cases d.entries[name]? with
  | none => rfl
  | some before =>
    cases h : before.modify name items <;>
      simp [h, Bind.bind, Except.bind, Except.map, pure, Except.pure]

private theorem map_eq_ok_iff {ε α β : Type} {x : Except ε α} {f : α → β} {b : β} :
    x.map f = .ok b ↔ ∃ a, x = .ok a ∧ f a = b := by
  cases x <;> simp [Except.map]

private theorem requireParent_map_eq_ok_iff {e : Directory} :
    ((d.requireParent name).map fun _ => e) = .ok d' ↔ d.HasPlace name ∧ d' = e := by
  rw [map_eq_ok_iff, ← requireParent_eq_ok_iff]
  constructor
  · rintro ⟨⟨⟩, h, he⟩
    exact ⟨h, he.symm⟩
  · rintro ⟨h, he⟩
    exact ⟨(), h, he.symm⟩

theorem bind_eq_ok_iff {attributes : Attributes} :
    d.bind name attributes = .ok d' ↔
      name ∉ d.entries ∧ d.HasPlace name ∧ d' = d.seed name attributes := by
  rw [bind_eq, ← contains_iff]
  split
  · next h => simp [h]
  · next h => simp [h, requireParent_map_eq_ok_iff]

theorem rebind_eq_ok_iff {attributes : Attributes} :
    d.rebind name attributes = .ok d' ↔ d.HasPlace name ∧ d' = d.seed name attributes := by
  rw [rebind_eq, requireParent_map_eq_ok_iff]

theorem rename_eq_ok_iff {old new : Name} :
    d.rename old new = .ok d' ↔ d.Movable old new ∧ d' = d.move old new := by
  have hdef : d.Movable old new ↔ d.contains old = true ∧ ¬ d.contains new = true ∧
      ¬ (new = old ∨ new.isBelow old = true) ∧ d.HasPlace new := by
    rw [contains_iff, contains_iff, ← Name.within_iff_eq_or_isBelow]
    exact ⟨fun h => ⟨h.bound, h.free, h.outside, h.place⟩, fun ⟨hb, hf, ho, hp⟩ => ⟨hb, hf, ho, hp⟩⟩
  rw [rename_eq, hdef]
  split
  · next hold => simp [hold]
  · next hold =>
    split
    · next hnew => simp [hnew]
    · next hnew =>
      have hne : new ≠ old := by
        rintro rfl
        exact hold hnew
      split
      · next hb => simp [hb]
      · next hb =>
        rw [requireParent_map_eq_ok_iff]
        simp [Classical.not_not.mp hold, hnew, hne, hb]

theorem unbind_eq_ok_iff :
    d.unbind name = .ok d' ↔
      name ∈ d.entries ∧ d.hasBelow name = false ∧ d' = d.remove name := by
  rw [unbind_eq, ← contains_iff]
  split
  · next hc => simp [hc]
  · next hc =>
    split
    · next hb => simp [hb]
    · next hb => simp [hb, Classical.not_not.mp hc, eq_comm]

theorem modifyAttributes_eq_ok_iff {items : List Modification} :
    d.modifyAttributes name items = .ok d' ↔
      ∃ before after, d.entries[name]? = some before ∧ before.modify name items = .ok after ∧
        d' = d.seed name after := by
  rw [modifyAttributes_eq]
  cases he : d.entries[name]? with
  | none => simp
  | some before =>
    simp only [map_eq_ok_iff, Option.some.injEq, exists_and_left, exists_eq_left']
    exact exists_congr fun after => and_congr_right' eq_comm

/-! ### Several writes -/

/-- Carries out the operations in order; the first refusal ends it. -/
def writeAll (d : Directory) (operations : List Operation) :
    Except DirectoryError Directory := operations.foldlM write d

theorem writeAll_cons_eq_ok_iff {operation : Operation} {more : List Operation} :
    d.writeAll (operation :: more) = .ok d' ↔
      ∃ e, d.write operation = .ok e ∧ e.writeAll more = .ok d' := by
  unfold writeAll
  rw [List.foldlM_cons]
  cases d.write operation <;> simp [Bind.bind, Except.bind]

/-! ### Closed directories -/

/-- In a closed directory all that stands above a bound entry is bound, the root apart. -/
theorem ParentClosed.mem_of_within (closed : d.ParentClosed) {base : Name} (hn : n ∈ d.entries)
    (h : n.Within base) (hbase : base ≠ .root) : base ∈ d.entries := by
  obtain ⟨front, rfl⟩ := Name.within_iff.mp h
  obtain ⟨front⟩ := front
  induction front with
  | nil => exact hn
  | cons r front ih =>
    have hw : (Name.under ⟨front⟩ base).Within base := Name.within_iff.mpr ⟨_, rfl⟩
    refine ih (closed _ hn _ rfl ?_) hw
    intro hroot
    exact hbase (Name.eq_root_of_within_root (hroot ▸ hw))

theorem parentClosed_iff :
    d.ParentClosed ↔ ∀ parent leaf, parent.child leaf ∈ d.entries →
      parent = .root ∨ parent ∈ d.entries := by
  constructor
  · intro closed parent leaf hmem
    by_cases h : parent = .root
    · exact Or.inl h
    · exact Or.inr (closed _ hmem parent rfl h)
  · intro h n hn parent hp hroot
    obtain ⟨leaf, rfl⟩ := Name.parent?_eq_some_iff.mp hp
    exact (h parent leaf hn).resolve_left hroot

/-- Only which names are bound decides whether a directory is closed. -/
theorem ParentClosed.congr (closed : d.ParentClosed)
    (h : ∀ n : Name, n ∈ d'.entries ↔ n ∈ d.entries) : d'.ParentClosed := by
  intro n hn parent hp hroot
  exact (h parent).mpr (closed n ((h n).mp hn) parent hp hroot)

end DirectorySaga.Directory
