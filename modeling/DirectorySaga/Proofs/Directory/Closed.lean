/-
Writes keep a directory closed.

Each of the three changes keeps the tree whole under the check that its writes make: an
entry is set where it has a place, an entry is removed when nothing hangs below it, and
a subtree goes where it has a place, taking along all that hangs below it.

The module also counts entries: a write adds one, takes one away, or leaves their number
as it is.
-/
import DirectorySaga.Proofs.Directory.Moves

namespace DirectorySaga.Directory

variable {d d' : Directory} {name old new n : Name} {attributes : Attributes}

/-! ### The changes -/

theorem ParentClosed.seed (closed : d.ParentClosed) (h : d.HasPlace name) :
    (d.seed name attributes).ParentClosed := by
  intro n hn parent hp hroot
  rw [mem_seed] at hn ⊢
  rcases hn with rfl | hn
  · obtain ⟨parent', hp', hplace⟩ := h
    obtain rfl : parent = parent' := Option.some.inj (hp.symm.trans hp')
    exact Or.inr (hplace.resolve_left hroot)
  · exact Or.inr (closed n hn parent hp hroot)

theorem ParentClosed.seed_bound (closed : d.ParentClosed) (h : name ∈ d.entries) :
    (d.seed name attributes).ParentClosed := by
  refine closed.congr fun n => ?_
  rw [mem_seed]
  constructor
  · rintro (rfl | hn)
    · exact h
    · exact hn
  · exact Or.inr

theorem ParentClosed.remove (closed : d.ParentClosed) (h : d.hasBelow name = false) :
    (d.remove name).ParentClosed := by
  intro n hn parent hp hroot
  rw [mem_remove] at hn ⊢
  refine ⟨?_, closed n hn.2 parent hp hroot⟩
  rintro rfl
  obtain ⟨leaf, rfl⟩ := Name.parent?_eq_some_iff.mp hp
  exact Name.child_ne name leaf (not_hasBelow_iff.mp h _ hn.2 (Name.child_within name leaf))

theorem ParentClosed.move (closed : d.ParentClosed) (h : d.Movable old new) :
    (d.move old new).ParentClosed := by
  rw [parentClosed_iff] at closed ⊢
  have closed' := parentClosed_iff.mpr closed
  intro parent leaf hmem
  obtain ⟨hnot, hsource⟩ := (mem_move h closed').mp hmem
  by_cases hnew : (parent.child leaf).Within new
  · rcases Name.child_within_iff.mp hnew with hbase | hparent
    · -- the entry is the moved base itself, whose place was checked
      obtain ⟨above, ha, hplace⟩ := h.place
      obtain rfl : parent = above := by
        rw [← hbase, Name.parent?_child] at ha
        exact Option.some.inj ha
      refine hplace.imp_right fun hmem' => ?_
      have hout : ¬ parent.Within old := fun hw => h.outside ((hbase ▸ hnew).trans (by
        rw [← hbase, Name.child_within_iff]
        exact Or.inr hw))
      have hmoved := carry_mem_move h closed' hmem'
      rwa [Name.carry_of_not_within hout] at hmoved
    · -- its parent was moved along with it
      rw [Name.child_carry hparent] at hsource
      refine Or.inr ?_
      have hparent' : parent.carry new old ∈ d.entries :=
        (closed _ _ hsource).resolve_left (Name.carry_ne_root hparent h.old_ne_root)
      have hmoved := carry_mem_move h closed' hparent'
      rwa [Name.carry_carry hparent] at hmoved
  · rw [Name.carry_of_not_within hnew] at hsource
    refine (closed _ _ hsource).imp_right fun hparent => ?_
    have hout : ¬ parent.Within old :=
      fun hw => hnot (Name.child_within_iff.mpr (Or.inr hw))
    have hmoved := carry_mem_move h closed' hparent
    rwa [Name.carry_of_not_within hout] at hmoved

/-! ### The writes -/

/-- **A write keeps a directory closed.** -/
theorem ParentClosed.write (closed : d.ParentClosed) {operation : Operation}
    (h : d.write operation = .ok d') : d'.ParentClosed := by
  cases operation with
  | bind name attributes =>
    obtain ⟨-, hplace, rfl⟩ := bind_eq_ok_iff.mp h
    exact closed.seed hplace
  | rebind name attributes =>
    obtain ⟨hplace, rfl⟩ := rebind_eq_ok_iff.mp h
    exact closed.seed hplace
  | rename old new =>
    obtain ⟨hmovable, rfl⟩ := rename_eq_ok_iff.mp h
    exact closed.move hmovable
  | unbind name =>
    obtain ⟨-, hleaf, rfl⟩ := unbind_eq_ok_iff.mp h
    exact closed.remove hleaf
  | modifyAttributes name items =>
    obtain ⟨before, after, hbefore, -, rfl⟩ := modifyAttributes_eq_ok_iff.mp h
    exact closed.seed_bound (mem_of_getElem? hbefore)

/-! ### The number of entries -/

theorem size_seed_bound (h : name ∈ d.entries) : (d.seed name attributes).size = d.size := by
  rw [size, size, Directory.seed, Std.ExtTreeMap.size_insert,
    if_pos (Std.ExtTreeMap.contains_iff_mem.mpr h)]

theorem size_seed_free (h : name ∉ d.entries) : (d.seed name attributes).size = d.size + 1 := by
  rw [size, size, Directory.seed, Std.ExtTreeMap.size_insert,
    if_neg (mt Std.ExtTreeMap.contains_iff_mem.mp h)]

theorem size_remove (h : name ∈ d.entries) : (d.remove name).size + 1 = d.size := by
  have hd : (d.remove name).seed name d.entries[name] = d := by
    refine ext_entries rfl fun n => ?_
    rw [getElem?_seed, getElem?_remove]
    by_cases hn : name = n
    · subst hn
      rw [if_pos rfl, Std.ExtTreeMap.getElem?_eq_some_getElem h]
    · rw [if_neg hn, if_neg hn]
  have hgone : name ∉ (d.remove name).entries := fun hmem => (mem_remove.mp hmem).1 rfl
  have hsize : ((d.remove name).seed name d.entries[name]).size = (d.remove name).size + 1 :=
    size_seed_free hgone
  rw [hd] at hsize
  exact hsize.symm

/-! ### A small tree -/

theorem empty_closed : empty.ParentClosed :=
  fun _ hname => absurd hname Std.ExtTreeMap.not_mem_empty

/-- A directory of one unit with one person in it. -/
def staffed : Directory :=
  (empty.seed (.unit "people") .empty).seed ((Name.unit "people").member "ann") .empty

theorem staffed_closed : staffed.ParentClosed := by
  have hunit : (empty.seed (.unit "people") .empty).ParentClosed :=
    empty_closed.seed ⟨.root, rfl, Or.inl rfl⟩
  exact hunit.seed ⟨.unit "people", rfl, Or.inr (mem_seed.mpr (Or.inl rfl))⟩

end DirectorySaga.Directory
