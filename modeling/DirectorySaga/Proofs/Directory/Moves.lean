/-
What a move does to the entries.

A move takes the entries of a subtree one after the other, removes each and sets it
again under its new name.  That the steps do not get in each other's way is not
obvious: a target could be an entry that is still to be moved, or one that has nothing
to do with the move.  In a closed directory neither happens.  The new base is free, so
nothing is bound within it, and since nothing but bound names stands above the old
base, the old base does not lie within the new one either.  Then sources and targets
are apart, and `foldl_moveEntry` follows the loop.

`getElem?_move` says what results, name by name, and all else is derived from it: the
directory stays closed, nothing is lost, and the move back restores every entry.
-/
import DirectorySaga.Proofs.Directory.Entries

namespace DirectorySaga.Directory

variable {d d' : Directory} {old new n : Name}

/-! ### The loop -/

/-- `after` is `before` with the entries of the names `moved` carried from `old` to `new`. -/
structure Relocated (old new : Name) (moved : List Name) (before after : Entries) : Prop where
  /-- Nothing stays behind. -/
  gone : ∀ n ∈ moved, after[n]? = none
  arrived : ∀ n ∈ moved, after[n.carry old new]? = before[n]?
  others : ∀ n : Name, n ∉ moved → (∀ m ∈ moved, n ≠ m.carry old new) → after[n]? = before[n]?
  size : after.size = before.size

theorem getElem?_insert_erase (entries : Entries) (a b n : Name)
    (attributes : Attributes) :
    ((entries.erase a).insert b attributes)[n]? =
      if b = n then some attributes else if a = n then none else entries[n]? := by
  rw [Std.ExtTreeMap.getElem?_insert, Std.ExtTreeMap.getElem?_erase]
  simp only [Std.compare_eq_iff_eq]

private theorem size_insert_erase (entries : Entries) {a b : Name} (attributes : Attributes)
    (ha : a ∈ entries) (hb : b ∉ entries) :
    ((entries.erase a).insert b attributes).size = entries.size := by
  have hb' : b ∉ entries.erase a := fun h => hb (Std.ExtTreeMap.mem_of_mem_erase h)
  have hpos : entries.size ≠ 0 := by
    intro hzero
    have hempty := Std.ExtTreeMap.eq_empty_iff_size_eq_zero.mpr hzero
    exact Std.ExtTreeMap.not_mem_empty (hempty ▸ ha)
  rw [Std.ExtTreeMap.size_insert, if_neg (mt Std.ExtTreeMap.contains_iff_mem.mp hb'),
    Std.ExtTreeMap.size_erase, if_pos (Std.ExtTreeMap.contains_iff_mem.mpr ha)]
  omega

/-- One step: the entry at `n` goes to where `n` is carried. -/
theorem moveEntry_eq {entries : Entries} (hn : n.Within old) {attributes : Attributes}
    (h : entries[n]? = some attributes) :
    moveEntry old new entries n = (entries.erase n).insert (n.carry old new) attributes := by
  rw [moveEntry, h, Name.rebase?_of_within hn]

/-- The loop relocates exactly the names it runs over, provided that sources lie within
`old`, that nothing lies within `old` and `new` at once, and that every target is free. -/
theorem foldl_moveEntry (hon : ¬ old.Within new) (hno : ¬ new.Within old) (moved : List Name) :
    ∀ entries : Entries, moved.Nodup → (∀ n ∈ moved, n.Within old) →
      (∀ n ∈ moved, n ∈ entries) → (∀ n ∈ moved, n.carry old new ∉ entries) →
      Relocated old new moved entries (moved.foldl (moveEntry old new) entries) := by
  -- a source is never a target
  have hapart : ∀ n m : Name, n.Within old → m.Within old → n ≠ m.carry old new := by
    rintro n m hn hm rfl
    exact (hn.linear (Name.carry_within hm)).elim hon hno
  induction moved with
  | nil =>
    intro entries _ _ _ _
    exact ⟨by simp, by simp, fun _ _ _ => rfl, rfl⟩
  | cons n more ih =>
    intro entries hnodup hwithin hbound hfree
    obtain ⟨hnotin, hnodup⟩ := List.nodup_cons.mp hnodup
    have hn : n.Within old := hwithin n (by simp)
    have hmore : ∀ m ∈ more, m.Within old := fun m hm => hwithin m (by simp [hm])
    have hne : ∀ m ∈ more, m ≠ n := fun m hm h => hnotin (h ▸ hm)
    obtain ⟨attributes, ha⟩ : ∃ attributes, entries[n]? = some attributes :=
      Option.isSome_iff_exists.mp (Std.ExtTreeMap.mem_iff_isSome_getElem?.mp (hbound n (by simp)))
    rw [List.foldl_cons, moveEntry_eq hn ha]
    -- what the first step leaves behind meets the conditions for the rest
    have hstep : ∀ m : Name, ((entries.erase n).insert (n.carry old new) attributes)[m]? =
        if n.carry old new = m then some attributes else if n = m then none else entries[m]? :=
      fun m => getElem?_insert_erase ..
    have hkeep : ∀ m ∈ more,
        ((entries.erase n).insert (n.carry old new) attributes)[m]? = entries[m]? := by
      intro m hm
      rw [hstep, if_neg (hapart m n (hmore m hm) hn).symm, if_neg (hne m hm).symm]
    have hrest := ih ((entries.erase n).insert (n.carry old new) attributes) hnodup hmore
      (fun m hm => by
        have hmem : m ∈ entries := hbound m (by simp [hm])
        rw [Std.ExtTreeMap.mem_iff_isSome_getElem?] at hmem ⊢
        rw [hkeep m hm]
        exact hmem)
      (fun m hm => by
        have htarget : m.carry old new ∉ entries := hfree m (by simp [hm])
        rw [Std.ExtTreeMap.mem_insert, Std.compare_eq_iff_eq, Std.ExtTreeMap.mem_erase]
        rintro (h | ⟨-, h⟩)
        · exact hne m hm (Name.carry_injOn (hmore m hm) hn h.symm)
        · exact htarget h)
    refine ⟨?_, ?_, ?_, ?_⟩
    · intro m hm
      rcases List.mem_cons.mp hm with rfl | hm
      · rw [hrest.others m hnotin fun k hk => hapart m k hn (hmore k hk), hstep,
          if_neg (hapart m m hn hn).symm, if_pos rfl]
      · exact hrest.gone m hm
    · intro m hm
      rcases List.mem_cons.mp hm with rfl | hm
      · rw [hrest.others _ ?_ ?_, hstep, if_pos rfl, ha]
        · exact fun h => hapart _ m (hmore _ h) hn rfl
        · exact fun k hk h => hne k hk (Name.carry_injOn (hmore k hk) hn h.symm)
      · rw [hrest.arrived m hm, hkeep m hm]
    · intro m hm htargets
      have hmn : m ≠ n := fun h => hm (by simp [h])
      have hm : m ∉ more := fun h => hm (by simp [h])
      rw [hrest.others m hm fun k hk => htargets k (by simp [hk]), hstep,
        if_neg (htargets n (by simp)).symm, if_neg hmn.symm]
    · rw [hrest.size, size_insert_erase entries attributes (hbound n (by simp)) (hfree n (by simp))]

/-! ### A move in a closed directory -/

namespace Movable

theorem new_ne_root (h : d.Movable old new) : new ≠ .root := h.place.ne_root

theorem old_ne_root (h : d.Movable old new) : old ≠ .root := by
  rintro rfl
  exact h.outside (Name.within_root new)

/-- Nothing is bound within the target. -/
theorem free_within (h : d.Movable old new) (closed : d.ParentClosed) (hn : n.Within new) :
    n ∉ d.entries :=
  fun hmem => h.free (closed.mem_of_within hmem hn h.new_ne_root)

theorem not_within (h : d.Movable old new) (closed : d.ParentClosed) : ¬ old.Within new :=
  fun hw => h.free_within closed hw h.bound

/-- No name lies within the source and the target at once. -/
theorem not_within_both (h : d.Movable old new) (closed : d.ParentClosed) (hold : n.Within old) :
    ¬ n.Within new :=
  fun hnew => (hold.linear hnew).elim (h.not_within closed) h.outside

end Movable

theorem mem_moved :
    n ∈ d.names.filter (fun name => name == old || name.isBelow old) ↔
      n ∈ d.entries ∧ n.Within old := by
  rw [List.mem_filter, names, Std.ExtTreeMap.mem_keys, Name.within_iff_eq_or_isBelow,
    Bool.or_eq_true, beq_iff_eq]

private theorem relocated_move (h : d.Movable old new) (closed : d.ParentClosed) :
    Relocated old new (d.names.filter fun name => name == old || name.isBelow old)
      d.entries (d.move old new).entries := by
  refine foldl_moveEntry (h.not_within closed) h.outside _ _ ?_ ?_ ?_ ?_
  · exact Std.ExtTreeMap.nodup_keys.sublist List.filter_sublist
  · exact fun n hn => (mem_moved.mp hn).2
  · exact fun n hn => (mem_moved.mp hn).1
  · exact fun n hn => h.free_within closed (Name.carry_within (mem_moved.mp hn).2)

/-- **What is bound after a move.**  Nothing within the old base; under every other name what
was bound where the name comes from. -/
theorem getElem?_move (h : d.Movable old new) (closed : d.ParentClosed) (n : Name) :
    (d.move old new).entries[n]? =
      if n.Within old then none else d.entries[n.carry new old]? := by
  have hmove := relocated_move h closed
  have htarget : ∀ m, m ∈ d.names.filter (fun name => name == old || name.isBelow old) →
      (m.carry old new).Within new := fun m hm => Name.carry_within (mem_moved.mp hm).2
  by_cases hold : n.Within old
  · rw [if_pos hold]
    by_cases hmem : n ∈ d.entries
    · exact hmove.gone n (mem_moved.mpr ⟨hmem, hold⟩)
    · rw [hmove.others n (fun hn => hmem (mem_moved.mp hn).1), not_mem_iff_getElem?.mp hmem]
      rintro m hm rfl
      exact h.not_within_both closed hold (htarget m hm)
  · rw [if_neg hold]
    by_cases hnew : n.Within new
    · have hback : (n.carry new old).carry old new = n := Name.carry_carry hnew
      by_cases hmem : n.carry new old ∈ d.entries
      · rw [← hmove.arrived _ (mem_moved.mpr ⟨hmem, Name.carry_within hnew⟩), hback]
      · rw [not_mem_iff_getElem?.mp hmem, hmove.others n (fun hn => hold (mem_moved.mp hn).2),
          not_mem_iff_getElem?.mp (h.free_within closed hnew)]
        rintro m hm rfl
        rw [Name.carry_carry (mem_moved.mp hm).2] at hmem
        exact hmem (mem_moved.mp hm).1
    · rw [Name.carry_of_not_within hnew, hmove.others n fun hn => hold (mem_moved.mp hn).2]
      rintro m hm rfl
      exact hnew (htarget m hm)

theorem mem_move (h : d.Movable old new) (closed : d.ParentClosed) :
    n ∈ (d.move old new).entries ↔ ¬ n.Within old ∧ n.carry new old ∈ d.entries := by
  rw [mem_iff_getElem?, getElem?_move h closed, mem_iff_getElem?]
  by_cases hn : n.Within old <;> simp [hn]

/-- A bound name is bound where it is carried to. -/
theorem carry_mem_move (h : d.Movable old new) (closed : d.ParentClosed) (hn : n ∈ d.entries) :
    n.carry old new ∈ (d.move old new).entries := by
  rw [mem_move h closed]
  by_cases hold : n.Within old
  · rw [Name.carry_carry hold]
    refine ⟨?_, hn⟩
    intro hc
    exact h.not_within_both closed hc (Name.carry_within hold)
  · have hnew : ¬ n.Within new := fun hw => h.free_within closed hw hn
    rw [Name.carry_of_not_within hold, Name.carry_of_not_within hnew]
    exact ⟨hold, hn⟩

/-- A move loses no entry. -/
theorem size_move (h : d.Movable old new) (closed : d.ParentClosed) :
    (d.move old new).size = d.size := (relocated_move h closed).size

/-! ### Moving back -/

/-- After a move the way back is free. -/
theorem Movable.back (h : d.Movable old new) (closed : d.ParentClosed) :
    (d.move old new).Movable new old where
  bound := by
    have hmem := carry_mem_move h closed h.bound
    rwa [Name.carry_self] at hmem
  free := fun hmem => (mem_move h closed).mp hmem |>.1 (Name.within_refl old)
  outside := h.not_within closed
  place := by
    cases hp : old.parent? with
    | none => exact absurd (Name.parent?_eq_none_iff.mp hp) h.old_ne_root
    | some parent =>
      refine ⟨parent, hp, ?_⟩
      by_cases hroot : parent = .root
      · exact Or.inl hroot
      · refine Or.inr ?_
        -- the parent stands above the old base, so the move leaves it alone
        have hmem : parent ∈ d.entries := closed old h.bound parent hp hroot
        obtain ⟨leaf, rfl⟩ := Name.parent?_eq_some_iff.mp hp
        have hmoved := carry_mem_move h closed hmem
        rwa [Name.carry_of_not_within (Name.not_within_child parent leaf)] at hmoved

end DirectorySaga.Directory
