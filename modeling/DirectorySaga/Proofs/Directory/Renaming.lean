/-
A move loses nothing and can be taken back.

What is bound after a move is said name by name in the module on moves.  Here the move is seen
from the entries: each goes to where its name is carried, with its attributes, and no two go to
the same place.  So the entries after the move are those before it under other names, in
number and in kind (`toList_move_perm`), and the move back brings every one of them to where it
was (`move_move`).
-/
import Mathlib.Data.List.Nodup
import DirectorySaga.Proofs.Directory.Closed

namespace DirectorySaga

/-- A name that is moved is rebased, and any other stays. -/
theorem Name.carry_eq_iff {n m old new : Name} :
    n.carry old new = m ↔
      if n = old ∨ n.isBelow old = true then n.rebase? old new = some m else n = m := by
  by_cases hn : n.Within old
  · rw [if_pos (within_iff_eq_or_isBelow.mp hn), rebase?_of_within hn, Option.some.injEq]
  · rw [if_neg (mt within_iff_eq_or_isBelow.mpr hn), carry_of_not_within hn]

namespace Directory

variable {d d' : Directory} {old new n m : Name} {attributes : Attributes}

/-! ### Where the entries go -/

/-- No two bound names are carried to the same. -/
theorem Movable.carry_injOn (h : d.Movable old new) (closed : d.ParentClosed)
    (hn : n ∈ d.entries) (hm : m ∈ d.entries) (hcarry : n.carry old new = m.carry old new) :
    n = m := by
  -- what is moved arrives within the target, where nothing was bound
  have hapart : ∀ {a b : Name}, a.Within old → ¬ b.Within old → b ∈ d.entries →
      a.carry old new ≠ b.carry old new := by
    intro a b ha hb hbound heq
    rw [Name.carry_of_not_within hb] at heq
    exact h.free_within closed (heq ▸ Name.carry_within ha) hbound
  by_cases hn' : n.Within old
  · by_cases hm' : m.Within old
    · exact Name.carry_injOn hn' hm' hcarry
    · exact absurd hcarry (hapart hn' hm' hm)
  · by_cases hm' : m.Within old
    · exact absurd hcarry.symm (hapart hm' hn' hn)
    · rwa [Name.carry_of_not_within hn', Name.carry_of_not_within hm'] at hcarry

/-- An entry keeps its attributes where it goes. -/
theorem getElem?_carry_move (h : d.Movable old new) (closed : d.ParentClosed)
    (hn : n ∈ d.entries) : (d.move old new).entries[n.carry old new]? = d.entries[n]? := by
  have hmem := carry_mem_move h closed hn
  rw [getElem?_move h closed, if_neg ((mem_move h closed).mp hmem).1]
  by_cases hold : n.Within old
  · rw [Name.carry_carry hold]
  · have hnew : ¬ n.Within new := fun hw => h.free_within closed hw hn
    rw [Name.carry_of_not_within hold, Name.carry_of_not_within hnew]

/-- **The entries after a move are those before it**, each under the name that its name is
carried to. -/
theorem getElem?_move_eq_some_iff (h : d.Movable old new) (closed : d.ParentClosed) :
    (d.move old new).entries[n]? = some attributes ↔
      ∃ m : Name, d.entries[m]? = some attributes ∧ m.carry old new = n := by
  constructor
  · intro hn
    obtain ⟨hold, hsource⟩ := (mem_move h closed).mp (mem_of_getElem? hn)
    have hback : (n.carry new old).carry old new = n := by
      by_cases hnew : n.Within new
      · exact Name.carry_carry hnew
      · rw [Name.carry_of_not_within hnew, Name.carry_of_not_within hold]
    refine ⟨n.carry new old, ?_, hback⟩
    rw [← getElem?_carry_move h closed hsource, hback, hn]
  · rintro ⟨m, hm, rfl⟩
    rw [getElem?_carry_move h closed (mem_of_getElem? hm), hm]

theorem nodup_toList (d : Directory) : d.entries.toList.Nodup := by
  have hkeys : (d.entries.toList.map Prod.fst).Nodup := by
    rw [Std.ExtTreeMap.map_fst_toList_eq_keys]
    exact Std.ExtTreeMap.nodup_keys
  exact hkeys.of_map Prod.fst

/-- **A move gives the entries other names and does nothing else to them.** -/
theorem toList_move_perm (h : d.Movable old new) (closed : d.ParentClosed) :
    (d.move old new).entries.toList.Perm
      (d.entries.toList.map fun entry => (entry.1.carry old new, entry.2)) := by
  have hmoved : (d.entries.toList.map fun entry => (entry.1.carry old new, entry.2)).Nodup := by
    refine d.nodup_toList.map_on ?_
    rintro ⟨n, a⟩ hn ⟨m, b⟩ hm heq
    rw [Std.ExtTreeMap.mem_toList_iff_getElem?_eq_some] at hn hm
    obtain ⟨hcarry, rfl⟩ := Prod.mk.injEq .. ▸ heq
    rw [h.carry_injOn closed (mem_of_getElem? hn) (mem_of_getElem? hm) hcarry]
  rw [List.perm_ext_iff_of_nodup (nodup_toList _) hmoved]
  rintro ⟨n, a⟩
  rw [Std.ExtTreeMap.mem_toList_iff_getElem?_eq_some, getElem?_move_eq_some_iff h closed,
    List.mem_map]
  constructor
  · rintro ⟨m, hm, rfl⟩
    exact ⟨(m, a), Std.ExtTreeMap.mem_toList_iff_getElem?_eq_some.mpr hm, rfl⟩
  · rintro ⟨⟨m, b⟩, hm, heq⟩
    cases heq
    exact ⟨m, Std.ExtTreeMap.mem_toList_iff_getElem?_eq_some.mp hm, rfl⟩

/-! ### The way back -/

/-- **The move back undoes the move.** -/
theorem move_move (h : d.Movable old new) (closed : d.ParentClosed) :
    (d.move old new).move new old = d := by
  refine ext_entries rfl fun n => ?_
  rw [getElem?_move (h.back closed) (closed.move h)]
  by_cases hnew : n.Within new
  · rw [if_pos hnew, not_mem_iff_getElem?.mp (h.free_within closed hnew)]
  · rw [if_neg hnew, getElem?_move h closed]
    by_cases hold : n.Within old
    · have hout : ¬ (n.carry old new).Within old :=
        fun hc => h.not_within_both closed hc (Name.carry_within hold)
      rw [if_neg hout, Name.carry_carry hold]
    · rw [Name.carry_of_not_within hold, if_neg hold, Name.carry_of_not_within hnew]

/--
**A rename loses nothing and can be taken back.**  If a rename in a closed directory succeeds,
then the entries are those from before, where each name that is the old one or lies below it
has its upper part replaced, and the others are as they were; there are as many entries as
before; and the rename in the other direction succeeds and brings back the same directory.
-/
theorem rename_lossless (closed : d.ParentClosed) (h : d.rename old new = .ok d') :
    (∀ (n : Name) (attributes : Attributes), d'.entries[n]? = some attributes ↔
      ∃ m : Name, d.entries[m]? = some attributes ∧
        if m = old ∨ m.isBelow old = true then m.rebase? old new = some n else m = n) ∧
    d'.entries.toList.Perm
      (d.entries.toList.map fun entry => (entry.1.carry old new, entry.2)) ∧
    d'.size = d.size ∧ d'.rename new old = .ok d := by
  obtain ⟨hmovable, rfl⟩ := rename_eq_ok_iff.mp h
  refine ⟨?_, toList_move_perm hmovable closed, size_move hmovable closed, ?_⟩
  · intro n attributes
    rw [getElem?_move_eq_some_iff hmovable closed]
    exact exists_congr fun m => and_congr_right' Name.carry_eq_iff
  · rw [rename_eq_ok_iff, move_move hmovable closed]
    exact ⟨hmovable.back closed, rfl⟩

/-- A unit is moved below another with the person in it. -/
theorem rename_lossless_staffed :
    let people := Name.unit "people"
    let staff := (Name.unit "firm").child (.single ⟨"ou", "staff"⟩)
    let d := staffed.seed (Name.unit "firm") .empty
    d.ParentClosed ∧ ∃ d', d.rename people staff = .ok d' ∧
      (∀ (n : Name) (attributes : Attributes), d'.entries[n]? = some attributes ↔
        ∃ m : Name, d.entries[m]? = some attributes ∧
          if m = people ∨ m.isBelow people = true then m.rebase? people staff = some n
          else m = n) ∧
      d'.entries.toList.Perm
        (d.entries.toList.map fun entry => (entry.1.carry people staff, entry.2)) ∧
      d'.size = d.size ∧ d'.rename staff people = .ok d := by
  intro people staff d
  have closed : d.ParentClosed := staffed_closed.seed ⟨.root, rfl, Or.inl rfl⟩
  have hsucceeds : (d.rename people staff).isOk = true := by decide +kernel
  cases h : d.rename people staff with
  | error e => simp [h, Except.isOk, Except.toBool] at hsucceeds
  | ok d' => exact ⟨closed, d', rfl, rename_lossless closed h⟩

end Directory

end DirectorySaga
