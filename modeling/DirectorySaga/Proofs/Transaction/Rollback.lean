/-
Rolling a transaction back.

A rollback sends the inverses of the steps, the newest first.  It succeeds whatever the
transaction has done, and it restores the directory from before the transaction, with
one reservation: attributes that had no values then may be gone.

The argument goes backwards through the history.  On the way back the directory is not
quite the one that the step left behind, since later steps may have lost such
attributes, so the invariant is `Restores` and not equality.  It is enough for every
check that an inverse makes, because those only ask which names are bound.  What an
inverse needs beyond that comes from the step itself, and from the directory having been
closed when the step was carried out: nothing hangs below an entry that was just added,
and the place that a subtree was moved away from is still there and still free.
-/
import DirectorySaga.Proofs.Attributes.Compensation
import DirectorySaga.Proofs.Transaction.Run

namespace DirectorySaga

/-! ### Restored directories -/

namespace Directory

variable {now before d : Directory} {name old new n : Name} {attributes : Attributes}

/-- The directory binds the names that `before` binds, each with the attributes it has
there, except that attributes that have no values there may be missing. -/
def Restores (now before : Directory) : Prop :=
  ∀ name : Name, Option.Rel Attributes.Restores now.entries[name]? before.entries[name]?

/-- The directories bind the same names with equal attributes. -/
def Same (now before : Directory) : Prop :=
  ∀ name : Name, Option.Rel (fun s t => (s == t) = true) now.entries[name]? before.entries[name]?

/-- No entry has an attribute without values. -/
def HasValues (d : Directory) : Prop :=
  ∀ (name : Name) (attributes : Attributes),
    d.entries[name]? = some attributes → attributes.HasValues

theorem Restores.refl (d : Directory) : d.Restores d := by
  intro name
  cases d.entries[name]? with
  | none => exact .none
  | some attributes => exact .some (Attributes.Restores.refl attributes)

theorem Restores.same (h : now.Restores before) (hvalues : before.HasValues) : now.Same before := by
  intro name
  have hname := h name
  have hname_values := hvalues name
  generalize now.entries[name]? = s at hname ⊢
  generalize before.entries[name]? = t at hname hname_values ⊢
  cases hname with
  | none => exact .none
  | some hst => exact .some (hst.beq (hname_values _ rfl))

theorem Restores.mem_iff (h : now.Restores before) : n ∈ now.entries ↔ n ∈ before.entries := by
  refine mem_congr ?_
  have hname := h n
  generalize now.entries[n]? = s at hname ⊢
  generalize before.entries[n]? = t at hname ⊢
  cases hname with
  | none => rfl
  | some _ => rfl

theorem HasPlace.congr (h : before.HasPlace name)
    (hmem : ∀ n, n ∈ before.entries → n ∈ now.entries) : now.HasPlace name := by
  obtain ⟨parent, hp, hplace⟩ := h
  exact ⟨parent, hp, hplace.imp_right (hmem parent)⟩

theorem Movable.congr (h : before.Movable old new)
    (hmem : ∀ n, n ∈ now.entries ↔ n ∈ before.entries) : now.Movable old new where
  bound := (hmem old).mpr h.bound
  free := mt (hmem new).mp h.free
  outside := h.outside
  place := h.place.congr fun n => (hmem n).mpr

/-! ### Undoing the changes -/

/-- Apart from the entry that was set, the directory before is restored as well. -/
private theorem Restores.of_seed (h : now.Restores (d.seed name attributes)) (hn : name ≠ n) :
    Option.Rel Attributes.Restores now.entries[n]? d.entries[n]? := by
  have hsame := h n
  rwa [getElem?_seed, if_neg hn] at hsame

/-- Setting the entry back to what restores its attributes restores the directory. -/
private theorem Restores.seed {restored overwritten : Attributes}
    (h : now.Restores (d.seed name attributes)) (hfound : d.entries[name]? = some overwritten)
    (hrestored : restored.Restores overwritten) : (now.seed name restored).Restores d := by
  intro n
  rw [getElem?_seed]
  by_cases hn : name = n
  · subst hn
    rw [if_pos rfl, hfound]
    exact .some hrestored
  · rw [if_neg hn]
    exact h.of_seed hn

/-- An entry that was added can be taken away. -/
theorem undo_addition (closed : d.ParentClosed) (hfree : name ∉ d.entries)
    (hplace : d.HasPlace name) (hnow : now.Restores (d.seed name attributes)) :
    ∃ back, now.unbind name = .ok back ∧ back.Restores d := by
  have hbound : name ∈ now.entries := hnow.mem_iff.mpr (mem_seed.mpr (Or.inl rfl))
  have hleaf : now.hasBelow name = false := by
    rw [not_hasBelow_iff]
    intro n hn hw
    rcases mem_seed.mp (hnow.mem_iff.mp hn) with rfl | hn
    · rfl
    · exact absurd (closed.mem_of_within hn hw hplace.ne_root) hfree
  refine ⟨now.remove name, unbind_eq_ok_iff.mpr ⟨hbound, hleaf, rfl⟩, fun n => ?_⟩
  rw [getElem?_remove]
  by_cases hn : name = n
  · subst hn
    rw [if_pos rfl, not_mem_iff_getElem?.mp hfree]
    exact .none
  · rw [if_neg hn]
    exact hnow.of_seed hn

/-- An entry that was overwritten can be set back. -/
theorem undo_overwriting {overwritten : Attributes} (hfound : d.entries[name]? = some overwritten)
    (hplace : d.HasPlace name) (hnow : now.Restores (d.seed name attributes)) :
    ∃ back, now.rebind name overwritten = .ok back ∧ back.Restores d := by
  have hplace' : now.HasPlace name :=
    hplace.congr fun n hn => hnow.mem_iff.mpr (mem_seed.mpr (Or.inr hn))
  exact ⟨now.seed name overwritten, rebind_eq_ok_iff.mpr ⟨hplace', rfl⟩,
    hnow.seed hfound (Attributes.Restores.refl overwritten)⟩

/-- A subtree that was moved can be moved back. -/
theorem undo_move (closed : d.ParentClosed) (h : d.Movable old new)
    (hnow : now.Restores (d.move old new)) :
    ∃ back, now.rename new old = .ok back ∧ back.Restores d := by
  have hmem : ∀ n, n ∈ now.entries ↔ n ∈ (d.move old new).entries := fun _ => hnow.mem_iff
  have hback : now.Movable new old := (h.back closed).congr hmem
  have hclosed : now.ParentClosed := (closed.move h).congr hmem
  refine ⟨now.move new old, rename_eq_ok_iff.mpr ⟨hback, rfl⟩, fun n => ?_⟩
  rw [getElem?_move hback hclosed]
  by_cases hnew : n.Within new
  · rw [if_pos hnew, not_mem_iff_getElem?.mp (h.free_within closed hnew)]
    exact .none
  · rw [if_neg hnew]
    have hsame := hnow (n.carry old new)
    rw [getElem?_move h closed] at hsame
    by_cases hold : n.Within old
    · have hout : ¬ (n.carry old new).Within old :=
        fun hc => h.not_within_both closed hc (Name.carry_within hold)
      rwa [if_neg hout, Name.carry_carry hold] at hsame
    · rw [Name.carry_of_not_within hold] at hsame ⊢
      rwa [if_neg hold, Name.carry_of_not_within hnew] at hsame

/-- A modification can be taken back by the items recorded with it. -/
theorem undo_modification {overwritten after : Attributes} {items : List Modification}
    (hfound : d.entries[name]? = some overwritten)
    (hmodify : overwritten.modify name items = .ok after)
    (hnow : now.Restores (d.seed name after)) :
    ∃ back, now.modifyAttributes name (overwritten.compensatingItems items) = .ok back ∧
      back.Restores d := by
  have hname := hnow name
  rw [getElem?_seed, if_pos rfl] at hname
  cases hcurrent : now.entries[name]? with
  | none =>
    rw [hcurrent] at hname
    cases hname
  | some current =>
    rw [hcurrent] at hname
    cases hname with
    | some hrestores =>
      obtain ⟨restored, hback, hrestored⟩ :=
        Attributes.compensatingItems_restores hmodify hrestores
      exact ⟨now.seed name restored,
        modifyAttributes_eq_ok_iff.mpr ⟨current, restored, hcurrent, hback, rfl⟩,
        hnow.seed hfound hrestored⟩

end Directory

/-! ### Undoing a step -/

/-- **The inverse of a step can be carried out and restores the directory before the step.** -/
theorem Step.Recorded.undo {parking : Parking} {d d' now : Directory} {operation : Operation}
    {step : Step} (closed : d.ParentClosed) (hrecorded : Step.Recorded parking d operation step)
    (hwrite : d.write step.forward = .ok d') (hnow : now.Restores d') :
    ∃ back, now.write step.inverse = .ok back ∧ back.Restores d := by
  cases hrecorded with
  | bind name attributes =>
    obtain ⟨hfree, hplace, rfl⟩ := Directory.bind_eq_ok_iff.mp hwrite
    exact Directory.undo_addition closed hfree hplace hnow
  | rebind name attributes =>
    obtain ⟨hplace, rfl⟩ := Directory.rebind_eq_ok_iff.mp hwrite
    cases hfound : d.entries[name]? with
    | none =>
      have hfree := Directory.not_mem_iff_getElem?.mpr hfound
      exact Directory.undo_addition closed hfree hplace hnow
    | some overwritten => exact Directory.undo_overwriting hfound hplace hnow
  | rename old new =>
    obtain ⟨hmovable, rfl⟩ := Directory.rename_eq_ok_iff.mp hwrite
    exact Directory.undo_move closed hmovable hnow
  | unbind leaf formed =>
    obtain ⟨hmovable, rfl⟩ := Directory.rename_eq_ok_iff.mp hwrite
    exact Directory.undo_move closed hmovable hnow
  | modifyAttributes items found =>
    obtain ⟨before, after, hbefore, hmodify, rfl⟩ := Directory.modifyAttributes_eq_ok_iff.mp hwrite
    obtain rfl := Option.some.inj (found.symm.trans hbefore)
    exact Directory.undo_modification found hmodify hnow

/-! ### Undoing a history -/

namespace Transaction

/-- The inverses of a history, the newest first, can be carried out from any directory that
restores the last one, and restore the first one. -/
theorem History.undo {parking : Parking} {start d : Directory} {steps : List Step}
    (closed : start.ParentClosed) (h : History parking start steps d) :
    ∀ now : Directory, now.Restores d →
      ∃ back, now.writeAll (steps.map Step.inverse) = .ok back ∧ back.Restores start := by
  induction h with
  | nil =>
    intro now hnow
    exact ⟨now, rfl, hnow⟩
  | cons before recorded written ih =>
    intro now hnow
    obtain ⟨between, hinverse, hbetween⟩ := recorded.undo (before.closed closed) written hnow
    obtain ⟨back, hwrites, hback⟩ := ih between hbetween
    refine ⟨back, ?_, hback⟩
    rw [List.map_cons, Directory.writeAll_cons_eq_ok_iff]
    exact ⟨between, hinverse, hwrites⟩

/--
**A rollback restores the directory.**  Whatever writes were attempted through a
transaction over a closed directory, and whichever of them succeeded, the rollback
succeeds.  Afterwards the names from before are bound and no others, each with the
attributes from before, only that attributes that had no values then may be missing; so
if there were none of those, the directory is the same as before.
-/
theorem rollback_restores (parking : Parking) (operations : List Operation) (d : Directory)
    (sequences : Sequences) (closed : d.ParentClosed) :
    let run := (inMemory parking).performAll operations ⟨d, sequences⟩
    let rolled := run.1.rollback run.2
    rolled.1 = .ok () ∧ rolled.2.2.directory.Restores d ∧
      (d.HasValues → rolled.2.2.directory.Same d) := by
  intro run rolled
  have hservice : run.1.service = Directory.service := service_performAll operations _ _
  have hhistory : History parking d run.1.steps run.2.directory :=
    inMemory_history parking operations ⟨d, sequences⟩
  obtain ⟨back, hwrites, hback⟩ :=
    hhistory.undo closed run.2.directory (Directory.Restores.refl run.2.directory)
  obtain ⟨hok, hdirectory⟩ := (complete_ok_iff hservice .rollback run.2 back).mpr hwrites
  have hrestores : rolled.2.2.directory.Restores d := hdirectory ▸ hback
  exact ⟨hok, hrestores, hrestores.same⟩

/-- A unit is moved while one of its entries is parked in it, an entry is added, changed and
taken away, and some writes are refused. -/
theorem rollback_restores_staffed :
    Directory.staffed.ParentClosed ∧ Directory.staffed.HasValues ∧
      (let people := Name.unit "people"
       let staff := Name.unit "staff"
       let run := (inMemory .default).performAll
        [.unbind (people.member "ann"), .unbind people, .rename people staff,
          .bind (people.member "bob") .empty, .bind (staff.member "bob") .empty,
          .modifyAttributes (staff.member "bob") [⟨.add, .named "mail"⟩],
          .unbind (staff.member "bob")] ⟨Directory.staffed, .initial⟩
       let rolled := run.1.rollback run.2
       rolled.1 = .ok () ∧ rolled.2.2.directory.Same Directory.staffed) := by
  have closed : Directory.staffed.ParentClosed := Directory.staffed_closed
  have hvalues : Directory.staffed.HasValues := by
    intro name attributes h
    simp only [Directory.staffed, Directory.getElem?_seed] at h
    grind [Directory.empty, Attributes.HasValues, Attributes.empty]
  obtain ⟨hok, -, hsame⟩ := rollback_restores .default _ Directory.staffed .initial closed
  exact ⟨closed, hvalues, hok, hsame hvalues⟩

end Transaction

end DirectorySaga
