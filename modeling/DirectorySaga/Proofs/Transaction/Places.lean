/-
Where the parked entries are.

A commit looks for a parked entry under the temporary name that was handed out for it.
Nothing sees to it that the entry stays there: a move of anything above takes it along
like every other entry, and the temporary name on record is not updated.  Then there is
nothing to take away at commit, which fails, and the entry stays in the directory under
its new name.

`places` follows the parked entries through the moves.  As long as no write mentions a
temporary name, none of these names lies below another, and from that it can be said
exactly when a commit does what it is for (`commit_clean_iff`): each name handed out is
parked, and each parked entry is at one of these names (`Settled`).  Writes that move
nothing above a parked entry are enough for it.
-/
import DirectorySaga.Proofs.Transaction.Commit

namespace DirectorySaga

open Directory (Parked)

variable {σ : Type} {parking : Parking} {d d' start : Directory} {operation : Operation}
  {step : Step} {steps : List Step} {n t : Name}

/-! ### Following the parked entries -/

/-- What is bound before a step is bound after it, where the step has taken it. -/
theorem Step.Recorded.carry_mem (closed : d.ParentClosed)
    (recorded : Step.Recorded parking d operation step) (written : d.write step.forward = .ok d')
    (hn : n ∈ d.entries) : step.carry n ∈ d'.entries := by
  cases recorded with
  | bind name attributes =>
    obtain ⟨-, -, rfl⟩ := Directory.bind_eq_ok_iff.mp written
    exact Directory.mem_seed.mpr (Or.inr hn)
  | rebind name attributes =>
    obtain ⟨-, rfl⟩ := Directory.rebind_eq_ok_iff.mp written
    exact Directory.mem_seed.mpr (Or.inr hn)
  | modifyAttributes items found =>
    obtain ⟨-, -, -, -, rfl⟩ := Directory.modifyAttributes_eq_ok_iff.mp written
    exact Directory.mem_seed.mpr (Or.inr hn)
  | rename old new =>
    obtain ⟨hmovable, rfl⟩ := Directory.rename_eq_ok_iff.mp written
    exact Directory.carry_mem_move hmovable closed hn
  | unbind leaf formed =>
    obtain ⟨hmovable, rfl⟩ := Directory.rename_eq_ok_iff.mp written
    exact Directory.carry_mem_move hmovable closed hn

theorem Step.Recorded.temporary_mem (closed : d.ParentClosed)
    (recorded : Step.Recorded parking d operation step) (written : d.write step.forward = .ok d')
    (ht : t ∈ step.temporary?.toList) : t ∈ d'.entries := by
  obtain ⟨name, -, rfl, -⟩ := recorded.of_temporary ht
  obtain ⟨hmovable, rfl⟩ := Directory.rename_eq_ok_iff.mp written
  exact (hmovable.back closed).bound

/-- No parked entry is ever lost. -/
theorem Transaction.History.places_mem (h : History parking start steps d)
    (closed : start.ParentClosed) : ∀ p ∈ Step.places steps, p ∈ d.entries := by
  induction h with
  | nil =>
    intro p hp
    cases hp
  | cons before recorded written ih =>
    intro p hp
    have hclosed := before.closed closed
    rcases List.mem_append.mp hp with hnew | hold
    · exact recorded.temporary_mem hclosed written hnew
    · obtain ⟨n, hn, rfl⟩ := List.mem_map.mp hold
      exact recorded.carry_mem hclosed written (ih n hn)

/-! ### Counting -/

/-- Whether the operation adds an entry if it succeeds. -/
def Operation.addsTo (d : Directory) : Operation → Bool
  | .bind .. => true
  | .rebind name _ => !d.contains name
  | _ => false

/-- Whether the attempt adds an entry. -/
def Transaction.Attempt.adds (a : Attempt Directory) : Bool :=
  a.succeeds && a.operation.addsTo a.world.directory

/-- Whether the attempt takes an entry away. -/
def Transaction.Attempt.removes (a : Attempt σ) : Bool :=
  a.succeeds && a.operation.kind == .unbind

theorem Step.Recorded.size (closed : d.ParentClosed)
    (recorded : Step.Recorded parking d operation step) (written : d.write step.forward = .ok d') :
    d'.size = d.size + (operation.addsTo d).toNat := by
  cases recorded with
  | bind name attributes =>
    obtain ⟨hfree, -, rfl⟩ := Directory.bind_eq_ok_iff.mp written
    exact Directory.size_seed_free hfree
  | rebind name attributes =>
    obtain ⟨-, rfl⟩ := Directory.rebind_eq_ok_iff.mp written
    by_cases hmem : name ∈ d.entries
    · rw [Directory.size_seed_bound hmem, Operation.addsTo, Directory.contains_iff.mpr hmem]
      rfl
    · have hcontains : d.contains name = false := by
        rw [← Bool.not_eq_true, Directory.contains_iff]
        exact hmem
      rw [Directory.size_seed_free hmem, Operation.addsTo, hcontains]
      rfl
  | modifyAttributes items found =>
    obtain ⟨before, after, hbefore, -, rfl⟩ := Directory.modifyAttributes_eq_ok_iff.mp written
    exact Directory.size_seed_bound (Directory.mem_of_getElem? hbefore)
  | rename old new =>
    obtain ⟨hmovable, rfl⟩ := Directory.rename_eq_ok_iff.mp written
    exact Directory.size_move hmovable closed
  | unbind leaf formed =>
    obtain ⟨hmovable, rfl⟩ := Directory.rename_eq_ok_iff.mp written
    exact Directory.size_move hmovable closed

theorem Step.Recorded.length_temporary (recorded : Step.Recorded parking d operation step) :
    step.temporary?.toList.length = (operation.kind == .unbind).toNat := by
  cases recorded <;> rfl

namespace Transaction

/-- **The balance of a run.**  Before the commit a removal has taken no entry away, but it
has handed out a temporary name. -/
theorem performAll_balance : ∀ (operations : List Operation) (tx : Transaction Directory)
    (w : World Directory), tx.service = Directory.service → w.directory.ParentClosed →
      (tx.performAll operations w).2.directory.size =
          w.directory.size + (tx.attempts operations w).countP Attempt.adds ∧
        (tx.performAll operations w).1.temporaries.length =
          tx.temporaries.length + (tx.attempts operations w).countP Attempt.removes := by
  intro operations
  induction operations with
  | nil =>
    intro tx w _ _
    exact ⟨rfl, rfl⟩
  | cons operation more ih =>
    intro tx w htx closed
    rw [performAll_cons, attempts_cons, List.countP_cons, List.countP_cons]
    rcases perform_cases htx operation w with
      ⟨e, hfail, hsteps, hd⟩ | ⟨step, hok, hsteps, recorded, written⟩
    · have hfails : (Attempt.mk tx w operation).succeeds = false := by
        rw [Attempt.succeeds, Attempt.result, hfail]
        rfl
      obtain ⟨hsize, hlength⟩ := ih (tx.perform operation w).2.1 _ htx (hd ▸ closed)
      rw [hsize, hlength, temporaries, hsteps, hd, Attempt.adds, Attempt.removes, hfails]
      exact ⟨rfl, rfl⟩
    · have hsucceeds : (Attempt.mk tx w operation).succeeds = true := Attempt.succeeds_iff.mpr hok
      obtain ⟨hsize, hlength⟩ := ih (tx.perform operation w).2.1 _ htx (closed.write written)
      have hadds := recorded.size closed written
      have hremoves := recorded.length_temporary
      rw [hsize, hlength, temporaries_cons hsteps, List.length_append, Attempt.adds,
        Attempt.removes, hsucceeds, hadds, hremoves, Bool.true_and, Bool.true_and]
      cases operation.addsTo w.directory <;> cases operation.kind == .unbind <;>
        simp <;> omega

/-! ### What was handed out, and to what -/

/-- A temporary name comes from a removal. -/
theorem mem_temporaries_performAll : ∀ (operations : List Operation) (tx : Transaction Directory)
    (w : World Directory), tx.service = Directory.service →
      ∀ t ∈ (tx.performAll operations w).1.temporaries, t ∈ tx.temporaries ∨
        ∃ name, Operation.unbind name ∈ operations ∧ tx.parking.Forms name t := by
  intro operations
  induction operations with
  | nil =>
    intro tx w _ t ht
    exact Or.inl ht
  | cons operation more ih =>
    intro tx w htx t ht
    rw [performAll_cons] at ht
    rcases ih (tx.perform operation w).2.1 _ htx t ht with hbefore | ⟨name, hmem, hforms⟩
    · rcases perform_cases htx operation w with
        ⟨-, -, hsteps, -⟩ | ⟨step, -, hsteps, recorded, -⟩
      · rw [temporaries, hsteps] at hbefore
        exact Or.inl hbefore
      · rw [temporaries_cons hsteps] at hbefore
        rcases List.mem_append.mp hbefore with hnew | hold
        · obtain ⟨name, rfl, -, formed⟩ := recorded.of_temporary hnew
          exact Or.inr ⟨name, List.mem_cons_self, formed⟩
        · exact Or.inl hold
    · exact Or.inr ⟨name, List.mem_cons_of_mem _ hmem, hforms⟩

theorem temporaries_subset_performAll : ∀ (operations : List Operation)
    (tx : Transaction Directory) (w : World Directory), tx.service = Directory.service →
      tx.temporaries ⊆ (tx.performAll operations w).1.temporaries := by
  intro operations
  induction operations with
  | nil =>
    intro tx w _ t ht
    exact ht
  | cons operation more ih =>
    intro tx w htx t ht
    rw [performAll_cons]
    refine ih (tx.perform operation w).2.1 _ htx ?_
    rcases perform_cases htx operation w with ⟨-, -, hsteps, -⟩ | ⟨step, -, hsteps, -, -⟩
    · rw [temporaries, hsteps]
      exact ht
    · rw [temporaries_cons hsteps]
      exact List.mem_append_right _ ht

/-- An attempt is of one of the operations, and what was parked before it stays on record. -/
theorem of_mem_attempts : ∀ (operations : List Operation) (tx : Transaction Directory)
    (w : World Directory), tx.service = Directory.service → ∀ a ∈ tx.attempts operations w,
      a.operation ∈ operations ∧
        a.tx.temporaries ⊆ (tx.performAll operations w).1.temporaries := by
  intro operations
  induction operations with
  | nil =>
    intro tx w _ a ha
    cases ha
  | cons operation more ih =>
    intro tx w htx a ha
    rw [attempts_cons] at ha
    rcases List.mem_cons.mp ha with rfl | ha
    · exact ⟨List.mem_cons_self, temporaries_subset_performAll (operation :: more) tx w htx⟩
    · obtain ⟨hmem, hsubset⟩ := ih (tx.perform operation w).2.1 _ htx a ha
      exact ⟨List.mem_cons_of_mem _ hmem, hsubset⟩

/-! ### Clean commits -/

/-- Each temporary name on record is parked, and each parked entry is at one of these names. -/
structure Settled (tx : Transaction Directory) (w : World Directory) : Prop where
  parked : Parked tx.temporaries w.directory
  placed : ∀ p ∈ tx.places, p ∈ tx.temporaries

theorem InOrder.settled {tx : Transaction Directory} {w : World Directory} (h : tx.InOrder w) :
    tx.Settled w where
  parked := h.parked
  placed := fun p hp => by
    rw [← h.inPlace]
    exact hp

section Commit

variable {tx : Transaction Directory} {w : World Directory}
  (htx : tx.service = Directory.service)
  (apart : ∀ t ∈ tx.temporaries, ∀ u ∈ tx.temporaries, t.Within u → t = u)

include htx apart

/-- A commit that succeeds and finds every parked entry is one of a settled transaction. -/
theorem commit_finds_iff (hplaces : ∀ p ∈ tx.places, p ∈ w.directory.entries) :
    ((tx.commit w).1 = .ok () ∧ ∀ p ∈ tx.places, p ∉ (tx.commit w).2.2.directory.entries) ↔
      tx.Settled w := by
  constructor
  · rintro ⟨hok, hgone⟩
    obtain ⟨hparked, hleft⟩ := (commit_ok_iff htx apart _).mp ⟨hok, rfl⟩
    refine ⟨hparked, fun p hp => ?_⟩
    have hnot := hgone p hp
    rw [hleft, Directory.mem_without] at hnot
    exact Classical.not_not.mp fun hout => hnot ⟨hplaces p hp, hout⟩
  · intro h
    obtain ⟨hok, hleft⟩ := (commit_ok_iff htx apart _).mpr ⟨h.parked, rfl⟩
    refine ⟨hok, fun p hp hmem => ?_⟩
    rw [hleft, Directory.mem_without] at hmem
    exact hmem.2 (h.placed p hp)

/-- A commit that succeeds takes away one entry for each temporary name. -/
theorem size_commit (hok : (tx.commit w).1 = .ok ()) :
    (tx.commit w).2.2.directory.size + tx.temporaries.length = w.directory.size := by
  obtain ⟨hparked, hleft⟩ := (commit_ok_iff htx apart _).mp ⟨hok, rfl⟩
  rw [hleft]
  exact hparked.size

end Commit

section Run

variable {operations : List Operation} {w : World Directory}
  (apart : ∀ operation ∈ operations,
    ∀ t ∈ ((inMemory parking).performAll operations w).1.temporaries,
      ∀ n ∈ operation.names, ¬ n.Within t)

include apart

/-- No temporary name lies below another if the writes mention none of them. -/
theorem temporaries_apart : ∀ t ∈ ((inMemory parking).performAll operations w).1.temporaries,
    ∀ u ∈ ((inMemory parking).performAll operations w).1.temporaries, t.Within u → t = u := by
  intro t ht u hu
  have horigin := mem_temporaries_performAll operations (inMemory parking) w rfl
  obtain ⟨name, hname, hforms⟩ := (horigin t ht).resolve_left List.not_mem_nil
  obtain ⟨other, -, hother⟩ := (horigin u hu).resolve_left List.not_mem_nil
  exact hforms.eq_of_within hother (apart _ hname u hu name List.mem_cons_self)

/-- Without a move above a parked entry all is in order at the end. -/
theorem inOrder_of_still (closed : w.directory.ParentClosed)
    (still : ∀ a ∈ (inMemory parking).attempts operations w, a.succeeds = true →
      ∀ old ∈ a.operation.moved?, ∀ t ∈ a.tx.temporaries, t.isBelow old = false) :
    ((inMemory parking).performAll operations w).1.InOrder
      ((inMemory parking).performAll operations w).2 := by
  have hstart : (inMemory parking).InOrder w := inOrder_start parking w closed
  refine (InOrder.performAll operations (inMemory parking) w hstart ?_).1
  intro a ha hsucceeds t ht
  obtain ⟨hmem, hsubset⟩ := of_mem_attempts operations (inMemory parking) w rfl a ha
  refine ⟨apart a.operation hmem t (hsubset ht), fun old hold => ?_⟩
  exact still a ha hsucceeds old hold t ht

end Run

/--
**When a commit is clean.**  Let any writes be attempted through a transaction over a closed
directory, none of them mentioning a temporary name of the transaction or a name below one.
The commit succeeds, leaves the right number of entries and leaves no parked entry behind
just when the transaction is settled by then.  It is enough for this that no write that
succeeds has moved anything above an entry that was parked before.
-/
theorem commit_clean_iff (parking : Parking) (operations : List Operation) (d : Directory)
    (sequences : Sequences) (closed : d.ParentClosed)
    (apart : ∀ operation ∈ operations,
      ∀ t ∈ ((inMemory parking).performAll operations ⟨d, sequences⟩).1.temporaries,
        ∀ n ∈ operation.names, ¬ n.Within t) :
    let run := (inMemory parking).performAll operations ⟨d, sequences⟩
    let attempts := (inMemory parking).attempts operations ⟨d, sequences⟩
    let committed := run.1.commit run.2
    let left := committed.2.2.directory
    ((committed.1 = .ok () ∧
        left.size + attempts.countP Attempt.removes = d.size + attempts.countP Attempt.adds ∧
        ∀ p ∈ run.1.places, p ∉ left.entries) ↔ run.1.Settled run.2) ∧
      ((∀ a ∈ attempts, a.succeeds = true → ∀ old ∈ a.operation.moved?,
        ∀ t ∈ a.tx.temporaries, t.isBelow old = false) → run.1.Settled run.2) := by
  intro run attempts committed left
  have hservice : run.1.service = Directory.service := service_performAll operations _ _
  have hapart := temporaries_apart apart
  have hplaces : ∀ p ∈ run.1.places, p ∈ run.2.directory.entries :=
    (inMemory_history parking operations ⟨d, sequences⟩).places_mem closed
  have hfinds := commit_finds_iff hservice hapart hplaces
  refine ⟨⟨fun ⟨hok, _, hgone⟩ => hfinds.mp ⟨hok, hgone⟩, fun hsettled => ?_⟩, fun still => ?_⟩
  · obtain ⟨hok, hgone⟩ := hfinds.mpr hsettled
    refine ⟨hok, ?_, hgone⟩
    obtain ⟨hsize, hlength⟩ :=
      performAll_balance operations (inMemory parking) ⟨d, sequences⟩ rfl closed
    have hsize : run.2.directory.size = d.size + attempts.countP Attempt.adds := hsize
    have hlength : run.1.temporaries.length = 0 + attempts.countP Attempt.removes := hlength
    have hcommit : left.size + run.1.temporaries.length = run.2.directory.size :=
      size_commit hservice hapart hok
    omega
  · exact (inOrder_of_still apart closed still).settled

/-- A unit is moved with an entry parked in it, and moved back before the commit. -/
theorem commit_clean_after_return :
    let people := Name.unit "people"
    let staff := Name.unit "staff"
    let operations : List Operation :=
      [.unbind (people.member "ann"), .rename people staff, .unbind staff,
        .rename staff people, .bind (people.member "bob") .empty]
    let run := (inMemory .default).performAll operations ⟨Directory.staffed, .initial⟩
    let attempts := (inMemory .default).attempts operations ⟨Directory.staffed, .initial⟩
    let committed := run.1.commit run.2
    let left := committed.2.2.directory
    Directory.staffed.ParentClosed ∧
      (∀ operation ∈ operations, ∀ t ∈ run.1.temporaries,
        ∀ n ∈ operation.names, ¬ n.Within t) ∧
      run.1.Settled run.2 ∧
      committed.1 = .ok () ∧
      left.size + attempts.countP Attempt.removes =
        Directory.staffed.size + attempts.countP Attempt.adds ∧
      ∀ p ∈ run.1.places, p ∉ left.entries := by
  intro people staff operations
  have closed : Directory.staffed.ParentClosed := Directory.staffed_closed
  have apart : ∀ operation ∈ operations,
      ∀ t ∈ ((inMemory .default).performAll operations
        ⟨Directory.staffed, .initial⟩).1.temporaries,
        ∀ n ∈ operation.names, ¬ n.Within t := by decide +kernel
  have settled : ((inMemory .default).performAll operations
      ⟨Directory.staffed, .initial⟩).1.Settled ((inMemory .default).performAll operations
      ⟨Directory.staffed, .initial⟩).2 :=
    ⟨⟨by decide +kernel, by decide +kernel, by decide +kernel⟩, by decide +kernel⟩
  have clean := commit_clean_iff .default operations Directory.staffed .initial closed apart
  exact ⟨closed, apart, settled, clean.1.mpr settled⟩

/-- **A parked entry that is moved survives the commit.**  A person is taken away and then the
unit is moved, which takes the parked entry along.  The commit fails, and the entry is still
there under its temporary name in the moved unit. -/
theorem commit_fails_after_move :
    let people := Name.unit "people"
    let staff := Name.unit "staff"
    let operations : List Operation :=
      [.unbind (people.member "ann"), .rename people staff]
    let run := (inMemory .default).performAll operations ⟨Directory.staffed, .initial⟩
    let attempts := (inMemory .default).attempts operations ⟨Directory.staffed, .initial⟩
    let committed := run.1.commit run.2
    let left := committed.2.2.directory
    Directory.staffed.ParentClosed ∧
      (∀ operation ∈ operations, ∀ t ∈ run.1.temporaries,
        ∀ n ∈ operation.names, ¬ n.Within t) ∧
      (∀ a ∈ attempts, a.succeeds = true) ∧
      committed.1 ≠ .ok () ∧
      left.size + attempts.countP Attempt.removes ≠
        Directory.staffed.size + attempts.countP Attempt.adds ∧
      run.1.places = [staff.member "ann_temp"] ∧
      staff.member "ann_temp" ∈ left.entries := by
  refine ⟨Directory.staffed_closed, by decide +kernel, by decide +kernel, fun hok => ?_,
    by decide +kernel, by decide +kernel, by decide +kernel⟩
  have hfails : ∀ result : Except TransactionError Unit, result.isOk = false → result ≠ .ok () := by
    rintro _ h rfl
    cases h
  exact hfails _ (by decide +kernel) hok

end Transaction

end DirectorySaga
