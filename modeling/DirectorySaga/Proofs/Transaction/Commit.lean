/-
What a commit does.

A commit takes the parked entries away, the oldest first, and does nothing else.  So the
question is what has become of them since.  As long as every write avoids the temporary
names handed out before it, they are where they were put, and the run is a simulation:
the directory read without the parked entries goes through the states that the plain
writes would have taken it through.  The commit turns that reading into the fact.

To avoid a temporary name is not to mention it, nor any name below it, and not to move
away what is above it.  That a new temporary name stays clear of the earlier ones needs
no assumption, it comes from how temporary names are formed.
-/
import DirectorySaga.Proofs.Directory.Parked
import DirectorySaga.Proofs.Transaction.Run

namespace DirectorySaga

/-! ### Avoiding a name -/

namespace Operation

/-- The names that the operation is called with. -/
def names : Operation → List Name
  | bind name _ | rebind name _ | unbind name | modifyAttributes name _ => [name]
  | rename old new => [old, new]

/-- The base of the subtree that the operation moves, if it is a move. -/
def moved? : Operation → Option Name
  | rename old _ => some old
  | _ => none

/-- The operation does not mention the name or one below it, nor does it move anything above
the name. -/
structure Avoids (operation : Operation) (t : Name) : Prop where
  apart : ∀ n ∈ operation.names, ¬ n.Within t
  still : ∀ old ∈ operation.moved?, t.isBelow old = false

instance (operation : Operation) (t : Name) : Decidable (operation.Avoids t) :=
  decidable_of_iff ((∀ n ∈ operation.names, ¬ n.Within t) ∧
    ∀ old ∈ operation.moved?, t.isBelow old = false) ⟨fun h => ⟨h.1, h.2⟩, fun h => ⟨h.1, h.2⟩⟩

/-- A name that a move avoids is neither within the moved subtree nor above either end. -/
theorem Avoids.of_rename {old new t : Name} (h : (Operation.rename old new).Avoids t) :
    ¬ old.Within t ∧ ¬ t.Within old ∧ ¬ new.Within t := by
  have hold := h.apart old (by simp [names])
  refine ⟨hold, fun hw => ?_, h.apart new (by simp [names])⟩
  obtain rfl : t = old := Name.not_isBelow_iff.mp (h.still old rfl) hw
  exact hold (Name.within_refl t)

end Operation

/-! ### Temporary names -/

/-- The name under which the step has parked an entry, if it has. -/
def Step.temporary? : Step → Option Name
  | .unbind _ temporary => some temporary
  | _ => none

/-- The names under which the transaction has parked entries, the newest first. -/
def Transaction.temporaries {σ : Type} (tx : Transaction σ) : List Name :=
  tx.steps.filterMap Step.temporary?

/-- Only a removal parks an entry, and its name is one that the rule can give. -/
theorem Step.Recorded.of_temporary {parking : Parking} {d : Directory} {operation : Operation}
    {step : Step} {t : Name} (recorded : Step.Recorded parking d operation step)
    (ht : t ∈ step.temporary?.toList) :
    ∃ name, operation = .unbind name ∧ step = .unbind name t ∧ parking.Forms name t := by
  cases recorded with
  | @unbind name temporary leaf formed =>
    obtain rfl : t = temporary := by simpa [Step.temporary?] using ht
    exact ⟨name, rfl, rfl, formed⟩
  | bind name attributes => cases ht
  | rebind name attributes => cases ht
  | rename old new => cases ht
  | modifyAttributes items found => cases ht

theorem Step.final?_eq (step : Step) : step.final? = step.temporary?.map Operation.unbind := by
  cases step <;> rfl

theorem Transaction.completions_commit {σ : Type} (tx : Transaction σ) :
    tx.completions .commit = tx.temporaries.reverse.map Operation.unbind := by
  have hfinal : Step.final? = fun step => step.temporary?.map Operation.unbind :=
    funext Step.final?_eq
  rw [temporaries, ← List.filterMap_reverse, List.map_filterMap, ← hfinal]
  rfl

/-- Where the step takes what is bound at the name. -/
def Step.carry (step : Step) (n : Name) : Name :=
  match step.forward with
  | .rename old new => n.carry old new
  | _ => n

/-- Where the entries are that the steps, the newest first, have parked. -/
def Step.places : List Step → List Name
  | [] => []
  | step :: older => step.temporary?.toList ++ (places older).map step.carry

/-- Where the entries are that the transaction has parked. -/
def Transaction.places {σ : Type} (tx : Transaction σ) : List Name := Step.places tx.steps

/-- A new temporary name is not below an old one unless the entry itself was. -/
theorem Parking.Forms.eq_of_within {parking : Parking} {name temporary other t : Name}
    (h : parking.Forms name temporary) (ht : parking.Forms other t) (hname : ¬ name.Within t)
    (hw : temporary.Within t) : temporary = t := by
  obtain ⟨s, h⟩ := h
  obtain ⟨s', ht⟩ := ht
  obtain ⟨levels⟩ := name
  obtain ⟨levels'⟩ := other
  cases levels with
  | nil => cases h
  | cons leaf above =>
    cases levels' with
    | nil => cases ht
    | cons leaf' above' =>
      cases parking with
      | suffix text =>
        -- the entry is parked below its own parent
        cases h
        rcases Name.child_within_iff.mp hw with heq | hparent
        · exact heq
        · exact absurd (Name.child_within_iff.mpr (Or.inr hparent)) hname
      | subtree node sequence =>
        -- both are parked right below the node
        cases h
        cases ht
        rcases Name.child_within_iff.mp hw with heq | hnode
        · exact heq
        · exact absurd hnode (Name.not_within_child node _)

/-! ### One step -/

open Directory (Parked)

/-- **A write that avoids the parked entries.**  They stay parked, and the directory read
without them changes as the plain write would change it. -/
theorem Step.Recorded.parked {parking : Parking} {d d' : Directory} {operation : Operation}
    {step : Step} {ts : List Name} (closed : d.ParentClosed)
    (recorded : Step.Recorded parking d operation step) (written : d.write step.forward = .ok d')
    (h : Parked ts d) (formed : ∀ t ∈ ts, ∃ name, parking.Forms name t)
    (avoids : ∀ t ∈ ts, operation.Avoids t) :
    Parked (step.temporary?.toList ++ ts) d' ∧
      (d.without ts).write operation = .ok (d'.without (step.temporary?.toList ++ ts)) := by
  have apart : ∀ n ∈ operation.names, ∀ t ∈ ts, ¬ n.Within t :=
    fun n hn t ht => (avoids t ht).apart n hn
  have hout : ∀ n ∈ operation.names, n ∉ ts := fun n hn ht => apart n hn n ht (Name.within_refl n)
  cases recorded with
  | bind name attributes =>
    obtain ⟨hfree, hplace, rfl⟩ := Directory.bind_eq_ok_iff.mp written
    have hname := apart name List.mem_cons_self
    refine ⟨h.seed hname, Directory.bind_eq_ok_iff.mpr ⟨?_, hplace.without hname, ?_⟩⟩
    · exact fun hmem => hfree (Directory.mem_without.mp hmem).1
    · exact (Directory.without_seed (hout name List.mem_cons_self)).symm
  | rebind name attributes =>
    obtain ⟨hplace, rfl⟩ := Directory.rebind_eq_ok_iff.mp written
    have hname := apart name List.mem_cons_self
    refine ⟨h.seed hname, Directory.rebind_eq_ok_iff.mpr ⟨hplace.without hname, ?_⟩⟩
    exact (Directory.without_seed (hout name List.mem_cons_self)).symm
  | modifyAttributes items found =>
    obtain ⟨before, after, hbefore, hmodify, rfl⟩ := Directory.modifyAttributes_eq_ok_iff.mp written
    have hnotin := hout _ List.mem_cons_self
    refine ⟨h.seed (apart _ List.mem_cons_self),
      Directory.modifyAttributes_eq_ok_iff.mpr ⟨before, after, ?_, hmodify, ?_⟩⟩
    · rw [Directory.getElem?_without, if_neg hnotin, hbefore]
    · exact (Directory.without_seed hnotin).symm
  | rename old new =>
    obtain ⟨hmovable, rfl⟩ := Directory.rename_eq_ok_iff.mp written
    have hclear := fun t ht => (avoids t ht).of_rename
    have hold : ∀ t ∈ ts, ¬ old.Within t ∧ ¬ t.Within old :=
      fun t ht => ⟨(hclear t ht).1, (hclear t ht).2.1⟩
    have hnew : ∀ t ∈ ts, ¬ new.Within t := fun t ht => (hclear t ht).2.2
    refine ⟨h.move closed hmovable (fun t ht => (hold t ht).2) hnew,
      Directory.rename_eq_ok_iff.mpr ⟨hmovable.without (fun t ht => (hold t ht).1) hnew, ?_⟩⟩
    exact (h.without_move closed hmovable hold hnew).symm
  | @unbind name temporary leaf hformed =>
    obtain ⟨hmovable, rfl⟩ := Directory.rename_eq_ok_iff.mp written
    have hname := apart name List.mem_cons_self
    have hclear : ∀ t ∈ ts, temporary.Within t → temporary = t := by
      intro t ht
      obtain ⟨other, hother⟩ := formed t ht
      exact hformed.eq_of_within hother (hname t ht)
    refine ⟨h.park closed hmovable leaf hname hclear, Directory.unbind_eq_ok_iff.mpr ⟨?_, ?_, ?_⟩⟩
    · exact Directory.mem_without.mpr ⟨hmovable.bound, hout name List.mem_cons_self⟩
    · rw [Directory.not_hasBelow_iff] at leaf ⊢
      exact fun n hn => leaf n (Directory.mem_without.mp hn).1
    · exact Parked.without_park closed hmovable leaf

/-- A step that avoids the parked entries leaves each of them where it is. -/
theorem Step.Recorded.carry_eq {parking : Parking} {d d' : Directory} {operation : Operation}
    {step : Step} {ts : List Name} (recorded : Step.Recorded parking d operation step)
    (written : d.write step.forward = .ok d') (h : Parked ts d)
    (avoids : ∀ t ∈ ts, operation.Avoids t) : ∀ t ∈ ts, step.carry t = t := by
  intro t ht
  cases recorded with
  | bind name attributes => rfl
  | rebind name attributes => rfl
  | modifyAttributes items found => rfl
  | rename old new => exact Name.carry_of_not_within (avoids t ht).of_rename.2.1
  | @unbind name temporary leaf formed =>
    refine Name.carry_of_not_within fun hw => ?_
    obtain rfl := Directory.not_hasBelow_iff.mp leaf t (h.bound t ht) hw
    exact (avoids t ht).apart t List.mem_cons_self (Name.within_refl t)

/-! ### The whole run -/

namespace Transaction

variable {tx : Transaction Directory} {w : World Directory}

/-- The transaction is in order: the directory is closed, and the parked entries are where
they were put. -/
structure InOrder (tx : Transaction Directory) (w : World Directory) : Prop where
  service : tx.service = Directory.service
  closed : w.directory.ParentClosed
  parked : Parked tx.temporaries w.directory
  inPlace : tx.places = tx.temporaries
  formed : ∀ t ∈ tx.temporaries, ∃ name, tx.parking.Forms name t

theorem inOrder_start (parking : Parking) (w : World Directory)
    (closed : w.directory.ParentClosed) : (inMemory parking).InOrder w where
  service := rfl
  closed := closed
  parked := Parked.nil w.directory
  inPlace := rfl
  formed := fun _ ht => absurd ht List.not_mem_nil

theorem temporaries_cons {next : Transaction Directory} {step : Step}
    (h : next.steps = step :: tx.steps) :
    next.temporaries = step.temporary?.toList ++ tx.temporaries := by
  rw [temporaries, temporaries, h]
  cases step <;> rfl

section Attempts

variable {next : Transaction Directory} {w' : World Directory} {operation : Operation} {step : Step}

/-- What changes neither steps nor directory leaves all in order. -/
theorem InOrder.congr (h : tx.InOrder w) (hservice : next.service = tx.service)
    (hparking : next.parking = tx.parking) (hsteps : next.steps = tx.steps)
    (hd : w'.directory = w.directory) : next.InOrder w' := by
  have htemporaries : next.temporaries = tx.temporaries := by
    rw [temporaries, hsteps, temporaries]
  refine ⟨hservice.trans h.service, ?_, ?_, ?_, ?_⟩
  · rw [hd]
    exact h.closed
  · rw [hd, htemporaries]
    exact h.parked
  · rw [places, hsteps, htemporaries]
    exact h.inPlace
  · rw [htemporaries, hparking]
    exact h.formed

/-- A step that avoids the parked entries leaves all in order. -/
theorem InOrder.cons (h : tx.InOrder w) (hservice : next.service = tx.service)
    (hparking : next.parking = tx.parking) (hsteps : next.steps = step :: tx.steps)
    (recorded : Step.Recorded tx.parking w.directory operation step)
    (written : w.directory.write step.forward = .ok w'.directory)
    (avoids : ∀ t ∈ tx.temporaries, operation.Avoids t) : next.InOrder w' := by
  refine ⟨hservice.trans h.service, h.closed.write written, ?_, ?_, ?_⟩
  · rw [temporaries_cons hsteps]
    exact (recorded.parked h.closed written h.parked h.formed avoids).1
  · have hstay := recorded.carry_eq written h.parked avoids
    rw [temporaries_cons hsteps, places, hsteps, Step.places, ← places, h.inPlace,
      List.map_congr_left hstay, List.map_id']
  · rw [temporaries_cons hsteps, hparking]
    intro t ht
    rcases List.mem_append.mp ht with hnew | hold
    · obtain ⟨name, -, -, formed⟩ := recorded.of_temporary hnew
      exact ⟨name, formed⟩
    · exact h.formed t hold

end Attempts

/-- An attempt that fails, or else avoids the parked entries, leaves all in order.  If it
succeeds, then the plain write does what it does. -/
theorem InOrder.perform (h : tx.InOrder w) (operation : Operation)
    (avoids : (tx.perform operation w).1 = .ok () → ∀ t ∈ tx.temporaries, operation.Avoids t) :
    (tx.perform operation w).2.1.InOrder (tx.perform operation w).2.2 ∧
      ((tx.perform operation w).1 = .ok () →
        (w.directory.without tx.temporaries).write operation =
          .ok ((tx.perform operation w).2.2.directory.without
            (tx.perform operation w).2.1.temporaries)) := by
  rcases perform_cases h.service operation w with
    ⟨e, hfail, hsteps, hd⟩ | ⟨step, hok, hsteps, recorded, written⟩
  · refine ⟨h.congr rfl rfl hsteps hd, fun hok => ?_⟩
    rw [hfail] at hok
    cases hok
  · refine ⟨h.cons rfl rfl hsteps recorded written (avoids hok), fun _ => ?_⟩
    rw [temporaries_cons hsteps]
    exact (recorded.parked h.closed written h.parked h.formed (avoids hok)).2

/-- All attempts together, provided that those which succeed avoid what was parked before. -/
theorem InOrder.performAll : ∀ (operations : List Operation) (tx : Transaction Directory)
    (w : World Directory), tx.InOrder w →
      (∀ a ∈ tx.attempts operations w, a.succeeds = true →
        ∀ t ∈ a.tx.temporaries, a.operation.Avoids t) →
      (tx.performAll operations w).1.InOrder (tx.performAll operations w).2 ∧
        ((∀ a ∈ tx.attempts operations w, a.succeeds = true) →
          (w.directory.without tx.temporaries).writeAll operations =
            .ok ((tx.performAll operations w).2.directory.without
              (tx.performAll operations w).1.temporaries)) := by
  intro operations
  induction operations with
  | nil =>
    intro tx w h _
    exact ⟨h, fun _ => rfl⟩
  | cons operation more ih =>
    intro tx w h avoids
    rw [attempts_cons, List.forall_mem_cons] at avoids
    rw [attempts_cons, List.forall_mem_cons, performAll_cons]
    obtain ⟨hnext, hwrite⟩ :=
      h.perform operation fun hok => avoids.1 (Attempt.succeeds_iff.mpr hok)
    obtain ⟨hfinal, hwrites⟩ := ih _ _ hnext avoids.2
    refine ⟨hfinal, fun ⟨hok, hmore⟩ => ?_⟩
    rw [Directory.writeAll_cons_eq_ok_iff]
    exact ⟨_, hwrite (Attempt.succeeds_iff.mp hok), hwrites hmore⟩

/-- The commit succeeds just when every temporary name on record is parked, provided that none
lies below another. -/
theorem commit_ok_iff (htx : tx.service = Directory.service)
    (apart : ∀ t ∈ tx.temporaries, ∀ u ∈ tx.temporaries, t.Within u → t = u) (d : Directory) :
    (tx.commit w).1 = .ok () ∧ (tx.commit w).2.2.directory = d ↔
      Parked tx.temporaries w.directory ∧ d = w.directory.without tx.temporaries := by
  have hperm : tx.temporaries.reverse.Perm tx.temporaries := List.reverse_perm _
  have hapart : ∀ t ∈ tx.temporaries.reverse, ∀ u ∈ tx.temporaries.reverse,
      t.Within u → t = u :=
    fun t ht u hu => apart t (hperm.mem_iff.mp ht) u (hperm.mem_iff.mp hu)
  have hcomplete := complete_ok_iff htx .commit w d
  rw [completions_commit, Directory.sweep_ok_iff hapart,
    Directory.without_congr w.directory fun n => hperm.mem_iff] at hcomplete
  rw [commit, hcomplete]
  exact and_congr_left' ⟨fun h => h.perm hperm, fun h => h.perm hperm.symm⟩

/-- The commit of a transaction in order succeeds, and takes away what is parked. -/
theorem InOrder.commit (h : tx.InOrder w) :
    (tx.commit w).1 = .ok () ∧
      (tx.commit w).2.2.directory = w.directory.without tx.temporaries := by
  have apart : ∀ t ∈ tx.temporaries, ∀ u ∈ tx.temporaries, t.Within u → t = u :=
    fun t ht u hu => h.parked.eq_of_within hu (h.parked.bound t ht)
  exact (commit_ok_iff h.service apart _).mpr ⟨h.parked, rfl⟩

/--
**A committed transaction does what the plain writes do.**  Let every write of a transaction
over a closed directory succeed, each avoiding the temporary names handed out before it.
Then the commit succeeds too, the same writes succeed when they are made directly, and both
ways end in the same directory.
-/
theorem commit_eq_writeAll (parking : Parking) (operations : List Operation) (d : Directory)
    (sequences : Sequences) (closed : d.ParentClosed)
    (succeed : ∀ a ∈ (inMemory parking).attempts operations ⟨d, sequences⟩, a.succeeds = true)
    (avoid : ∀ a ∈ (inMemory parking).attempts operations ⟨d, sequences⟩,
      ∀ t ∈ a.tx.temporaries, a.operation.Avoids t) :
    let run := (inMemory parking).performAll operations ⟨d, sequences⟩
    let committed := run.1.commit run.2
    committed.1 = .ok () ∧ d.writeAll operations = .ok committed.2.2.directory := by
  intro run committed
  obtain ⟨hinOrder, hwrites⟩ := InOrder.performAll operations (inMemory parking) ⟨d, sequences⟩
    (inOrder_start parking ⟨d, sequences⟩ closed) fun a ha _ => avoid a ha
  obtain ⟨hok, hdirectory⟩ := hinOrder.commit
  refine ⟨hok, ?_⟩
  rw [hdirectory]
  exact hwrites succeed

/-- Two persons are parked in a unit of its own while their former unit is moved and a new
person takes the name of one of them. -/
theorem commit_eq_writeAll_staffed :
    let people := Name.unit "people"
    let staff := Name.unit "staff"
    let parking := Parking.subtree (Name.unit "attic") 0
    let operations : List Operation :=
      [.bind (Name.unit "attic") .empty, .unbind (people.member "ann"),
        .rename people staff, .bind (staff.member "ann") .empty,
        .unbind (staff.member "ann"), .rebind (staff.member "ann") .empty]
    let run := (inMemory parking).performAll operations ⟨Directory.staffed, .initial⟩
    let committed := run.1.commit run.2
    Directory.staffed.ParentClosed ∧
      (∀ a ∈ (inMemory parking).attempts operations ⟨Directory.staffed, .initial⟩,
        a.succeeds = true) ∧
      (∀ a ∈ (inMemory parking).attempts operations ⟨Directory.staffed, .initial⟩,
        ∀ t ∈ a.tx.temporaries, a.operation.Avoids t) ∧
      committed.1 = .ok () ∧
      Directory.staffed.writeAll operations = .ok committed.2.2.directory := by
  intro people staff parking operations
  have closed : Directory.staffed.ParentClosed := Directory.staffed_closed
  have succeed : ∀ a ∈ (inMemory parking).attempts operations ⟨Directory.staffed, .initial⟩,
      a.succeeds = true := by decide +kernel
  have avoid : ∀ a ∈ (inMemory parking).attempts operations ⟨Directory.staffed, .initial⟩,
      ∀ t ∈ a.tx.temporaries, a.operation.Avoids t := by decide +kernel
  have effect :=
    commit_eq_writeAll parking operations Directory.staffed .initial closed succeed avoid
  exact ⟨closed, succeed, avoid, effect⟩

end Transaction

end DirectorySaga
