/-
A subtree for temporary names only.

A transaction makes more calls than the writes it is asked for: it looks entries up, asks
whether others hang below, and moves what it takes away.  Each of these calls can fail, and
the entries that wait for the commit are in the directory for all to see.  If they wait
below a node that nothing else has to do with, none of this shows.  Every write succeeds
just when it would succeed if it were made directly, fails with the same error otherwise,
and after the commit the directory is the one that the direct writes leave.

The direct writes are made beside the transaction, and refused ones are passed over.  At
every moment the directory of the direct writes is that of the transaction read without the
parked entries (`Transparent`).  That both answer alike is locality: a write that stays
clear of the node does not look at what is below it, and all parked entries are there.
What is left is the move to a temporary name.  It must not fail where the removal itself
does not, and it does not, as its target lies right below the node and is not taken.
-/
import DirectorySaga.Proofs.Transaction.Locality

namespace DirectorySaga

open Directory (AgreeOn InView)

/-! ### Direct writes -/

/-- Carries out the operations one after the other, going on past refusals. -/
def Directory.performAll : List Operation → Directory →
    List (Except DirectoryError Unit) × Directory
  | [], d => ([], d)
  | operation :: more, d =>
    let (answer, d) := d.perform operation
    let (answers, d) := performAll more d
    (answer :: answers, d)

theorem Directory.performAll_cons (operation : Operation) (more : List Operation)
    (d : Directory) :
    performAll (operation :: more) d =
      ((d.perform operation).1 :: (performAll more (d.perform operation).2).1,
        (performAll more (d.perform operation).2).2) := rfl

theorem Directory.perform_answer (d : Directory) (operation : Operation) :
    (d.perform operation).1 = (d.write operation).map fun _ => () := by
  unfold Directory.perform
  cases d.write operation <;> rfl

/-! ### What an attempt answers -/

namespace Transaction

variable {σ : Type} {tx : Transaction Directory} {w : World Directory} {operation : Operation}

/-- The temporary name that is drawn for the write, if one is. -/
def Attempt.drawn? (a : Attempt σ) : Option Name :=
  match (Step.record a.tx.service a.tx.parking a.operation a.world).1 with
  | .ok step => step.temporary?
  | .error _ => none

/-- An attempt answers as its recording does, or else as its forward operation. -/
theorem perform_result (htx : tx.service = Directory.service) (operation : Operation)
    (w : World Directory) :
    (tx.perform operation w).1 =
      ((Step.recording w.directory (tx.parking.temporaryName operation.target w.sequences).1
        operation).bind fun step => (w.directory.perform step.forward).1).mapError
          (.operationFailed operation.kind.name) := by
  obtain ⟨service, parking, saga⟩ := tx
  obtain rfl : service = Directory.service := htx
  obtain ⟨hread, -⟩ := Step.record_spec parking operation w
  rw [← Step.record_eq]
  show (saga.perform (directoryWrites Directory.service parking) operation w).1 = _
  cases hrecord : Step.record Directory.service parking operation w with
  | mk answer w₁ =>
  rw [hrecord] at hread
  cases answer with
  | error e =>
    rw [Saga.perform_unrecorded hrecord]
    rfl
  | ok step =>
    have hperform : (directoryWrites Directory.service parking).perform step w₁ =
        ((w.directory.perform step.forward).1,
          { w₁ with directory := (w.directory.perform step.forward).2 }) := by
      rw [← show w₁.directory = w.directory from hread]
      rfl
    simp only [Except.bind]
    cases hanswer : (w.directory.perform step.forward).1 with
    | error e =>
      rw [hanswer] at hperform
      rw [Saga.perform_unperformed hrecord hperform]
      rfl
    | ok _ =>
      rw [hanswer] at hperform
      rw [Saga.perform_performed hrecord hperform]
      rfl

/-- An attempt parks under no name but the one drawn for it. -/
theorem mem_temporaries_perform {tx : Transaction σ} {w : World σ} {t : Name}
    (ht : t ∈ (tx.perform operation w).2.1.temporaries) :
    (⟨tx, w, operation⟩ : Attempt σ).drawn? = some t ∨ t ∈ tx.temporaries := by
  obtain ⟨service, parking, saga⟩ := tx
  obtain ⟨step, hstep, htemporary⟩ := List.mem_filterMap.mp ht
  change step ∈ (saga.perform (directoryWrites service parking) operation w).2.1.pending.map
    PendingStep.step at hstep
  have hold : step ∈ saga.pending.map PendingStep.step →
      t ∈ (Transaction.mk service parking saga).temporaries :=
    fun h => List.mem_filterMap.mpr ⟨step, h, htemporary⟩
  cases hrecord : Step.record service parking operation w with
  | mk answer w₁ =>
  cases answer with
  | error e =>
    rw [Saga.perform_unrecorded hrecord] at hstep
    exact Or.inr (hold hstep)
  | ok recorded =>
    cases hperform : (directoryWrites service parking).perform recorded w₁ with
    | mk result w₂ =>
    cases result with
    | error e =>
      rw [Saga.perform_unperformed hrecord hperform] at hstep
      exact Or.inr (hold hstep)
    | ok _ =>
      rw [Saga.perform_performed hrecord hperform] at hstep
      rcases List.mem_cons.mp hstep with rfl | hstep
      · refine Or.inl ?_
        simp only [Attempt.drawn?, hrecord]
        exact htemporary
      · exact Or.inr (hold hstep)

end Transaction

/-! ### Staying clear of the node -/

/-- No name of the operation is the node, lies below it or stands above it. -/
def Operation.ClearOf (operation : Operation) (node : Name) : Prop :=
  ∀ n ∈ operation.names, ¬ n.Within node ∧ ¬ node.Within n

instance (operation : Operation) (node : Name) : Decidable (operation.ClearOf node) :=
  inferInstanceAs (Decidable (∀ n ∈ operation.names, ¬ n.Within node ∧ ¬ node.Within n))

namespace Operation

variable {operation : Operation} {node n m t : Name}

/-- Nothing is within the node and within a name of the operation at once. -/
theorem ClearOf.not_within (h : operation.ClearOf node) (hm : m ∈ operation.names)
    (hn : n.Within node) : ¬ n.Within m := by
  intro hw
  obtain ⟨hbelow, habove⟩ := h m hm
  exact (hn.linear hw).elim habove hbelow

/-- The operation looks at nothing below the node. -/
theorem ClearOf.inView (h : operation.ClearOf node) :
    ∀ m ∈ operation.names, InView (fun n => n.isBelow node = false) m := by
  intro m hm
  refine ⟨?_, ?_⟩
  · intro n hn
    rw [Name.not_isBelow_iff]
    intro hw
    exact absurd hn (h.not_within hm hw)
  · intro above habove
    obtain ⟨leaf, rfl⟩ := Name.parent?_eq_some_iff.mp habove
    rw [Name.not_isBelow_iff]
    intro hw
    exact absurd ((Name.child_within above leaf).trans hw) (h _ hm).1

theorem ClearOf.avoids (h : operation.ClearOf node) (ht : t.Within node) :
    operation.Avoids t where
  apart n hn hw := (h n hn).1 (hw.trans ht)
  still := by
    intro old hold
    rw [Name.not_isBelow_iff]
    intro hw
    cases operation with
    | rename old' new =>
      obtain rfl : old' = old := Option.some.inj hold
      exact absurd hw (h.not_within List.mem_cons_self ht)
    | bind name attributes => cases hold
    | rebind name attributes => cases hold
    | unbind name => cases hold
    | modifyAttributes name items => cases hold

end Operation

/-- Temporary names lie right below the node. -/
theorem Parking.Forms.child {node : Name} {sequence : SequenceId} {name t : Name}
    (h : (Parking.subtree node sequence).Forms name t) : ∃ leaf, t = node.child leaf := by
  obtain ⟨s, h⟩ := h
  obtain ⟨levels⟩ := name
  cases levels with
  | nil => cases h
  | cons leaf above =>
    cases h
    exact ⟨_, rfl⟩

/-! ### Side by side -/

namespace Transaction

/-- The transaction parks below a node that is used for nothing else, and the directory of the
direct writes is its own without the parked entries. -/
structure Transparent (node : Name) (sequence : SequenceId) (tx : Transaction Directory)
    (w : World Directory) (direct : Directory) : Prop where
  inOrder : tx.InOrder w
  parking : tx.parking = .subtree node sequence
  same : direct = w.directory.without tx.temporaries
  bound : node ∈ direct.entries
  unused : direct.hasBelow node = false

namespace Transparent

variable {node : Name} {sequence : SequenceId} {tx : Transaction Directory}
  {w : World Directory} {direct : Directory} {operation : Operation} {t : Name}

theorem isBelow_of_mem (h : Transparent node sequence tx w direct) (ht : t ∈ tx.temporaries) :
    t.isBelow node = true := by
  obtain ⟨name, formed⟩ := h.inOrder.formed t ht
  rw [h.parking] at formed
  obtain ⟨leaf, rfl⟩ := formed.child
  exact Name.isBelow_child.mpr (Name.within_refl node)

/-- Both directories are the same except for what is below the node. -/
theorem agreeOn (h : Transparent node sequence tx w direct) :
    AgreeOn (fun n => n.isBelow node = false) w.directory direct := by
  intro n hn
  have hnot : n ∉ tx.temporaries := by
    intro ht
    rw [h.isBelow_of_mem ht] at hn
    cases hn
  rw [h.same, Directory.getElem?_without, if_neg hnot]

/-- Below the node nothing is bound but what is parked there. -/
theorem mem_temporaries (h : Transparent node sequence tx w direct) (ht : t.isBelow node = true)
    (hbound : t ∈ w.directory.entries) : t ∈ tx.temporaries := by
  by_contra hnot
  have hdirect : t ∈ direct.entries := by
    rw [h.same]
    exact Directory.mem_without.mpr ⟨hbound, hnot⟩
  have hbelow : direct.hasBelow node = true := Directory.hasBelow_iff.mpr ⟨t, hdirect, ht⟩
  rw [h.unused] at hbelow
  cases hbelow

theorem bound_node (h : Transparent node sequence tx w direct) : node ∈ w.directory.entries := by
  have hbound := h.bound
  rw [h.same] at hbound
  exact (Directory.mem_without.mp hbound).1

/-- The move to a temporary name that is not taken cannot fail. -/
theorem movable (h : Transparent node sequence tx w direct) {name : Name} {leaf : Rdn}
    (hclear : (Operation.unbind name).ClearOf node) (hname : name ∈ w.directory.entries)
    (hfresh : node.child leaf ∉ tx.temporaries) :
    w.directory.Movable name (node.child leaf) where
  bound := hname
  free hmem := hfresh (h.mem_temporaries (Name.isBelow_child.mpr (Name.within_refl node)) hmem)
  outside := hclear.not_within List.mem_cons_self (Name.child_within node leaf)
  place := ⟨node, rfl, Or.inr h.bound_node⟩

/-- A removal that is recorded can be made: its temporary name has been drawn, and the move to
a name that is not taken cannot fail. -/
theorem park_ok (h : Transparent node sequence tx w direct) {name : Name}
    (hclear : (Operation.unbind name).ClearOf node) (hname : w.directory.contains name = true)
    (hleaf : w.directory.hasBelow name = false)
    (hfresh : ∀ t, (⟨tx, w, .unbind name⟩ : Attempt Directory).drawn? = some t →
      t ∉ tx.temporaries) :
    ∃ temporary, (tx.parking.temporaryName name w.sequences).1 = .ok temporary ∧
      (w.directory.perform (.rename name temporary)).1 = .ok () := by
  obtain ⟨leaf, htemporary⟩ :
      ∃ leaf, (tx.parking.temporaryName name w.sequences).1 = .ok (node.child leaf) := by
    rw [h.parking]
    obtain ⟨levels⟩ := name
    cases levels with
    | nil => exact absurd (Name.within_root node) (hclear _ List.mem_cons_self).2
    | cons leaf above => exact ⟨_, rfl⟩
  have hdrawn : (⟨tx, w, .unbind name⟩ : Attempt Directory).drawn? = some (node.child leaf) := by
    simp only [Attempt.drawn?, h.inOrder.service, Step.record_eq, Step.recording, hname, hleaf,
      Operation.target, htemporary]
    rfl
  have hmovable := h.movable hclear (Directory.contains_iff.mp hname) (hfresh _ hdrawn)
  have hrename := Directory.rename_eq_ok_iff.mpr ⟨hmovable, rfl⟩
  refine ⟨node.child leaf, htemporary, ?_⟩
  rw [Directory.perform_answer]
  show (w.directory.rename name (node.child leaf)).map _ = .ok ()
  rw [hrename]
  rfl

/-- **The transaction answers as the direct write does.** -/
theorem result_eq (h : Transparent node sequence tx w direct) (hclear : operation.ClearOf node)
    (hfresh : ∀ t, (⟨tx, w, operation⟩ : Attempt Directory).drawn? = some t → t ∉ tx.temporaries) :
    (tx.perform operation w).1 =
      (direct.perform operation).1.mapError (.operationFailed operation.kind.name) := by
  obtain ⟨hanswer, -⟩ := h.agreeOn.perform hclear.inView
  rw [perform_result h.inOrder.service, ← hanswer]
  congr 1
  cases operation with
  | bind name attributes => rfl
  | rebind name attributes => rfl
  | rename old new => rfl
  | modifyAttributes name items =>
    cases hentry : w.directory.entries[name]? with
    | none =>
      rw [Directory.perform_answer]
      simp only [Step.recording, hentry, Directory.write, Directory.modifyAttributes_eq]
      rfl
    | some before =>
      simp only [Step.recording, hentry]
      rfl
  | unbind name =>
    rw [Directory.perform_answer]
    simp only [Step.recording, Operation.target, Directory.write, Directory.unbind_eq]
    by_cases hname : w.directory.contains name = true
    · cases hleaf : w.directory.hasBelow name with
      | true => simp [hname, Except.bind, Except.map]
      | false =>
        obtain ⟨temporary, htemporary, hmoved⟩ := h.park_ok hclear hname hleaf hfresh
        simp [hname, htemporary, Except.bind, Except.map, Step.forward, hmoved]
    · simp [hname, Except.bind, Except.map]

/-- A direct write that stays clear of the node changes nothing within it. -/
theorem unused_perform (h : Transparent node sequence tx w direct)
    (hclear : operation.ClearOf node) :
    node ∈ (direct.perform operation).2.entries ∧
      (direct.perform operation).2.hasBelow node = false := by
  have hframe : AgreeOn (·.Within node) (direct.perform operation).2 direct :=
    fun n hn => Directory.getElem?_perform (fun m hm => hclear.not_within hm hn) direct
  refine ⟨(hframe.mem_iff (Name.within_refl node)).mpr h.bound, ?_⟩
  have hunused := h.unused
  rw [Directory.not_hasBelow_iff] at hunused ⊢
  intro n hn hw
  exact hunused n ((hframe.mem_iff hw).mp hn) hw

/-- One write on both sides. -/
theorem perform (h : Transparent node sequence tx w direct) (hclear : operation.ClearOf node)
    (hfresh : ∀ t, (⟨tx, w, operation⟩ : Attempt Directory).drawn? = some t →
      t ∉ tx.temporaries) :
    Transparent node sequence (tx.perform operation w).2.1 (tx.perform operation w).2.2
      (direct.perform operation).2 := by
  have hresult := h.result_eq hclear hfresh
  obtain ⟨hbound, hunused⟩ := h.unused_perform hclear
  obtain ⟨hinOrder, hwrite⟩ := h.inOrder.perform operation fun _ t ht =>
    hclear.avoids (Name.isBelow_iff_within.mp (h.isBelow_of_mem ht)).1
  refine ⟨hinOrder, h.parking, ?_, hbound, hunused⟩
  rw [Directory.perform_answer] at hresult
  rcases perform_cases h.inOrder.service operation w with
    ⟨e, hfailed, hsteps, hd⟩ | ⟨step, hok, -, -, -⟩
  · -- the direct write has failed too
    rw [hfailed] at hresult
    have htemporaries : (tx.perform operation w).2.1.temporaries = tx.temporaries := by
      rw [temporaries, hsteps, temporaries]
    rw [hd, htemporaries, ← h.same]
    unfold Directory.perform
    cases hdirect : direct.write operation with
    | error e => rfl
    | ok d =>
      rw [hdirect] at hresult
      cases hresult
  · have hdirect := hwrite hok
    rw [← h.same] at hdirect
    unfold Directory.perform
    rw [hdirect]

end Transparent

/-! ### The whole run -/

theorem transparent_start {node : Name} (sequence : SequenceId) {d : Directory} (s : Sequences)
    (closed : d.ParentClosed) (bound : node ∈ d.entries) (unused : d.hasBelow node = false) :
    Transparent node sequence (inMemory (.subtree node sequence)) ⟨d, s⟩ d where
  inOrder := inOrder_start _ _ closed
  parking := rfl
  same := rfl
  bound := bound
  unused := unused

/-- The answers of the direct writes as a transaction gives them. -/
def asAnswers (operations : List Operation) (answers : List (Except DirectoryError Unit)) :
    List (Except TransactionError Unit) :=
  List.zipWith (fun operation answer => answer.mapError (.operationFailed operation.kind.name))
    operations answers

theorem Transparent.performAll {node : Name} {sequence : SequenceId} :
    ∀ (operations : List Operation) {tx : Transaction Directory} {w : World Directory}
      {direct : Directory}, Transparent node sequence tx w direct →
      (∀ operation ∈ operations, operation.ClearOf node) →
      ((tx.attempts operations w).filterMap Attempt.drawn?).Nodup →
      (∀ t ∈ tx.temporaries, t ∉ (tx.attempts operations w).filterMap Attempt.drawn?) →
      (tx.attempts operations w).map Attempt.result =
          asAnswers operations (direct.performAll operations).1 ∧
        Transparent node sequence (tx.performAll operations w).1 (tx.performAll operations w).2
          (direct.performAll operations).2 := by
  intro operations
  induction operations with
  | nil =>
    intro tx w direct h _ _ _
    exact ⟨rfl, h⟩
  | cons operation more ih =>
    intro tx w direct h hclear hdistinct hfresh
    obtain ⟨hfirst, hmore⟩ := List.forall_mem_cons.mp hclear
    rw [attempts_cons, List.filterMap_cons] at hdistinct hfresh
    -- a name drawn now is drawn for the first time, and not again later
    have hnow : ∀ t, (⟨tx, w, operation⟩ : Attempt Directory).drawn? = some t →
        t ∉ tx.temporaries := by
      intro t ht hmem
      have hnot := hfresh t hmem
      rw [ht] at hnot
      exact hnot List.mem_cons_self
    have hlater : (((tx.perform operation w).2.1.attempts more
          (tx.perform operation w).2.2).filterMap Attempt.drawn?).Nodup ∧
        ∀ t ∈ (tx.perform operation w).2.1.temporaries,
          t ∉ ((tx.perform operation w).2.1.attempts more
            (tx.perform operation w).2.2).filterMap Attempt.drawn? := by
      cases hdrawn : (⟨tx, w, operation⟩ : Attempt Directory).drawn? with
      | none =>
        rw [hdrawn] at hdistinct hfresh
        refine ⟨hdistinct, fun t ht => hfresh t ?_⟩
        rcases mem_temporaries_perform ht with hnew | hold
        · rw [hdrawn] at hnew
          cases hnew
        · exact hold
      | some drawn =>
        rw [hdrawn] at hdistinct hfresh
        obtain ⟨hnotin, hdistinct⟩ := List.nodup_cons.mp hdistinct
        refine ⟨hdistinct, fun t ht => ?_⟩
        rcases mem_temporaries_perform ht with hnew | hold
        · rw [hdrawn, Option.some.injEq] at hnew
          exact hnew ▸ hnotin
        · exact fun hmem => hfresh t hold (List.mem_cons_of_mem _ hmem)
    obtain ⟨hanswers, hfinal⟩ := ih (h.perform hfirst hnow) hmore hlater.1 hlater.2
    refine ⟨?_, hfinal⟩
    rw [attempts_cons, List.map_cons, hanswers, Directory.performAll_cons]
    show (tx.perform operation w).1 :: _ = _ :: _
    rw [h.result_eq hfirst hnow]
    rfl

/--
**With a subtree for temporary names a transaction does not show.**  Let a node be bound in a
closed directory with nothing below it, let no operation name the node, a name below it or
one above it, and let the temporary names that are drawn be different.  Then every write of
the transaction answers as it does when the writes are made directly and refused ones are
passed over, the commit succeeds, and both ways end in the same directory.
-/
theorem commit_eq_performAll (node : Name) (sequence : SequenceId) (operations : List Operation)
    (d : Directory) (s : Sequences) (closed : d.ParentClosed) (bound : node ∈ d.entries)
    (unused : d.hasBelow node = false) (clear : ∀ operation ∈ operations, operation.ClearOf node)
    (distinct : (((inMemory (.subtree node sequence)).attempts operations ⟨d, s⟩).filterMap
      Attempt.drawn?).Nodup) :
    let tx := inMemory (.subtree node sequence)
    let run := tx.performAll operations ⟨d, s⟩
    let committed := run.1.commit run.2
    let direct := d.performAll operations
    (tx.attempts operations ⟨d, s⟩).map Attempt.result = asAnswers operations direct.1 ∧
      committed.1 = .ok () ∧ committed.2.2.directory = direct.2 := by
  intro tx run committed direct
  obtain ⟨hanswers, hfinal⟩ :=
    (transparent_start sequence s closed bound unused).performAll operations clear distinct
      fun t ht => absurd ht List.not_mem_nil
  obtain ⟨hok, hdirectory⟩ := hfinal.inOrder.commit
  exact ⟨hanswers, hok, hdirectory.trans hfinal.same.symm⟩

/-- A person is taken away, comes back, and is taken away again from the unit under its new
name; four writes are refused on the way. -/
theorem commit_eq_performAll_staffed :
    let people := Name.unit "people"
    let staff := Name.unit "staff"
    let attic := Name.unit "attic"
    let d := Directory.staffed.seed attic .empty
    let operations : List Operation :=
      [.unbind people, .unbind (people.member "ann"), .unbind (people.member "ann"),
        .bind (people.member "ann") .empty, .modifyAttributes (people.member "bob") [],
        .rename people staff, .bind (people.member "bob") .empty, .unbind (staff.member "ann"),
        .rebind (staff.member "bob") .empty]
    d.ParentClosed ∧ attic ∈ d.entries ∧ d.hasBelow attic = false ∧
      (∀ operation ∈ operations, operation.ClearOf attic) ∧
      (((inMemory (.subtree attic 0)).attempts operations ⟨d, .initial⟩).filterMap
        Attempt.drawn?).Nodup ∧
      let tx := inMemory (.subtree attic 0)
      let run := tx.performAll operations ⟨d, .initial⟩
      let committed := run.1.commit run.2
      let direct := d.performAll operations
      (tx.attempts operations ⟨d, .initial⟩).map Attempt.result = asAnswers operations direct.1 ∧
        committed.1 = .ok () ∧ committed.2.2.directory = direct.2 := by
  intro people staff attic d operations
  have closed : d.ParentClosed := Directory.staffed_closed.seed ⟨.root, rfl, Or.inl rfl⟩
  have bound : attic ∈ d.entries := Directory.mem_seed.mpr (Or.inl rfl)
  have unused : d.hasBelow attic = false := by decide +kernel
  have clear : ∀ operation ∈ operations, operation.ClearOf attic := by decide +kernel
  have distinct : (((inMemory (.subtree attic 0)).attempts operations ⟨d, .initial⟩).filterMap
      Attempt.drawn?).Nodup := by decide +kernel
  exact ⟨closed, bound, unused, clear, distinct,
    commit_eq_performAll attic 0 operations d .initial closed bound unused clear distinct⟩

end Transaction

end DirectorySaga
