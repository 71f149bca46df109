/-
Runs of a transaction over a directory in memory.

Whatever is done through a transaction comes down to a few facts, which this module
collects so that nothing later has to look into the saga again.

  * An attempted write either fails, and then neither the directory nor the steps have
    changed, or it adds one step, which is what recording the write yields, and carries
    out the forward operation of that step (`perform_cases`).
  * After any number of attempts the steps are therefore the history of the directory:
    from the first directory on, each step was recorded and carried out in turn
    (`History`, `performAll_history`).
  * To complete the transaction is to carry out a list of operations.  It succeeds just
    when all of them do (`complete_ok_iff`).
-/
import DirectorySaga.Transaction.Basic
import DirectorySaga.Proofs.Directory.Closed

namespace DirectorySaga

variable {σ : Type}

/-! ### Attempts -/

namespace Transaction

/-- The steps to be completed, the newest first. -/
def steps (tx : Transaction σ) : List Step := tx.saga.pending.map PendingStep.step

/-- Attempts the writes one after the other, whatever becomes of each. -/
def performAll : Transaction σ → List Operation → World σ → Transaction σ × World σ
  | tx, [], w => (tx, w)
  | tx, operation :: more, w =>
    let (_, tx, w) := tx.perform operation w
    performAll tx more w

/-- A write at the moment when it is attempted. -/
structure Attempt (σ : Type) where
  tx : Transaction σ
  world : World σ
  operation : Operation

/-- The answer to the attempt. -/
def Attempt.result (a : Attempt σ) : Except TransactionError Unit :=
  (a.tx.perform a.operation a.world).1

/-- Whether the write is made. -/
def Attempt.succeeds (a : Attempt σ) : Bool := a.result.isOk

theorem Attempt.succeeds_iff {a : Attempt σ} : a.succeeds = true ↔ a.result = .ok () := by
  unfold succeeds
  cases a.result with
  | ok _ => simp [Except.isOk, Except.toBool]
  | error e => simp [Except.isOk, Except.toBool]

/-- The attempts that `performAll` makes. -/
def attempts : Transaction σ → List Operation → World σ → List (Attempt σ)
  | _, [], _ => []
  | tx, operation :: more, w =>
    let (_, next, w') := tx.perform operation w
    ⟨tx, w, operation⟩ :: attempts next more w'

/-- A new transaction over a directory in memory. -/
def inMemory (parking : Parking) : Transaction Directory :=
  TransactionManager.start ⟨Directory.service, parking⟩

end Transaction

/-! ### Recording -/

/-- The temporary name is one that the rule can give to the entry. -/
def Parking.Forms (parking : Parking) (name temporary : Name) : Prop :=
  ∃ s : Sequences, (parking.temporaryName name s).1 = .ok temporary

/-- The step is what recording the operation yields over the directory. -/
inductive Step.Recorded (parking : Parking) (d : Directory) : Operation → Step → Prop
  | bind (name : Name) (attributes : Attributes) :
      Recorded parking d (.bind name attributes) (.bind name attributes)
  | rebind (name : Name) (attributes : Attributes) :
      Recorded parking d (.rebind name attributes) (.rebind name attributes d.entries[name]?)
  | rename (old new : Name) : Recorded parking d (.rename old new) (.rename old new)
  | unbind {name temporary : Name} (leaf : d.hasBelow name = false)
      (formed : parking.Forms name temporary) :
      Recorded parking d (.unbind name) (.unbind name temporary)
  | modifyAttributes {name : Name} {before : Attributes} (items : List Modification)
      (found : d.entries[name]? = some before) :
      Recorded parking d (.modifyAttributes name items)
        (.modifyAttributes name items (before.compensatingItems items))

/-- Recording only reads, and what it yields is as described. -/
theorem Step.record_spec (parking : Parking) (operation : Operation) (w : World Directory) :
    (Step.record Directory.service parking operation w).2.directory = w.directory ∧
      ∀ step, (Step.record Directory.service parking operation w).1 = .ok step →
        Step.Recorded parking w.directory operation step := by
  cases operation with
  | bind name attributes =>
    refine ⟨rfl, fun step h => ?_⟩
    cases h
    exact .bind name attributes
  | rename old new =>
    refine ⟨rfl, fun step h => ?_⟩
    cases h
    exact .rename old new
  | rebind name attributes =>
    simp only [Step.record, World.call, Directory.service, Directory.lookup]
    cases h : w.directory.entries[name]? with
    | none =>
      refine ⟨rfl, fun step hstep => ?_⟩
      cases hstep
      exact h ▸ .rebind name attributes
    | some before =>
      refine ⟨rfl, fun step hstep => ?_⟩
      cases hstep
      exact h ▸ .rebind name attributes
  | modifyAttributes name items =>
    simp only [Step.record, World.call, Directory.service, Directory.lookup]
    cases h : w.directory.entries[name]? with
    | none =>
      refine ⟨rfl, fun step hstep => ?_⟩
      cases hstep
    | some before =>
      refine ⟨rfl, fun step hstep => ?_⟩
      cases hstep
      exact .modifyAttributes items h
  | unbind name =>
    simp only [Step.record, World.call, Directory.service, Directory.hasChildren]
    by_cases hname : w.directory.contains name = true
    · rw [if_pos hname]
      cases hleaf : w.directory.hasBelow name with
      | true =>
        refine ⟨rfl, fun step hstep => ?_⟩
        cases hstep
      | false =>
        refine ⟨rfl, fun step hstep => ?_⟩
        simp only [World.temporaryName] at hstep
        cases hformed : (parking.temporaryName name w.sequences).1 with
        | error e =>
          rw [hformed] at hstep
          cases hstep
        | ok temporary =>
          rw [hformed] at hstep
          cases hstep
          exact .unbind hleaf ⟨w.sequences, hformed⟩
    · rw [if_neg hname]
      refine ⟨rfl, fun step hstep => ?_⟩
      cases hstep

/-! ### One attempt -/

theorem World.call_write (operation : Operation) (w : World Directory) :
    w.call (Directory.service.write operation) =
      match w.directory.write operation with
      | .ok d => (.ok (), { w with directory := d })
      | .error e => (.error e, w) := by
  simp only [World.call, Directory.service, Directory.perform]
  cases w.directory.write operation <;> rfl

namespace Transaction

variable {tx : Transaction Directory}

@[simp] theorem service_perform (tx : Transaction σ) (operation : Operation) (w : World σ) :
    (tx.perform operation w).2.1.service = tx.service := rfl

/-- **What an attempt can do.**  It fails and leaves directory and steps as they are, or it
adds the recorded step and carries out its forward operation. -/
theorem perform_cases (htx : tx.service = Directory.service) (operation : Operation)
    (w : World Directory) :
    (∃ e, (tx.perform operation w).1 = .error (.operationFailed operation.kind.name e) ∧
      (tx.perform operation w).2.1.steps = tx.steps ∧
      (tx.perform operation w).2.2.directory = w.directory) ∨
    ∃ step, (tx.perform operation w).1 = .ok () ∧
      (tx.perform operation w).2.1.steps = step :: tx.steps ∧
      Step.Recorded tx.parking w.directory operation step ∧
      w.directory.write step.forward = .ok (tx.perform operation w).2.2.directory := by
  obtain ⟨service, parking, saga⟩ := tx
  obtain rfl : service = Directory.service := htx
  obtain ⟨hread, hrecorded⟩ := Step.record_spec parking operation w
  cases hrecord : Step.record Directory.service parking operation w with
  | mk result w₁ =>
    rw [hrecord] at hread hrecorded
    cases result with
    | error e =>
      refine Or.inl ⟨e, ?_⟩
      simp only [perform, participant, Saga.perform, directoryWrites, hrecord, steps]
      exact ⟨trivial, trivial, hread⟩
    | ok step =>
      have hread : w₁.directory = w.directory := hread
      have hperform : Step.perform Directory.service step w₁ = _ := World.call_write step.forward w₁
      cases hwrite : w.directory.write step.forward with
      | error e =>
        rw [hread, hwrite] at hperform
        refine Or.inl ⟨e, ?_⟩
        simp only [perform, participant, Saga.perform, directoryWrites, hrecord, hperform, steps]
        exact ⟨trivial, trivial, hread⟩
      | ok d =>
        rw [hread, hwrite] at hperform
        refine Or.inr ⟨step, ?_⟩
        simp only [perform, participant, Saga.perform, directoryWrites, hrecord, hperform, steps,
          List.map_cons]
        exact ⟨trivial, trivial, hrecorded step rfl, hwrite⟩

/-! ### All attempts -/

/-- The steps, the newest first, lead from the directory `start` to `d`. -/
inductive History (parking : Parking) (start : Directory) : List Step → Directory → Prop
  | nil : History parking start [] start
  | cons {older : List Step} {d d' : Directory} {operation : Operation} {step : Step}
      (before : History parking start older d)
      (recorded : Step.Recorded parking d operation step)
      (written : d.write step.forward = .ok d') :
      History parking start (step :: older) d'

theorem performAll_cons (tx : Transaction σ) (operation : Operation) (more : List Operation)
    (w : World σ) :
    tx.performAll (operation :: more) w =
      (tx.perform operation w).2.1.performAll more (tx.perform operation w).2.2 := rfl

theorem attempts_cons (tx : Transaction σ) (operation : Operation) (more : List Operation)
    (w : World σ) :
    tx.attempts (operation :: more) w =
      ⟨tx, w, operation⟩ ::
        (tx.perform operation w).2.1.attempts more (tx.perform operation w).2.2 := rfl

theorem service_performAll : ∀ (operations : List Operation) (tx : Transaction σ) (w : World σ),
    (tx.performAll operations w).1.service = tx.service := by
  intro operations
  induction operations with
  | nil =>
    intro tx w
    rfl
  | cons operation more ih =>
    intro tx w
    rw [performAll_cons, ih, service_perform]

/-- **The steps of a transaction are the history of its directory.** -/
theorem performAll_history {start : Directory} : ∀ (operations : List Operation)
    (tx : Transaction Directory) (w : World Directory), tx.service = Directory.service →
      History tx.parking start tx.steps w.directory →
      History tx.parking start (tx.performAll operations w).1.steps
        (tx.performAll operations w).2.directory := by
  intro operations
  induction operations with
  | nil =>
    intro tx w _ h
    exact h
  | cons operation more ih =>
    intro tx w htx h
    rw [performAll_cons]
    refine ih (tx.perform operation w).2.1 _ htx ?_
    rcases perform_cases htx operation w with ⟨e, -, hsteps, hd⟩ | ⟨step, -, hsteps, hrec, hwrite⟩
    · rw [hsteps, hd]
      exact h
    · rw [hsteps]
      exact .cons h hrec hwrite

theorem inMemory_history (parking : Parking) (operations : List Operation) (w : World Directory) :
    History parking w.directory ((inMemory parking).performAll operations w).1.steps
      ((inMemory parking).performAll operations w).2.directory :=
  performAll_history operations (inMemory parking) w rfl .nil

/-- What every write keeps holds throughout a history. -/
theorem History.keeps {parking : Parking} {start d : Directory} {steps : List Step}
    {P : Directory → Prop} (h : History parking start steps d) (hstart : P start)
    (hkeep : ∀ {d d' : Directory} {operation : Operation},
      P d → d.write operation = .ok d' → P d') : P d := by
  induction h with
  | nil => exact hstart
  | cons _ _ written ih => exact hkeep ih written

theorem History.closed {parking : Parking} {start d : Directory} {steps : List Step}
    (h : History parking start steps d) (closed : start.ParentClosed) : d.ParentClosed :=
  h.keeps closed fun hd hwrite => hd.write hwrite

end Transaction

/-! ### Completion -/

/-- What is sent to complete the step, if anything. -/
def Step.completion : CompletionPhase → Step → Option Operation
  | .commit, step => step.final?
  | .rollback, step => some step.inverse

theorem complete_step (service : Service σ) (parking : Parking) (phase : CompletionPhase)
    (step : Step) (w : World σ) :
    (directoryWrites service parking).complete phase step w =
      match step.completion phase with
      | some operation => w.call (service.write operation)
      | none => (.ok (), w) := by
  cases phase with
  | commit => rfl
  | rollback => rfl

/-- A sweep is free of failures just when its operations can be carried out one after the
other, and then they have been. -/
theorem sweep_spec (parking : Parking) (phase : CompletionPhase) :
    ∀ (pending : List (PendingStep Step)) (audit : AuditLog) (w : World Directory) (d : Directory),
      (Saga.sweep (directoryWrites Directory.service parking) phase pending audit w).1 = [] ∧
        (Saga.sweep (directoryWrites Directory.service parking) phase pending audit w).2.2.directory
          = d ↔
      w.directory.writeAll ((pending.map PendingStep.step).filterMap (Step.completion phase))
        = .ok d := by
  intro pending
  induction pending with
  | nil =>
    intro audit w d
    simp [Saga.sweep, Directory.writeAll, pure, Except.pure]
  | cons first more ih =>
    intro audit w d
    obtain ⟨index, step⟩ := first
    rw [Saga.sweep, List.map_cons, complete_step]
    cases hop : step.completion phase with
    | none =>
      rw [List.filterMap_cons_none hop]
      exact ih _ w d
    | some operation =>
      rw [List.filterMap_cons_some hop, Directory.writeAll_cons_eq_ok_iff]
      simp only [World.call_write]
      cases hwrite : w.directory.write operation with
      | error e => simp
      | ok d₁ =>
        simp only [Except.ok.injEq, exists_eq_left']
        exact ih _ { w with directory := d₁ } d

/-- The operations that complete the transaction, in the order in which they are sent. -/
def Transaction.completions (tx : Transaction σ) : CompletionPhase → List Operation
  | .commit => tx.steps.reverse.filterMap Step.final?
  | .rollback => tx.steps.map Step.inverse

theorem Transaction.completions_eq (tx : Transaction σ) (phase : CompletionPhase) :
    tx.completions phase =
      ((tx.saga.visited phase).map PendingStep.step).filterMap (Step.completion phase) := by
  cases phase with
  | commit =>
    rw [Saga.visited, List.map_reverse]
    rfl
  | rollback => exact (congrFun List.filterMap_eq_map _).symm

/-- **A completion succeeds just when all of its operations do.** -/
theorem Transaction.complete_ok_iff {tx : Transaction Directory}
    (htx : tx.service = Directory.service) (phase : CompletionPhase) (w : World Directory)
    (d : Directory) :
    (tx.complete phase w).1 = .ok () ∧ (tx.complete phase w).2.2.directory = d ↔
      w.directory.writeAll (tx.completions phase) = .ok d := by
  obtain ⟨service, parking, saga⟩ := tx
  obtain rfl : service = Directory.service := htx
  rw [completions_eq, ← sweep_spec parking phase (saga.visited phase) saga.audit w d]
  refine and_congr_left' ?_
  simp only [complete, participant, Saga.complete, List.isEmpty_iff]
  split
  · next h => simp [h]
  · next h => simp [h]

end DirectorySaga
