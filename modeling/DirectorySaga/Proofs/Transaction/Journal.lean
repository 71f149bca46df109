/-
What a transaction says to its directory.

`Journal.service` stands before any service.  It passes every call on, and notes down the call
and the answer to it; so the journal of a transaction tells all that was said to the directory
on its behalf.  Nothing is assumed of the service: its answers may be whatever they are.

An attempt that succeeds has had one of six conversations, and what was said in it decides what
will undo the write and what will make it final.  `Performed` lists the six.  An attempt that
fails adds nothing to what is to be done (`perform_noted`).  A completion sends its operations
as writes, every one of them once, and goes on whatever the answers are (`sweep_noted`).
-/
import DirectorySaga.Proofs.Transaction.Traffic

namespace DirectorySaga

variable {σ τ α : Type}

/-! ### The journal -/

/-- A call to a directory and the answer to it. -/
inductive Exchange
  | lookup (name : Name) (answer : Except DirectoryError Attributes)
  | hasChildren (name : Name) (answer : Except DirectoryError Bool)
  | write (operation : Operation) (answer : Except DirectoryError Unit)

/-- The state of a directory, and all that has been said to it so far. -/
structure Journal (σ : Type) where
  inner : σ
  exchanges : List Exchange

namespace Journal

/-- Passes a call on, and notes it down with its answer. -/
def noting (entry : Except DirectoryError α → Exchange) (act : σ → Except DirectoryError α × σ)
    (j : Journal σ) : Except DirectoryError α × Journal σ :=
  let (answer, inner) := act j.inner
  (answer, ⟨inner, j.exchanges ++ [entry answer]⟩)

/-- The service with everything noted down. -/
def service (base : Service σ) : Service (Journal σ) where
  lookup name := noting (.lookup name) (base.lookup name)
  hasChildren name := noting (.hasChildren name) (base.hasChildren name)
  write operation := noting (.write operation) (base.write operation)
  anonymousReadOnly j := base.anonymousReadOnly j.inner

/-- Noting down does not change the answers. -/
theorem mirrors (base : Service σ) : (service base).Mirrors base fun j s => j.inner = s where
  lookup := by
    rintro j _ rfl name
    exact ⟨rfl, rfl⟩
  hasChildren := by
    rintro j _ rfl name
    exact ⟨rfl, rfl⟩
  write := by
    rintro j _ rfl operation
    exact ⟨rfl, rfl⟩

end Journal

/-- All that has been said to the directory. -/
def World.exchanges (w : World (Journal σ)) : List Exchange := w.directory.exchanges

/-- A call adds one exchange, and draws no number. -/
theorem World.call_noting (entry : Except DirectoryError α → Exchange)
    (act : σ → Except DirectoryError α × σ) (w : World (Journal σ)) :
    ∃ answer v, w.call (Journal.noting entry act) = (answer, v) ∧
      v.exchanges = w.exchanges ++ [entry answer] ∧ v.sequences = w.sequences :=
  ⟨_, _, rfl, rfl, rfl⟩

/-! ### Attempts -/

/-- What a write that was made leaves to be done: the operation that undoes it, and the one that
makes it final, if it takes one. -/
structure Deed where
  undo : Operation
  finish : Option Operation

/-- What the step leaves to be done. -/
def Step.deed (step : Step) : Deed := ⟨step.inverse, step.final?⟩

/-- The conversations of a write that is made, when numbers are drawn from `s`, and what each of
them leaves to be done. -/
inductive Performed (parking : Parking) (s : Sequences) : Operation → List Exchange → Deed → Prop
  | bind (name : Name) (attributes : Attributes) :
      Performed parking s (.bind name attributes) [.write (.bind name attributes) (.ok ())]
        ⟨.unbind name, none⟩
  /-- The entry was there. -/
  | rebind (name : Name) (attributes before : Attributes) :
      Performed parking s (.rebind name attributes)
        [.lookup name (.ok before), .write (.rebind name attributes) (.ok ())]
        ⟨.rebind name before, none⟩
  /-- The entry was missing. -/
  | create (name missing : Name) (attributes : Attributes) :
      Performed parking s (.rebind name attributes)
        [.lookup name (.error (.nameNotFound missing)), .write (.rebind name attributes) (.ok ())]
        ⟨.unbind name, none⟩
  | rename (old new : Name) :
      Performed parking s (.rename old new) [.write (.rename old new) (.ok ())]
        ⟨.rename new old, none⟩
  | unbind {name temporary : Name} (formed : (parking.temporaryName name s).1 = .ok temporary) :
      Performed parking s (.unbind name)
        [.hasChildren name (.ok false), .write (.rename name temporary) (.ok ())]
        ⟨.rename temporary name, some (.unbind temporary)⟩
  | modifyAttributes (name : Name) (items : List Modification) (before : Attributes) :
      Performed parking s (.modifyAttributes name items)
        [.lookup name (.ok before), .write (.modifyAttributes name items) (.ok ())]
        ⟨.modifyAttributes name (before.compensatingItems items), none⟩

/-- What is said while a write is recorded, and what is then to be said to make it. -/
theorem Step.record_noted (base : Service σ) (parking : Parking) (operation : Operation)
    (w : World (Journal σ)) :
    ∃ said, (record (Journal.service base) parking operation w).2.exchanges =
        w.exchanges ++ said ∧
      ∀ step, (record (Journal.service base) parking operation w).1 = .ok step →
        Performed parking w.sequences operation (said ++ [.write step.forward (.ok ())])
          step.deed := by
  cases operation with
  | bind name attributes =>
    refine ⟨[], (List.append_nil _).symm, ?_⟩
    rintro _ ⟨⟩
    exact .bind name attributes
  | rename old new =>
    refine ⟨[], (List.append_nil _).symm, ?_⟩
    rintro _ ⟨⟩
    exact .rename old new
  | rebind name attributes =>
    obtain ⟨answer, v, hcall, hsaid, -⟩ := w.call_noting (.lookup name) (base.lookup name)
    simp only [record, Journal.service, hcall]
    cases answer with
    | ok before =>
      refine ⟨_, hsaid, ?_⟩
      rintro _ ⟨⟩
      exact .rebind name attributes before
    | error e =>
      cases e with
      | nameNotFound missing =>
        refine ⟨_, hsaid, ?_⟩
        rintro _ ⟨⟩
        exact .create name missing attributes
      | _ => exact ⟨_, hsaid, by rintro _ ⟨⟩⟩
  | modifyAttributes name items =>
    obtain ⟨answer, v, hcall, hsaid, -⟩ := w.call_noting (.lookup name) (base.lookup name)
    simp only [record, Journal.service, hcall]
    cases answer with
    | error e => exact ⟨_, hsaid, by rintro _ ⟨⟩⟩
    | ok before =>
      refine ⟨_, hsaid, ?_⟩
      rintro _ ⟨⟩
      exact .modifyAttributes name items before
  | unbind name =>
    obtain ⟨answer, v, hcall, hsaid, hsequences⟩ :=
      w.call_noting (.hasChildren name) (base.hasChildren name)
    simp only [record, Journal.service, hcall]
    cases answer with
    | error e => exact ⟨_, hsaid, by rintro _ ⟨⟩⟩
    | ok below =>
      cases below with
      | true => exact ⟨_, hsaid, by rintro _ ⟨⟩⟩
      | false =>
        refine ⟨_, hsaid, ?_⟩
        simp only [World.temporaryName, hsequences]
        cases hformed : (parking.temporaryName name w.sequences).1 with
        | error e => rintro _ ⟨⟩
        | ok temporary =>
          rintro _ ⟨⟩
          exact .unbind hformed

namespace Transaction

/-- What is left to be done of all the writes that were made, the oldest first. -/
def deeds (tx : Transaction σ) : List Deed := tx.steps.reverse.map Step.deed

/-- What was said to the directory in the attempt. -/
def Attempt.said (a : Attempt (Journal σ)) : List Exchange :=
  (a.tx.perform a.operation a.world).2.2.exchanges.drop a.world.exchanges.length

/-- An attempt has either failed, and then nothing more is to be done, or it has made its write,
and then there is one deed more. -/
inductive Attempt.Settled (parking : Parking) (a : Attempt (Journal σ)) : Prop
  | failed (h : a.succeeds = false)
      (same : (a.tx.perform a.operation a.world).2.1.deeds = a.tx.deeds)
  | made (deed : Deed) (h : a.succeeds = true)
      (performed : Performed parking a.world.sequences a.operation a.said deed)
      (added : (a.tx.perform a.operation a.world).2.1.deeds = a.tx.deeds ++ [deed])

/-- An attempt that fails adds nothing to what is to be done. -/
theorem Attempt.settled_of_error {parking : Parking} {a : Attempt (Journal σ)}
    {e : TransactionError} {audit : AuditLog} {w : World (Journal σ)}
    (hrun : a.tx.saga.perform a.tx.participant a.operation a.world =
      (.error e, ⟨a.tx.saga.pending, audit⟩, w)) : Settled parking a := by
  refine .failed ?_ ?_
  · simp only [succeeds, result, perform, hrun]
    rfl
  · simp only [deeds, steps, perform, hrun]

variable {base : Service σ}

/-- **What is said in an attempt settles what is left to be done of it.** -/
theorem perform_noted {tx : Transaction (Journal σ)} (htx : tx.service = Journal.service base)
    (operation : Operation) (w : World (Journal σ)) :
    Attempt.Settled tx.parking ⟨tx, w, operation⟩ := by
  obtain ⟨service, parking, saga⟩ := tx
  obtain rfl : service = Journal.service base := htx
  obtain ⟨said, hsaid, hrecorded⟩ := Step.record_noted base parking operation w
  cases hrecord : Step.record (Journal.service base) parking operation w with
  | mk result w₁ =>
    rw [hrecord] at hsaid hrecorded
    cases result with
    | error e => exact Attempt.settled_of_error (Saga.perform_unrecorded hrecord)
    | ok step =>
      obtain ⟨answer, w₂, hcall, hwritten, -⟩ :=
        w₁.call_noting (.write step.forward) (base.write step.forward)
      have hperform : (directoryWrites (Journal.service base) parking).perform step w₁ =
          (answer, w₂) := hcall
      cases answer with
      | error e => exact Attempt.settled_of_error (Saga.perform_unperformed hrecord hperform)
      | ok _ =>
        have hrun : saga.perform (directoryWrites (Journal.service base) parking) operation w = _ :=
          Saga.perform_performed hrecord hperform
        refine .made step.deed ?_ ?_ ?_
        · simp only [Attempt.succeeds, Attempt.result, perform, participant, hrun]
          rfl
        · have hall : w₂.exchanges = w.exchanges ++ (said ++ [.write step.forward (.ok ())]) := by
            rw [hwritten, hsaid, List.append_assoc]
          simp only [Attempt.said, perform, participant, hrun, hall, List.drop_left]
          exact hrecorded step rfl
        · simp only [deeds, steps, perform, participant, hrun, List.map_cons, List.reverse_cons,
            List.map_append, List.map_nil]

end Transaction

/-! ### Completions -/

/-- The errors among the answers. -/
def errors (answers : List (Except DirectoryError Unit)) : List DirectoryError :=
  answers.filterMap fun
    | .ok _ => none
    | .error e => some e

theorem errors_eq_nil_iff {answers : List (Except DirectoryError Unit)} :
    errors answers = [] ↔ ∀ answer ∈ answers, answer = .ok () := by
  rw [errors, List.filterMap_eq_nil_iff]
  refine forall₂_congr fun answer _ => ?_
  cases answer <;> simp

/-- Between the two worlds the operations were sent as writes, in order, each once, and nothing
else was said; these were the answers. -/
structure Sent (operations : List Operation) (answers : List (Except DirectoryError Unit))
    (before after : World (Journal σ)) : Prop where
  length : answers.length = operations.length
  said : after.exchanges = before.exchanges ++ List.zipWith Exchange.write operations answers

/-- What a completion says at its end about the answers it got. -/
inductive Reported (phase : CompletionPhase) (answers : List (Except DirectoryError Unit)) :
    Except TransactionError Unit → Prop
  | clean (h : ∀ answer ∈ answers, answer = .ok ()) : Reported phase answers (.ok ())
  /-- Every error is reported, and no other. -/
  | broken (failures : List (CompletionFailure DirectoryError))
      (h : ¬ ∀ answer ∈ answers, answer = .ok ())
      (all : failures.map CompletionFailure.error = errors answers) :
      Reported phase answers (.error (.system phase failures))

/-- The operations were sent, and the result tells how they were answered. -/
structure Swept (phase : CompletionPhase) (operations : List Operation)
    (answers : List (Except DirectoryError Unit)) (before : World (Journal σ))
    (result : Except TransactionError Unit) (after : World (Journal σ)) : Prop
    extends Sent operations answers before after where
  reported : Reported phase answers result

/-- A sweep sends what completes the steps, whatever the answers are. -/
theorem sweep_noted (base : Service σ) (parking : Parking) (phase : CompletionPhase) :
    ∀ (pending : List (PendingStep Step)) (audit : AuditLog) (w : World (Journal σ)),
      let swept := Saga.sweep (directoryWrites (Journal.service base) parking) phase pending audit w
      ∃ answers, Sent ((pending.map PendingStep.step).filterMap (Step.completion phase)) answers w
          swept.2.2 ∧ swept.1.map CompletionFailure.error = errors answers := by
  intro pending
  induction pending with
  | nil =>
    intro audit w
    exact ⟨[], ⟨rfl, (List.append_nil _).symm⟩, rfl⟩
  | cons first more ih =>
    intro audit w
    obtain ⟨index, step⟩ := first
    rw [Saga.sweep_cons, List.map_cons, complete_step]
    cases hop : step.completion phase with
    | none =>
      rw [List.filterMap_cons_none hop]
      exact ih _ w
    | some operation =>
      rw [List.filterMap_cons_some hop]
      obtain ⟨answer, v, hcall, hsaid, -⟩ := w.call_noting (.write operation) (base.write operation)
      have hcall : w.call ((Journal.service base).write operation) = (answer, v) := hcall
      simp only [hcall]
      obtain ⟨answers, hsent, hfailures⟩ :=
        ih (audit.update index (.settle (phase.outcome answer))) v
      refine ⟨answer :: answers, ⟨?_, ?_⟩, ?_⟩
      · rw [List.length_cons, List.length_cons, hsent.length]
      · rw [hsent.said, hsaid, List.zipWith_cons_cons, List.append_assoc, List.singleton_append]
      · rw [List.map_append, hfailures]
        cases answer with
        | ok _ => rfl
        | error e =>
          rw [Participant.failure?_error]
          rfl

namespace Transaction

/-- The operations that complete what is left to be done, in the order in which they are sent. -/
def calls (deeds : List Deed) : CompletionPhase → List Operation
  | .commit => deeds.filterMap Deed.finish
  | .rollback => deeds.reverse.map Deed.undo

theorem completions_eq_calls (tx : Transaction σ) (phase : CompletionPhase) :
    tx.completions phase = calls tx.deeds phase := by
  cases phase with
  | commit =>
    rw [completions, calls, deeds, List.filterMap_map]
    rfl
  | rollback =>
    rw [completions, calls, deeds, ← List.map_reverse, List.reverse_reverse, List.map_map]
    rfl

/-- **A completion sends what is left to be done, once.** -/
theorem complete_noted {base : Service σ} {tx : Transaction (Journal σ)}
    (htx : tx.service = Journal.service base) (phase : CompletionPhase) (w : World (Journal σ)) :
    ∃ answers, Swept phase (calls tx.deeds phase) answers w (tx.complete phase w).1
      (tx.complete phase w).2.2 := by
  rw [← completions_eq_calls, completions_eq]
  obtain ⟨service, parking, saga⟩ := tx
  obtain rfl : service = Journal.service base := htx
  obtain ⟨answers, hsent, hfailures⟩ :=
    sweep_noted base parking phase (saga.visited phase) saga.audit w
  refine ⟨answers, hsent, ?_⟩
  simp only [complete, participant, Saga.complete, List.isEmpty_iff]
  split
  · next h =>
    rw [h, List.map_nil] at hfailures
    exact .clean (errors_eq_nil_iff.mp hfailures.symm)
  · next h =>
    refine .broken _ (fun hall => h ?_) hfailures
    rw [errors_eq_nil_iff.mpr hall] at hfailures
    exact List.map_eq_nil_iff.mp hfailures

/-- A transaction that has been completed has nothing to say any more. -/
theorem abandon_complete (tx : Transaction σ) (phase : CompletionPhase) (w v : World σ) :
    (tx.complete phase w).2.1.abandon v = (none, v) := rfl

end Transaction

end DirectorySaga
