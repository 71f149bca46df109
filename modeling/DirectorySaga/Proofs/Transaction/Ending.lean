/-
However a transaction ends.

Between its start and its end a transaction is in the hands of a procedure, which decides by
the answers that it gets what it asks for next, and in the end returns a value or fails.  Then
the transaction is committed, rolled back or dropped; or it is ended by `execute`, as the
outcome demands.  In each case the directory is sent just what the writes that were made left
to be done, once and in the right order, and nothing is sent after that.

The service is arbitrary: any of its calls may fail, or answer whatever it likes.  So nothing
can be said about what the directory contains, only about what was said to it, and that is
what a journal keeps.  The journal does not disturb what it observes (`Undisturbed`).
-/
import DirectorySaga.Proofs.Transaction.Journal

namespace DirectorySaga

variable {σ τ ε α β : Type}

/-! ### Procedures -/

/-- What is done with a transaction before it ends.  Every call is followed by what is done
upon its answer. -/
inductive Procedure (ε α : Type)
  | finish (outcome : Except ε α)
  | perform (operation : Operation) (next : Except TransactionError Unit → Procedure ε α)
  | lookup (name : Name) (next : Except DirectoryError Attributes → Procedure ε α)
  /-- Asks how many writes are pending, and for the record of all attempts. -/
  | review (next : Nat → AuditLog → Procedure ε α)

namespace Procedure

/-- Carries the procedure out. -/
def run : Procedure ε α → Transaction σ → World σ → Except ε α × Transaction σ × World σ
  | .finish outcome, tx, w => (outcome, tx, w)
  | .perform operation next, tx, w =>
    let (answer, tx, w) := tx.perform operation w
    run (next answer) tx w
  | .lookup name next, tx, w =>
    let (answer, w) := tx.lookup name w
    run (next answer) tx w
  | .review next, tx, w => run (next tx.pending tx.audit) tx w

/-- The writes that the procedure attempts. -/
def attempts : Procedure ε α → Transaction σ → World σ → List (Transaction.Attempt σ)
  | .finish _, _, _ => []
  | .perform operation next, tx, w =>
    let (answer, tx', w') := tx.perform operation w
    ⟨tx, w, operation⟩ :: attempts (next answer) tx' w'
  | .lookup name next, tx, w =>
    let (answer, w) := tx.lookup name w
    attempts (next answer) tx w
  | .review next, tx, w => attempts (next tx.pending tx.audit) tx w

/-- The deeds are what the attempts that succeeded have left to be done, the oldest first. -/
def Leaves (parking : Parking) (attempts : List (Transaction.Attempt (Journal σ)))
    (deeds : List Deed) : Prop :=
  List.Forall₂ (fun a deed => Performed parking a.world.sequences a.operation a.said deed)
    (attempts.filter Transaction.Attempt.succeeds) deeds

/-- **What a procedure leaves to be done is what its writes leave.** -/
theorem run_noted {base : Service σ} (body : Procedure ε α) :
    ∀ (tx : Transaction (Journal σ)) (w : World (Journal σ)),
      tx.service = Journal.service base →
      (body.run tx w).2.1.service = Journal.service base ∧
        ∃ deeds, Leaves tx.parking (body.attempts tx w) deeds ∧
          (body.run tx w).2.1.deeds = tx.deeds ++ deeds := by
  induction body with
  | finish outcome =>
    intro tx w htx
    exact ⟨htx, [], .nil, (List.append_nil _).symm⟩
  | lookup name next ih =>
    intro tx w htx
    exact ih _ tx _ htx
  | review next ih =>
    intro tx w htx
    exact ih _ _ tx w htx
  | perform operation next ih =>
    intro tx w htx
    obtain ⟨hservice, deeds, hleaves, hdeeds⟩ :=
      ih (tx.perform operation w).1 (tx.perform operation w).2.1 (tx.perform operation w).2.2 htx
    refine ⟨hservice, ?_⟩
    cases Transaction.perform_noted htx operation w with
    | failed h same =>
      refine ⟨deeds, ?_, ?_⟩
      · rw [Leaves, attempts, List.filter_cons_of_neg (by simpa using h)]
        exact hleaves
      · rw [same] at hdeeds
        exact hdeeds
    | made deed h performed added =>
      refine ⟨deed :: deeds, ?_, ?_⟩
      · rw [Leaves, attempts, List.filter_cons_of_pos h]
        exact .cons performed hleaves
      · rw [added, List.append_assoc] at hdeeds
        exact hdeeds

end Procedure

/-! ### The end -/

namespace Transaction

variable {base : Service σ} {tx : Transaction (Journal σ)}

/-- A transaction that is dropped says what it would say if it were rolled back. -/
theorem abandon_world (tx : Transaction σ) (w : World σ) :
    (tx.abandon w).2 = (tx.rollback w).2.2 := by
  rw [abandon_eq]
  split
  · next h =>
    obtain ⟨service, parking, pending, audit⟩ := tx
    obtain rfl : pending = [] := List.isEmpty_iff.mp h
    rfl
  · rfl

/-- The phase that the outcome demands. -/
def phaseFor : Except ε α → CompletionPhase
  | .ok _ => .commit
  | .error _ => .rollback

theorem conclude_eq (tx : Transaction σ) (lift : TransactionError → ε) (outcome : Except ε α)
    (w : World σ) :
    tx.conclude lift outcome w =
      (match (tx.complete (phaseFor outcome) w).1 with
        | .ok _ => outcome
        | .error e => .error (lift e),
        (tx.complete (phaseFor outcome) w).2) := by
  have hphase :
      (if outcome.isOk then CompletionPhase.commit else .rollback) = phaseFor outcome := by
    cases outcome <;> rfl
  simp only [conclude, hphase]
  rcases tx.complete (phaseFor outcome) w with ⟨_ | _, rest⟩ <;> rfl

/-- What comes of a transaction that is ended as the outcome demands, after these answers: the
outcome, if all that was to be done could be done, and otherwise an error that tells what could
not. -/
inductive Concluded (lift : TransactionError → ε) (outcome : Except ε α)
    (answers : List (Except DirectoryError Unit)) : Except ε α → Prop
  | clean (h : ∀ answer ∈ answers, answer = .ok ()) : Concluded lift outcome answers outcome
  | broken (failures : List (CompletionFailure DirectoryError))
      (h : ¬ ∀ answer ∈ answers, answer = .ok ())
      (all : failures.map CompletionFailure.error = errors answers) :
      Concluded lift outcome answers (.error (lift (.system (phaseFor outcome) failures)))

/-- A value is returned just if it is the outcome and all that was to be done could be done. -/
theorem Concluded.ok_iff {lift : TransactionError → ε} {outcome result : Except ε α}
    {answers : List (Except DirectoryError Unit)} (h : Concluded lift outcome answers result)
    (value : α) :
    result = .ok value ↔ outcome = .ok value ∧ ∀ answer ∈ answers, answer = .ok () := by
  cases h with
  | clean h => exact (and_iff_left h).symm
  | broken failures h _ => exact ⟨fun hvalue => (nomatch hvalue), fun hall => absurd hall.2 h⟩

theorem conclude_noted (htx : tx.service = Journal.service base) (lift : TransactionError → ε)
    (outcome : Except ε α) (w : World (Journal σ)) :
    ∃ answers,
      Sent (calls tx.deeds (phaseFor outcome)) answers w (tx.conclude lift outcome w).2.2 ∧
        Concluded lift outcome answers (tx.conclude lift outcome w).1 := by
  obtain ⟨answers, hsent, hreported⟩ := complete_noted htx (phaseFor outcome) w
  rw [conclude_eq]
  refine ⟨answers, hsent, ?_⟩
  generalize (tx.complete (phaseFor outcome) w).1 = result at hreported ⊢
  cases hreported with
  | clean h => exact .clean h
  | broken failures h all => exact .broken failures h all

end Transaction

/-! ### Without the journal -/

/-- The world without the journal. -/
def World.plain (w : World (Journal σ)) : World σ := ⟨w.directory.inner, w.sequences⟩

namespace Transaction

/-- The same transaction over another service. -/
def withService (service : Service τ) (tx : Transaction σ) : Transaction τ :=
  ⟨service, tx.parking, tx.saga⟩

/-- What comes of a call, without the journal. -/
def plain (base : Service σ) (r : β × Transaction (Journal σ) × World (Journal σ)) :
    β × Transaction σ × World σ :=
  (r.1, r.2.1.withService base, r.2.2.plain)

variable {base : Service σ} {tx : Transaction (Journal σ)}

/-- Sagas that run in lockstep, the one with a journal and the other without. -/
theorem eq_plain {parking : Parking}
    {x : Except TransactionError Unit × Saga Step × World (Journal σ)}
    {y : Except TransactionError Unit × Saga Step × World σ}
    (h : Saga.Lockstep Eq (World.Related fun j s => j.inner = s) x y) :
    (y.1, (⟨base, parking, y.2.1⟩ : Transaction σ), y.2.2) =
      plain base (x.1, ⟨Journal.service base, parking, x.2.1⟩, x.2.2) := by
  obtain ⟨hresult, hsaga, hdirectory, hsequences⟩ := h
  obtain ⟨result, saga, w⟩ := x
  obtain ⟨result', saga', directory, sequences⟩ := y
  obtain rfl : result = result' := hresult
  obtain rfl : saga = saga' := Saga.matches_eq_iff.mp hsaga
  obtain rfl : w.directory.inner = directory := hdirectory
  obtain rfl : w.sequences = sequences := hsequences
  rfl

theorem perform_plain (htx : tx.service = Journal.service base) (operation : Operation)
    (w : World (Journal σ)) :
    (tx.withService base).perform operation w.plain = plain base (tx.perform operation w) := by
  obtain ⟨service, parking, saga⟩ := tx
  obtain rfl : service = Journal.service base := htx
  have hwrites := directoryWrites_mirrors (Journal.mirrors base) parking
  exact eq_plain (Saga.perform_lockstep hwrites trivial (Saga.matches_eq_iff.mpr rfl) ⟨rfl, rfl⟩)

theorem lookup_plain (htx : tx.service = Journal.service base) (name : Name)
    (w : World (Journal σ)) :
    (tx.withService base).lookup name w.plain =
      ((tx.lookup name w).1, (tx.lookup name w).2.plain) := by
  obtain ⟨service, parking, saga⟩ := tx
  obtain rfl : service = Journal.service base := htx
  rfl

theorem complete_plain (htx : tx.service = Journal.service base) (phase : CompletionPhase)
    (w : World (Journal σ)) :
    (tx.withService base).complete phase w.plain = plain base (tx.complete phase w) := by
  obtain ⟨service, parking, saga⟩ := tx
  obtain rfl : service = Journal.service base := htx
  have hwrites := directoryWrites_mirrors (Journal.mirrors base) parking
  exact eq_plain (Saga.complete_lockstep hwrites phase (Saga.matches_eq_iff.mpr rfl) ⟨rfl, rfl⟩)

theorem abandon_plain (htx : tx.service = Journal.service base) (w : World (Journal σ)) :
    (tx.withService base).abandon w.plain = ((tx.abandon w).1, (tx.abandon w).2.plain) := by
  have hrollback : (tx.withService base).rollback w.plain = plain base (tx.rollback w) :=
    complete_plain htx .rollback w
  rw [abandon_eq, abandon_eq, hrollback]
  show (if tx.saga.isEmpty then _ else _) = _
  split <;> rfl

theorem conclude_plain (htx : tx.service = Journal.service base) (lift : TransactionError → ε)
    (outcome : Except ε α) (w : World (Journal σ)) :
    (tx.withService base).conclude lift outcome w.plain =
      plain base (tx.conclude lift outcome w) := by
  rw [conclude_eq, conclude_eq, complete_plain htx]
  rfl

end Transaction

open Transaction

theorem Procedure.run_plain {base : Service σ} (body : Procedure ε α) :
    ∀ (tx : Transaction (Journal σ)) (w : World (Journal σ)), tx.service = Journal.service base →
      body.run (tx.withService base) w.plain = plain base (body.run tx w) := by
  induction body with
  | finish outcome =>
    intro tx w htx
    rfl
  | perform operation next ih =>
    intro tx w htx
    simp only [run, perform_plain htx]
    exact ih _ _ _ htx
  | lookup name next ih =>
    intro tx w htx
    simp only [run, lookup_plain htx]
    exact ih _ tx _ htx
  | review next ih =>
    intro tx w htx
    exact ih _ _ tx w htx

/-! ### However it ends -/

namespace TransactionManager

/-- The manager with a journal. -/
def noted (m : TransactionManager σ) : TransactionManager (Journal σ) :=
  ⟨Journal.service m.service, m.parking⟩

/-- The journal changes nothing, neither while the procedure runs nor when the transaction
ends. -/
structure Undisturbed (m : TransactionManager σ) (lift : TransactionError → ε)
    (body : Procedure ε α) (w : World (Journal σ)) : Prop where
  runs : body.run m.start w.plain = plain m.service (body.run m.noted.start w)
  completes : ∀ phase,
    let (_, tx, after) := body.run m.noted.start w
    (tx.withService m.service).complete phase after.plain =
      plain m.service (tx.complete phase after)
  abandons :
    let (_, tx, after) := body.run m.noted.start w
    (tx.withService m.service).abandon after.plain =
      ((tx.abandon after).1, (tx.abandon after).2.plain)
  executes : m.execute lift body.run w.plain =
    ((m.noted.execute lift body.run w).1, (m.noted.execute lift body.run w).2.plain)

theorem undisturbed (m : TransactionManager σ) (lift : TransactionError → ε)
    (body : Procedure ε α) (w : World (Journal σ)) : m.Undisturbed lift body w := by
  have hstart : m.noted.start.service = Journal.service m.service := rfl
  have hruns : body.run m.start w.plain = _ := body.run_plain m.noted.start w hstart
  have hservice := (body.run_noted m.noted.start w hstart).1
  refine ⟨hruns, fun phase => complete_plain hservice phase _, abandon_plain hservice _, ?_⟩
  have hconclude := conclude_plain hservice lift (body.run m.noted.start w).1
    (body.run m.noted.start w).2.2
  simp only [plain] at hconclude
  simp only [execute, hruns, plain, hconclude]

/--
**However a transaction ends, the directory is told what is left to be done, once.**  Let a
procedure make any writes through a new transaction, over a service that answers whatever it
likes.  Each write that is made leaves a deed, and no other does.  A commit sends what makes
these writes final, in their order, and a rollback what undoes them, in the reverse order;
each of these calls is made once, whatever has been answered before, and no other is made, not
even when the transaction is dropped afterwards.  A transaction that is dropped without that
is rolled back.  To execute the procedure is to commit if it returns a value and to roll back
if it fails; and a value is returned just if the procedure returned it and every call of the
commit succeeded.
-/
theorem ends_with_what_is_left (m : TransactionManager σ) (lift : TransactionError → ε)
    (body : Procedure ε α) (w : World (Journal σ)) :
    let outcome := (body.run m.noted.start w).1
    let tx := (body.run m.noted.start w).2.1
    let before := (body.run m.noted.start w).2.2
    let executed := m.noted.execute lift body.run w
    m.Undisturbed lift body w ∧
    ∃ deeds, Procedure.Leaves m.parking (body.attempts m.noted.start w) deeds ∧
      (∀ phase,
        let ended := tx.complete phase before
        (∃ answers, Swept phase (calls deeds phase) answers before ended.1 ended.2.2) ∧
          ∀ after, ended.2.1.abandon after = (none, after)) ∧
      (∃ answers, Sent (calls deeds .rollback) answers before (tx.abandon before).2) ∧
      ∃ answers, Sent (calls deeds (phaseFor outcome)) answers before executed.2 ∧
        Concluded lift outcome answers executed.1 ∧
        ∀ value, executed.1 = .ok value ↔
          outcome = .ok value ∧ ∀ answer ∈ answers, answer = .ok () := by
  intro outcome tx before executed
  obtain ⟨hservice, deeds, hleaves, hdeeds⟩ := body.run_noted m.noted.start w rfl
  have hdeeds : tx.deeds = deeds := hdeeds
  refine ⟨m.undisturbed lift body w, deeds, hleaves, ?_, ?_, ?_⟩
  · intro phase
    rw [← hdeeds]
    exact ⟨complete_noted hservice phase before, tx.abandon_complete phase before⟩
  · obtain ⟨answers, hsent, -⟩ := complete_noted hservice .rollback before
    rw [abandon_world, ← hdeeds]
    exact ⟨answers, hsent⟩
  · obtain ⟨answers, hsent, hconcluded⟩ := conclude_noted hservice lift outcome before
    rw [← hdeeds]
    exact ⟨answers, hsent, hconcluded, hconcluded.ok_iff⟩

end TransactionManager

end DirectorySaga
