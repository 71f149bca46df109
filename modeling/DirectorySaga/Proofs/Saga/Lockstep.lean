/-
Two sagas in lockstep.

A saga learns about its participant only from the answers to the calls it makes.  So if a
second participant gives the same answers, call by call, then the second saga keeps
corresponding steps, writes the same audit log and returns the same results.

`Participant.Mirrors` is the condition on single calls: whatever the relation between the
two states and between the steps, it is enough that every call which starts from related
states answers alike and leaves related states behind.  The condition may be limited to
some of the operations.  `perform_lockstep` and `complete_lockstep` lift it to attempts and
completions; nothing about runs of a saga has to be taken apart again where two of them
are compared.

The module begins with the ways in which an attempt can end and a sweep can go on.  Later
modules refer to these and never open `Saga.perform` or `Saga.sweep`.
-/
import Mathlib.Data.List.Forall2
import DirectorySaga.Saga.Basic

namespace DirectorySaga

variable {Op Step Step' σ τ ε α β : Type}

/-! ### How an attempt ends -/

/-- An attempt adds one record to the log. -/
theorem AuditLog.update_start (log : AuditLog) (name : String)
    (change : AuditRecord → AuditRecord) :
    (log.start name).update log.next change = ⟨log.records ++ [change (.started name)]⟩ := by
  simp [AuditLog.start, AuditLog.update, AuditLog.next, List.modify_eq_set_getElem?]

namespace Saga

section

variable {p : Participant Op Step σ ε} {operation : Op} {saga : Saga Step} {s s₁ s₂ : σ}
  {step : Step} {e : ε}

theorem perform_unrecorded (hrecord : p.record operation s = (.error e, s₁)) :
    saga.perform p operation s =
      (.error (.operationFailed (p.operationName operation) e),
        ⟨saga.pending, ⟨saga.audit.records ++ [⟨p.operationName operation, .failed, true, none⟩]⟩⟩,
        s₁) := by
  unfold Saga.perform
  simp only [hrecord, AuditLog.update_start]
  rfl

theorem perform_unperformed (hrecord : p.record operation s = (.ok step, s₁))
    (hperform : p.perform step s₁ = (.error e, s₂)) :
    saga.perform p operation s =
      (.error (.operationFailed (p.operationName operation) e),
        ⟨saga.pending, ⟨saga.audit.records ++ [⟨p.operationName operation, .failed, true, none⟩]⟩⟩,
        s₂) := by
  unfold Saga.perform
  simp only [hrecord, hperform, AuditLog.update_start]
  rfl

theorem perform_performed (hrecord : p.record operation s = (.ok step, s₁))
    (hperform : p.perform step s₁ = (.ok (), s₂)) :
    saga.perform p operation s =
      (.ok (),
        ⟨⟨saga.audit.next, step⟩ :: saga.pending,
          ⟨saga.audit.records ++ [⟨p.operationName operation, .performed, true,
            some (p.rollbackDescription step)⟩]⟩⟩,
        s₂) := by
  unfold Saga.perform
  simp only [hrecord, hperform, AuditLog.update_start]
  rfl

end

end Saga

/-! ### How a sweep goes on -/

/-- The status of a step after the answer to its completion. -/
def CompletionPhase.outcome (phase : CompletionPhase) : Except ε Unit → OperationStatus
  | .ok _ => phase.done
  | .error _ => phase.broken

/-- What is reported of a step after the answer to its completion. -/
def Participant.failure? (p : Participant Op Step σ ε) :
    CompletionPhase → Step → Except ε Unit → Option (CompletionFailure ε)
  | _, _, .ok _ => none
  | .commit, step, .error e => some ⟨p.stepName step, p.commitDescription step, e⟩
  | .rollback, step, .error e => some ⟨p.stepName step, p.rollbackDescription step, e⟩

theorem Participant.failure?_error (p : Participant Op Step σ ε) (phase : CompletionPhase)
    (step : Step) (e : ε) :
    p.failure? phase step (.error e) = some ⟨p.stepName step, p.description phase step, e⟩ := by
  cases phase <;> rfl

/-- A sweep completes the first step and goes on with the others, whatever the answer was. -/
theorem Saga.sweep_cons (p : Participant Op Step σ ε) (phase : CompletionPhase) (index : Nat)
    (step : Step) (more : List (PendingStep Step)) (audit : AuditLog) (s : σ) :
    sweep p phase (⟨index, step⟩ :: more) audit s =
      let (answer, s) := p.complete phase step s
      let (failures, rest) :=
        sweep p phase more (audit.update index (.settle (phase.outcome answer))) s
      ((p.failure? phase step answer).toList ++ failures, rest) := by
  rw [sweep]
  cases p.complete phase step s with
  | mk answer s₁ =>
    cases answer with
    | ok _ => rfl
    | error e =>
      simp only [Participant.failure?_error]
      rfl

/-! ### Participants that answer alike -/

/-- Both answers are the same error, or both are values, and the values are related. -/
inductive SameAnswer (related : α → β → Prop) : Except ε α → Except ε β → Prop
  | ok {a : α} {b : β} (h : related a b) : SameAnswer related (.ok a) (.ok b)
  | error (e : ε) : SameAnswer related (.error e) (.error e)

/-- The answers are the same, and the states after them are related. -/
structure SameReply (related : σ → τ → Prop) (a : α × σ) (b : α × τ) : Prop where
  answer : a.1 = b.1
  state : related a.2 b.2

/-- Call by call, `q` answers what `p` answers, as long as the operations are admitted. -/
structure Participant.Mirrors (p : Participant Op Step σ ε) (q : Participant Op Step' τ ε)
    (admitted : Op → Prop) (steps : Step → Step' → Prop) (states : σ → τ → Prop) : Prop where
  operationName : ∀ operation, p.operationName operation = q.operationName operation
  stepName : ∀ {x y}, steps x y → p.stepName x = q.stepName y
  description : ∀ phase {x y}, steps x y → p.description phase x = q.description phase y
  record : ∀ {operation s t}, admitted operation → states s t →
    SameAnswer steps (p.record operation s).1 (q.record operation t).1 ∧
      states (p.record operation s).2 (q.record operation t).2
  perform : ∀ {x y s t}, steps x y → states s t →
    (p.perform x s).1 = (q.perform y t).1 ∧ states (p.perform x s).2 (q.perform y t).2
  complete : ∀ phase {x y s t}, steps x y → states s t →
    (p.complete phase x s).1 = (q.complete phase y t).1 ∧
      states (p.complete phase x s).2 (q.complete phase y t).2

namespace Saga

/-- Corresponding steps are kept, with their records at the same places. -/
abbrev SamePending (steps : Step → Step' → Prop) :
    List (PendingStep Step) → List (PendingStep Step') → Prop :=
  List.Forall₂ fun a b => a.index = b.index ∧ steps a.step b.step

/-- The sagas keep corresponding steps and have the same log. -/
structure Matches (steps : Step → Step' → Prop) (saga : Saga Step) (saga' : Saga Step') :
    Prop where
  pending : SamePending steps saga.pending saga'.pending
  audit : saga.audit = saga'.audit

/-- Where corresponding steps are equal, matching sagas are. -/
theorem matches_iff_eq {kept : Step → Prop} {steps : Step → Step → Prop}
    (hsteps : ∀ x y, steps x y ↔ kept x ∧ x = y) {saga saga' : Saga Step} :
    Matches steps saga saga' ↔ saga = saga' ∧ ∀ x ∈ saga.pending, kept x.step := by
  have hstep : (fun x y : PendingStep Step => x.index = y.index ∧ steps x.step y.step) =
      fun x y => kept x.step ∧ x = y := by
    funext x y
    obtain ⟨index, step⟩ := x
    obtain ⟨index', step'⟩ := y
    simp only [hsteps, PendingStep.mk.injEq]
    exact propext and_left_comm
  have hpending : SamePending steps saga.pending saga'.pending ↔
      (∀ x ∈ saga.pending, kept x.step) ∧ saga.pending = saga'.pending := by
    rw [SamePending, hstep, List.forall₂_and_left, List.forall₂_eq_eq_eq]
  obtain ⟨pending, audit⟩ := saga
  obtain ⟨pending', audit'⟩ := saga'
  constructor
  · intro ⟨hmatch, haudit⟩
    obtain ⟨hkept, hsame⟩ := hpending.mp hmatch
    simp only at hsame haudit
    rw [hsame, haudit] at hkept ⊢
    exact ⟨rfl, hkept⟩
  · intro ⟨h, hkept⟩
    cases h
    exact ⟨hpending.mpr ⟨hkept, rfl⟩, rfl⟩

theorem matches_eq_iff {saga saga' : Saga Step} : Matches Eq saga saga' ↔ saga = saga' := by
  have htrue : ∀ x y : Step, x = y ↔ (fun _ => True) x ∧ x = y := by simp
  rw [matches_iff_eq htrue]
  simp

/-- Two sagas have answered alike, and go on from matching sagas and related states. -/
structure Lockstep (steps : Step → Step' → Prop) (states : σ → τ → Prop)
    (a : Except (SagaError ε) Unit × Saga Step × σ)
    (b : Except (SagaError ε) Unit × Saga Step' × τ) : Prop where
  result : a.1 = b.1
  saga : Matches steps a.2.1 b.2.1
  state : states a.2.2 b.2.2

section

variable {p : Participant Op Step σ ε} {q : Participant Op Step' τ ε} {admitted : Op → Prop}
  {steps : Step → Step' → Prop} {states : σ → τ → Prop} (h : p.Mirrors q admitted steps states)

include h

theorem perform_lockstep {operation : Op} {saga : Saga Step} {saga' : Saga Step'} {s : σ} {t : τ}
    (hadmitted : admitted operation) (hsaga : Matches steps saga saga') (hstate : states s t) :
    Lockstep steps states (saga.perform p operation s) (saga'.perform q operation t) := by
  obtain ⟨hanswer, hrecorded⟩ := h.record hadmitted hstate
  cases hp : p.record operation s with
  | mk answer s₁ =>
  cases hq : q.record operation t with
  | mk answer' t₁ =>
  rw [hp, hq] at hanswer hrecorded
  cases hanswer with
  | error e =>
    rw [perform_unrecorded hp, perform_unrecorded hq, h.operationName, hsaga.audit]
    exact ⟨rfl, ⟨hsaga.pending, rfl⟩, hrecorded⟩
  | @ok x y hxy =>
    obtain ⟨hsame, hperformed⟩ := h.perform hxy hrecorded
    cases hp' : p.perform x s₁ with
    | mk result s₂ =>
    cases hq' : q.perform y t₁ with
    | mk result' t₂ =>
    rw [hp', hq'] at hsame hperformed
    simp only at hsame
    subst hsame
    cases result with
    | error e =>
      rw [perform_unperformed hp hp', perform_unperformed hq hq', h.operationName, hsaga.audit]
      exact ⟨rfl, ⟨hsaga.pending, rfl⟩, hperformed⟩
    | ok _ =>
      have hdescription : p.rollbackDescription x = q.rollbackDescription y :=
        h.description .rollback hxy
      rw [perform_performed hp hp', perform_performed hq hq', h.operationName, hsaga.audit,
        hdescription]
      exact ⟨rfl, ⟨.cons ⟨rfl, hxy⟩ hsaga.pending, rfl⟩, hperformed⟩

theorem sweep_lockstep (phase : CompletionPhase) : ∀ {list : List (PendingStep Step)}
    {list' : List (PendingStep Step')} (audit : AuditLog) {s : σ} {t : τ},
      SamePending steps list list' → states s t →
      (sweep p phase list audit s).1 = (sweep q phase list' audit t).1 ∧
        (sweep p phase list audit s).2.1 = (sweep q phase list' audit t).2.1 ∧
        states (sweep p phase list audit s).2.2 (sweep q phase list' audit t).2.2 := by
  intro list
  induction list with
  | nil =>
    intro list' audit s t hlist hstate
    cases hlist
    exact ⟨rfl, rfl, hstate⟩
  | cons first more ih =>
    intro list' audit s t hlist hstate
    cases hlist with
    | @cons _ first' _ more' hfirst hmore =>
      obtain ⟨index, x⟩ := first
      obtain ⟨index', y⟩ := first'
      obtain ⟨hindex, hxy⟩ := hfirst
      simp only at hindex hxy
      subst hindex
      obtain ⟨hsame, hcompleted⟩ := h.complete phase hxy hstate
      obtain ⟨hfailures, hrest⟩ :=
        ih (audit.update index (.settle (phase.outcome (p.complete phase x s).1))) hmore hcompleted
      have hreported : p.failure? phase x = q.failure? phase y := by
        funext answer
        cases answer with
        | ok _ => rfl
        | error e =>
          simp only [Participant.failure?_error, h.stepName hxy, h.description phase hxy]
      rw [sweep_cons, sweep_cons]
      simp only [hreported, ← hsame]
      exact ⟨by rw [hfailures], hrest⟩

theorem complete_lockstep (phase : CompletionPhase) {saga : Saga Step} {saga' : Saga Step'}
    {s : σ} {t : τ} (hsaga : Matches steps saga saga') (hstate : states s t) :
    Lockstep steps states (saga.complete p phase s) (saga'.complete q phase t) := by
  have hvisited : SamePending steps (saga.visited phase) (saga'.visited phase) := by
    cases phase with
    | commit => exact List.forall₂_reverse_iff.mpr hsaga.pending
    | rollback => exact hsaga.pending
  obtain ⟨hfailures, haudit, hswept⟩ := sweep_lockstep h phase saga.audit hvisited hstate
  unfold Saga.complete
  rw [← hsaga.audit]
  exact ⟨by simp only [hfailures], ⟨.nil, haudit⟩, hswept⟩

end

end Saga

end DirectorySaga
