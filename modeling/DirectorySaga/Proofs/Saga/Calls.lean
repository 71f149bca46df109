/-
The calls that a saga makes.

What a saga owes to its participant cannot be read off the saga itself: that a step was
completed once and not twice shows only in the calls.  So the participant is observed.
`Participant.observed` does what the participant does and notes every call down, with the
answer to it and with the number of the attempt that it belongs to.  Attempts are numbered
from zero, and a step carries the number of the attempt that has made it, so that steps
can be told apart even if they are equal.

Observing changes nothing (`turns_unobserved`), whoever the participant is, so what is
proved of the calls of an observed participant is proved of every participant.

A saga is told what to do by commands, one after the other, and may go on after a commit
or a rollback.  `turns` lists what comes of each command, and `turns_spec` is the induction
over runs: what every command preserves holds before and after every turn.
-/
import DirectorySaga.Proofs.Saga.Lockstep

namespace DirectorySaga

variable {Op Step σ ε : Type}

/-! ### Commands -/

namespace Saga

/-- What a saga can be told to do. -/
inductive Command (Op : Type)
  /-- To attempt an operation. -/
  | perform (operation : Op)
  /-- To commit or to roll back. -/
  | complete (phase : CompletionPhase)

/-- The operation to be attempted, if the command is to attempt one. -/
def Command.operation? : Command Op → Option Op
  | .perform operation => some operation
  | .complete _ => none

/-- Whether the command is to commit or to roll back. -/
def Command.completes : Command Op → Bool
  | .perform _ => false
  | .complete _ => true

/-- Does what the command says. -/
def obey (p : Participant Op Step σ ε) (saga : Saga Step) (s : σ) :
    Command Op → Except (SagaError ε) Unit × Saga Step × σ
  | .perform operation => saga.perform p operation s
  | .complete phase => saga.complete p phase s

/-- What comes of a command. -/
structure Turn (Op Step σ ε : Type) where
  command : Command Op
  before : Saga Step
  start : σ
  result : Except (SagaError ε) Unit
  after : Saga Step
  state : σ

/-- What comes of the commands, one after the other. -/
def turns (p : Participant Op Step σ ε) : List (Command Op) → Saga Step → σ →
    List (Turn Op Step σ ε)
  | [], _, _ => []
  | command :: more, saga, s =>
    let (result, after, state) := saga.obey p s command
    ⟨command, saga, s, result, after, state⟩ :: turns p more after state

/-- The steps to be completed, the oldest first. -/
def kept (saga : Saga Step) : List Step := (saga.pending.map PendingStep.step).reverse

/-- The operations that are attempted before turn `j`. -/
def attempted (commands : List (Command Op)) (j : Nat) : List Op :=
  (commands.take j).filterMap Command.operation?

theorem attempted_cons (command : Command Op) (more : List (Command Op)) (j : Nat) :
    attempted (command :: more) (j + 1) = command.operation?.toList ++ attempted more j := by
  cases command <;> simp [attempted, List.filterMap_cons, Command.operation?]

/-- What every command preserves holds before and after every turn, and a turn is what comes of
its command. -/
theorem turns_spec {p : Participant Op Step σ ε} (Inv : List Op → Saga Step → σ → Prop)
    (hobey : ∀ operations saga s (command : Command Op), Inv operations saga s →
      Inv (operations ++ command.operation?.toList) (saga.obey p s command).2.1
        (saga.obey p s command).2.2) :
    ∀ (commands : List (Command Op)) (operations : List Op) (saga : Saga Step) (s : σ),
      Inv operations saga s → ∀ j t, (turns p commands saga s)[j]? = some t →
        Inv (operations ++ attempted commands j) t.before t.start ∧
          t.before.obey p t.start t.command = (t.result, t.after, t.state) ∧
          Inv (operations ++ attempted commands (j + 1)) t.after t.state := by
  intro commands
  induction commands with
  | nil =>
    intro operations saga s _ j t ht
    simp [turns] at ht
  | cons command more ih =>
    intro operations saga s h j t ht
    have hnext := hobey operations saga s command h
    rw [turns] at ht
    cases j with
    | zero =>
      rw [List.getElem?_cons_zero, Option.some.injEq] at ht
      subst ht
      refine ⟨?_, rfl, ?_⟩
      · simpa [attempted] using h
      · rw [attempted_cons]
        simpa [attempted] using hnext
    | succ j =>
      rw [List.getElem?_cons_succ] at ht
      rw [attempted_cons, attempted_cons, ← List.append_assoc, ← List.append_assoc]
      exact ih _ _ _ hnext j t ht

end Saga

/-! ### Observation -/

namespace Participant

/-- A step, and the number of the attempt that has made it. -/
structure Numbered (Step : Type) where
  attempt : Nat
  step : Step

/-- A call to a participant and the answer to it. -/
inductive Call (Op Step ε : Type)
  | record (attempt : Nat) (operation : Op) (answer : Except ε Step)
  | perform (attempt : Nat) (step : Step) (answer : Except ε Unit)
  | complete (phase : CompletionPhase) (attempt : Nat) (step : Step) (answer : Except ε Unit)

/-- The number of the attempt that the call belongs to. -/
def Call.attempt : Call Op Step ε → Nat
  | .record attempt _ _ | .perform attempt _ _ | .complete _ attempt _ _ => attempt

/-- Whether the call completes the step of the attempt with this number. -/
def Call.completes (attempt : Nat) : Call Op Step ε → Bool
  | .complete _ other _ _ => other == attempt
  | _ => false

/-- A state, the number of attempts so far, and the calls so far. -/
structure Observed (Op Step σ ε : Type) where
  state : σ
  attempts : Nat
  calls : List (Call Op Step ε)

namespace Observed

/-- The state before any call. -/
def start (s : σ) : Observed Op Step σ ε := ⟨s, 0, []⟩

/-- Makes a call on behalf of a step and notes it down. -/
def noting (o : Observed Op Step σ ε) (call : Except ε Unit → Call Op Step ε)
    (answered : Except ε Unit × σ) : Except ε Unit × Observed Op Step σ ε :=
  (answered.1, ⟨answered.2, o.attempts, o.calls ++ [call answered.1]⟩)

end Observed

/-- The participant with its calls noted down. -/
def observed (p : Participant Op Step σ ε) :
    Participant Op (Numbered Step) (Observed Op Step σ ε) ε where
  operationName := p.operationName
  record operation o :=
    let (answer, s) := p.record operation o.state
    (answer.map fun step => ⟨o.attempts, step⟩,
      ⟨s, o.attempts + 1, o.calls ++ [.record o.attempts operation answer]⟩)
  stepName x := p.stepName x.step
  perform x o := o.noting (.perform x.attempt x.step) (p.perform x.step o.state)
  rollback x o := o.noting (.complete .rollback x.attempt x.step) (p.rollback x.step o.state)
  commit x o := o.noting (.complete .commit x.attempt x.step) (p.commit x.step o.state)
  rollbackDescription x := p.rollbackDescription x.step
  commitDescription x := p.commitDescription x.step

theorem observed_complete (p : Participant Op Step σ ε) (phase : CompletionPhase)
    (x : Numbered Step) (o : Observed Op Step σ ε) :
    p.observed.complete phase x o =
      o.noting (.complete phase x.attempt x.step) (p.complete phase x.step o.state) := by
  cases phase <;> rfl

/-- Observing a participant does not change its answers. -/
theorem observed_mirrors (p : Participant Op Step σ ε) :
    p.observed.Mirrors p (fun _ => True) (fun x step => x.step = step)
      (fun o s => o.state = s) where
  operationName _ := rfl
  stepName := by
    intro x _ rfl
    rfl
  description := by
    intro phase x _ rfl
    cases phase <;> rfl
  record := by
    intro operation o _ _ rfl
    refine ⟨?_, rfl⟩
    show SameAnswer _ ((p.record operation o.state).1.map _) _
    cases (p.record operation o.state).1 with
    | ok step => exact .ok rfl
    | error e => exact .error e
  perform := by
    intro x _ o _ rfl rfl
    exact ⟨rfl, rfl⟩
  complete := by
    intro phase x _ o _ rfl rfl
    rw [observed_complete]
    exact ⟨rfl, rfl⟩

end Participant

open Participant (Numbered Call Observed)

namespace Saga

/-- The saga as it is without the numbers. -/
def unobserved (saga : Saga (Numbered Step)) : Saga Step :=
  ⟨saga.pending.map fun x => ⟨x.index, x.step.step⟩, saga.audit⟩

/-- The turn as it is without the observation. -/
def Turn.unobserved (t : Turn Op (Numbered Step) (Observed Op Step σ ε) ε) :
    Turn Op Step σ ε :=
  ⟨t.command, t.before.unobserved, t.start.state, t.result, t.after.unobserved, t.state.state⟩

/-- The calls made in the turn. -/
def Turn.calls (t : Turn Op (Numbered Step) (Observed Op Step σ ε) ε) : List (Call Op Step ε) :=
  t.state.calls.drop t.start.calls.length

theorem Matches.unobserved_eq {saga : Saga (Numbered Step)} {saga' : Saga Step}
    (h : Matches (fun x step => x.step = step) saga saga') : saga.unobserved = saga' := by
  obtain ⟨pending, audit⟩ := saga
  obtain ⟨pending', audit'⟩ := saga'
  obtain ⟨hpending, rfl⟩ := h
  have hlist : pending.map (fun x => (⟨x.index, x.step.step⟩ : PendingStep Step)) = pending' := by
    simp only at hpending
    induction hpending with
    | nil => rfl
    | cons hfirst _ ih => rw [List.map_cons, ih, hfirst.1, hfirst.2]
  exact congrArg (Saga.mk · audit) hlist

theorem obey_lockstep {Step' τ : Type} {p : Participant Op Step σ ε} {q : Participant Op Step' τ ε}
    {admitted : Op → Prop} {steps : Step → Step' → Prop} {states : σ → τ → Prop}
    (h : p.Mirrors q admitted steps states) {saga : Saga Step} {saga' : Saga Step'} {s : σ} {t : τ}
    (hsaga : Matches steps saga saga') (hstate : states s t) (command : Command Op)
    (hadmitted : ∀ operation ∈ command.operation?, admitted operation) :
    Lockstep steps states (saga.obey p s command) (saga'.obey q t command) := by
  cases command with
  | perform operation => exact perform_lockstep h (hadmitted operation rfl) hsaga hstate
  | complete phase => exact complete_lockstep h phase hsaga hstate

/-- **Observing changes nothing.** -/
theorem turns_unobserved (p : Participant Op Step σ ε) : ∀ (commands : List (Command Op))
    (saga : Saga (Numbered Step)) (o : Observed Op Step σ ε),
      (turns p.observed commands saga o).map Turn.unobserved =
        turns p commands saga.unobserved o.state := by
  intro commands
  induction commands with
  | nil =>
    intro saga o
    rfl
  | cons command more ih =>
    intro saga o
    have hsaga : Matches (fun x step => x.step = step) saga saga.unobserved := by
      refine ⟨?_, rfl⟩
      show SamePending _ saga.pending (saga.pending.map _)
      rw [SamePending, List.forall₂_map_right_iff, List.forall₂_same]
      intro x _
      exact ⟨rfl, rfl⟩
    have hstep := obey_lockstep p.observed_mirrors hsaga (rfl : o.state = o.state) command
      fun _ _ => trivial
    rw [turns, turns, List.map_cons, ih, Turn.unobserved]
    simp only [hstep.result, hstep.saga.unobserved_eq, hstep.state]

/-! ### One command -/

section

variable (p : Participant Op Step σ ε) (saga : Saga (Numbered Step)) (o : Observed Op Step σ ε)

/-- An observed attempt ends in one of three ways. -/
theorem perform_observed (operation : Op) :
    (∃ e s, saga.perform p.observed operation o =
      (.error (.operationFailed (p.operationName operation) e),
        ⟨saga.pending, ⟨saga.audit.records ++ [⟨p.operationName operation, .failed, true, none⟩]⟩⟩,
        ⟨s, o.attempts + 1, o.calls ++ [.record o.attempts operation (.error e)]⟩)) ∨
    (∃ step e s, saga.perform p.observed operation o =
      (.error (.operationFailed (p.operationName operation) e),
        ⟨saga.pending, ⟨saga.audit.records ++ [⟨p.operationName operation, .failed, true, none⟩]⟩⟩,
        ⟨s, o.attempts + 1, o.calls ++ [.record o.attempts operation (.ok step),
          .perform o.attempts step (.error e)]⟩)) ∨
    ∃ step s, saga.perform p.observed operation o =
      (.ok (),
        ⟨⟨saga.audit.next, ⟨o.attempts, step⟩⟩ :: saga.pending,
          ⟨saga.audit.records ++ [⟨p.operationName operation, .performed, true,
            some (p.rollbackDescription step)⟩]⟩⟩,
        ⟨s, o.attempts + 1, o.calls ++ [.record o.attempts operation (.ok step),
          .perform o.attempts step (.ok ())]⟩) := by
  cases hrecord : p.record operation o.state with
  | mk answer s₁ =>
  have hobserved : p.observed.record operation o =
      (answer.map fun step => ⟨o.attempts, step⟩,
        ⟨s₁, o.attempts + 1, o.calls ++ [.record o.attempts operation answer]⟩) := by
    simp only [Participant.observed, hrecord]
  cases answer with
  | error e => exact .inl ⟨e, s₁, perform_unrecorded hobserved⟩
  | ok step =>
    cases hperform : p.perform step s₁ with
    | mk result s₂ =>
    have hperformed : p.observed.perform ⟨o.attempts, step⟩
        ⟨s₁, o.attempts + 1, o.calls ++ [.record o.attempts operation (.ok step)]⟩ =
          (result, ⟨s₂, o.attempts + 1, o.calls ++ [.record o.attempts operation (.ok step),
            .perform o.attempts step result]⟩) := by
      simp [Participant.observed, Observed.noting, hperform]
    cases result with
    | error e => exact .inr (.inl ⟨step, e, s₂, perform_unperformed hobserved hperformed⟩)
    | ok _ => exact .inr (.inr ⟨step, s₂, perform_performed hobserved hperformed⟩)

end

end Saga

end DirectorySaga
