/-
The life of a step.

A step comes into being when an operation is recorded.  It is performed once, right after
that; if this succeeds the step is kept, and whatever the participant does then, it will be
completed by one call and no more.  The call belongs to the first commit or rollback that
follows, which visits all the steps kept by then, goes on past failures, reports exactly
these, and leaves no step behind.

`Lawful` says what may come of a single command, as calls, result and steps to be kept.
That every command of every run is lawful is a fact about single commands.  That a step is
completed exactly once is one about runs (`countP_completes_turns`), and it rests on steps
being told apart by the numbers of their attempts: no number is given twice, and those of
the steps that are kept lie below the next one (`Distinct`).
-/
import DirectorySaga.Proofs.Saga.Calls

namespace DirectorySaga

variable {Op Step σ ε : Type}

open Participant (Numbered Call Observed)

/-- The steps, given from the oldest on, in the order in which the phase visits them. -/
def CompletionPhase.order {α : Type} (phase : CompletionPhase) (steps : List α) : List α :=
  match phase with
  | .commit => steps
  | .rollback => steps.reverse

namespace Saga

/-! ### What may come of a command -/

/-- The failures among the calls, as they are reported. -/
def failures (p : Participant Op Step σ ε) (calls : List (Call Op Step ε)) :
    List (CompletionFailure ε) :=
  calls.filterMap fun
    | .complete phase _ step answer => p.failure? phase step answer
    | _ => none

/-- The result of a completion that has made these calls. -/
def verdict (p : Participant Op Step σ ε) (phase : CompletionPhase)
    (calls : List (Call Op Step ε)) : Except (SagaError ε) Unit :=
  if (failures p calls).isEmpty then .ok () else .error (.system phase (failures p calls))

/-- The call completes the step, whatever the answer. -/
def Visits (phase : CompletionPhase) (x : Numbered Step) (call : Call Op Step ε) : Prop :=
  ∃ answer, call = .complete phase x.attempt x.step answer

/-- What may come of a command when `kept` are the steps to be completed, the oldest first,
and `n` is the number of attempts so far: the calls, the result and the steps then kept. -/
inductive Lawful (p : Participant Op Step σ ε) (n : Nat) (kept : List (Numbered Step)) :
    Command Op → List (Call Op Step ε) → Except (SagaError ε) Unit →
      List (Numbered Step) → Prop
  /-- What is not recorded is not performed. -/
  | unrecorded (operation : Op) (e : ε) :
      Lawful p n kept (.perform operation) [.record n operation (.error e)]
        (.error (.operationFailed (p.operationName operation) e)) kept
  /-- What cannot be performed is not kept. -/
  | unperformed (operation : Op) (step : Step) (e : ε) :
      Lawful p n kept (.perform operation)
        [.record n operation (.ok step), .perform n step (.error e)]
        (.error (.operationFailed (p.operationName operation) e)) kept
  | performed (operation : Op) (step : Step) :
      Lawful p n kept (.perform operation)
        [.record n operation (.ok step), .perform n step (.ok ())] (.ok ()) (kept ++ [⟨n, step⟩])
  /-- Every step is visited in the order of the phase, and none is left. -/
  | completed (phase : CompletionPhase) {calls : List (Call Op Step ε)}
      (visits : List.Forall₂ (Visits phase) (phase.order kept) calls) :
      Lawful p n kept (.complete phase) calls (verdict p phase calls) []

variable {p : Participant Op Step σ ε}

theorem map_visited (phase : CompletionPhase) (saga : Saga Step) :
    (saga.visited phase).map PendingStep.step = phase.order saga.kept := by
  cases phase <;> simp [visited, CompletionPhase.order, kept]

/-- A sweep makes one call for each step, and reports the failures among them. -/
theorem sweep_observed (phase : CompletionPhase) : ∀ (list : List (PendingStep (Numbered Step)))
    (audit : AuditLog) (o : Observed Op Step σ ε), ∃ calls,
      (sweep p.observed phase list audit o).1 = failures p calls ∧
        (sweep p.observed phase list audit o).2.2.attempts = o.attempts ∧
        (sweep p.observed phase list audit o).2.2.calls = o.calls ++ calls ∧
        List.Forall₂ (Visits phase) (list.map PendingStep.step) calls := by
  intro list
  induction list with
  | nil =>
    intro audit o
    exact ⟨[], rfl, rfl, (List.append_nil _).symm, .nil⟩
  | cons first more ih =>
    intro audit o
    obtain ⟨index, x⟩ := first
    rw [sweep_cons, Participant.observed_complete]
    generalize p.complete phase x.step o.state = answered
    obtain ⟨calls, hfailures, hattempts, hcalls, hvisits⟩ :=
      ih (audit.update index (.settle (phase.outcome answered.1)))
        (o.noting (.complete phase x.attempt x.step) answered).2
    refine ⟨.complete phase x.attempt x.step answered.1 :: calls, ?_, hattempts, ?_,
      .cons ⟨_, rfl⟩ hvisits⟩
    · have hreport : p.observed.failure? phase x answered.1 =
          p.failure? phase x.step answered.1 := by
        cases answered.1 <;> cases phase <;> rfl
      show (p.observed.failure? phase x answered.1).toList ++ _ = _
      rw [hreport, failures, List.filterMap_cons, ← failures]
      simp only [Observed.noting] at hfailures ⊢
      rw [hfailures]
      cases p.failure? phase x.step answered.1 <;> rfl
    · simp only [Observed.noting] at hcalls ⊢
      rw [hcalls, List.append_assoc, List.singleton_append]

/-- The number of attempts that the command makes. -/
def Command.attempts (command : Command Op) : Nat := command.operation?.toList.length

/-- **Every command is lawful.** -/
theorem obey_lawful (saga : Saga (Numbered Step)) (o : Observed Op Step σ ε)
    (command : Command Op) : ∃ calls,
      (saga.obey p.observed o command).2.2.calls = o.calls ++ calls ∧
        (saga.obey p.observed o command).2.2.attempts = o.attempts + command.attempts ∧
        Lawful p o.attempts saga.kept command calls (saga.obey p.observed o command).1
          (saga.obey p.observed o command).2.1.kept := by
  cases command with
  | perform operation =>
    show ∃ calls, (saga.perform p.observed operation o).2.2.calls = _ ∧
      (saga.perform p.observed operation o).2.2.attempts = o.attempts + 1 ∧
      Lawful p o.attempts saga.kept _ calls (saga.perform p.observed operation o).1
        (saga.perform p.observed operation o).2.1.kept
    rcases perform_observed p saga o operation with
      ⟨e, s, h⟩ | ⟨step, e, s, h⟩ | ⟨step, s, h⟩
    · rw [h]
      exact ⟨_, rfl, rfl, .unrecorded operation e⟩
    · rw [h]
      exact ⟨_, rfl, rfl, .unperformed operation step e⟩
    · rw [h]
      refine ⟨_, rfl, rfl, ?_⟩
      have hkept : kept ⟨⟨saga.audit.next, (⟨o.attempts, step⟩ : Numbered Step)⟩ :: saga.pending,
          ⟨saga.audit.records ++ [⟨p.operationName operation, .performed, true,
            some (p.rollbackDescription step)⟩]⟩⟩ = saga.kept ++ [⟨o.attempts, step⟩] := by
        simp [kept]
      rw [hkept]
      exact .performed operation step
  | complete phase =>
    obtain ⟨calls, hfailures, hattempts, hcalls, hvisits⟩ :=
      sweep_observed (p := p) phase (saga.visited phase) saga.audit o
    rw [map_visited] at hvisits
    refine ⟨calls, hcalls, hattempts, ?_⟩
    have hresult : (saga.obey p.observed o (.complete phase)).1 = verdict p phase calls := by
      unfold obey Saga.complete verdict
      rw [← hfailures]
    rw [hresult]
    exact .completed phase hvisits

/-! ### Telling steps apart -/

/-- The steps carry different numbers, all of them below `n`. -/
structure Distinct (n : Nat) (kept : List (Numbered Step)) : Prop where
  nodup : (kept.map Numbered.attempt).Nodup
  lt : ∀ k ∈ kept.map Numbered.attempt, k < n

theorem Distinct.nil (n : Nat) : Distinct n ([] : List (Numbered Step)) := ⟨by simp, by simp⟩

section

variable {n k : Nat} {kept kept' : List (Numbered Step)} {command : Command Op}
  {calls : List (Call Op Step ε)} {result : Except (SagaError ε) Unit}

theorem Lawful.distinct (h : Lawful p n kept command calls result kept')
    (hkept : Distinct n kept) : Distinct (n + command.attempts) kept' := by
  obtain ⟨hnodup, hlt⟩ := hkept
  cases h with
  | unrecorded operation e => exact ⟨hnodup, fun k hk => Nat.lt_succ_of_lt (hlt k hk)⟩
  | unperformed operation step e => exact ⟨hnodup, fun k hk => Nat.lt_succ_of_lt (hlt k hk)⟩
  | performed operation step =>
    have hnew : n ∉ kept.map Numbered.attempt := fun hn => Nat.lt_irrefl n (hlt n hn)
    refine ⟨?_, ?_⟩
    · rw [List.map_append, List.nodup_append]
      simp only [List.map_cons, List.map_nil]
      refine ⟨hnodup, by simp, ?_⟩
      intro a ha b hb hab
      rw [List.mem_singleton.mp hb] at hab
      exact hnew (hab ▸ ha)
    · intro k hk
      show k < n + 1
      rw [List.map_append, List.mem_append] at hk
      rcases hk with hk | hk
      · exact Nat.lt_succ_of_lt (hlt k hk)
      · simp only [List.map_cons, List.map_nil, List.mem_singleton] at hk
        omega
  | completed phase visits => exact Distinct.nil _

/-- An attempt keeps what was kept, and can add its own step only. -/
theorem Lawful.mem_kept_of_lt (h : Lawful p n kept command calls result kept')
    (hcommand : command.completes = false) (hk : k < n) :
    k ∈ kept'.map Numbered.attempt ↔ k ∈ kept.map Numbered.attempt := by
  cases h with
  | unrecorded operation e => exact Iff.rfl
  | unperformed operation step e => exact Iff.rfl
  | performed operation step =>
    have hne : k ≠ n := Nat.ne_of_lt hk
    simp [hne]
  | completed phase visits => cases hcommand

/-- A completion leaves nothing to be completed. -/
theorem Lawful.kept_eq_nil (h : Lawful p n kept command calls result kept')
    (hcommand : command.completes = true) : kept' = [] := by
  cases h with
  | completed phase visits => rfl
  | unrecorded operation e => cases hcommand
  | unperformed operation step e => cases hcommand
  | performed operation step => cases hcommand

private theorem countP_visits {phase : CompletionPhase} {list : List (Numbered Step)}
    (h : List.Forall₂ (Visits phase) list calls) (k : Nat) :
    calls.countP (Call.completes k) = (list.map Numbered.attempt).count k := by
  induction h with
  | nil => rfl
  | @cons x call list calls hvisit _ ih =>
    obtain ⟨answer, rfl⟩ := hvisit
    rw [List.countP_cons, List.map_cons, List.count_cons, ih]
    rfl

private theorem visits_of_mem {phase : CompletionPhase} {list : List (Numbered Step)}
    (h : List.Forall₂ (Visits phase) list calls) : ∀ call ∈ calls, ∃ x, Visits phase x call := by
  induction h with
  | nil => simp
  | cons hvisit _ ih => exact List.forall_mem_cons.mpr ⟨⟨_, hvisit⟩, ih⟩

/-- A completion calls once for every step that is kept, an attempt for none. -/
theorem Lawful.countP_completes (h : Lawful p n kept command calls result kept')
    (hkept : Distinct n kept) (k : Nat) :
    calls.countP (Call.completes k) =
      if command.completes = true ∧ k ∈ kept.map Numbered.attempt then 1 else 0 := by
  cases h with
  | unrecorded operation e => simp [Call.completes, Command.completes]
  | unperformed operation step e => simp [Call.completes, Command.completes]
  | performed operation step => simp [Call.completes, Command.completes]
  | completed phase visits =>
    have hcount : ((phase.order kept).map Numbered.attempt).count k =
        (kept.map Numbered.attempt).count k := by
      cases phase <;> simp [CompletionPhase.order]
    rw [countP_visits visits, hcount, hkept.nodup.count]
    simp [Command.completes]

/-- A step that is performed gets the next number and is kept. -/
theorem Lawful.of_performed (h : Lawful p n kept command calls result kept') {step : Step}
    (hcall : .perform k step (.ok ()) ∈ calls) :
    k = n ∧ command.completes = false ∧ k ∈ kept'.map Numbered.attempt := by
  cases h with
  | unrecorded operation e => simp at hcall
  | unperformed operation step e => simp at hcall
  | performed operation step =>
    simp only [List.mem_cons, reduceCtorEq, Call.perform.injEq, List.not_mem_nil, or_false,
      false_or] at hcall
    obtain ⟨rfl, -, -⟩ := hcall
    simp [Command.completes]
  | completed phase visits =>
    obtain ⟨x, answer, h⟩ := visits_of_mem visits _ hcall
    cases h

end

/-! ### The whole run -/

/-- The turn of the first commit or rollback after turn `i`, if there is one. -/
def completionAfter (commands : List (Command Op)) (i : Nat) : Option Nat :=
  ((commands.drop (i + 1)).findIdx? Command.completes).map (· + (i + 1))

theorem completionAfter_cons (command : Command Op) (more : List (Command Op)) (i : Nat) :
    completionAfter (command :: more) (i + 1) = (completionAfter more i).map (· + 1) := by
  simp [completionAfter, Function.comp_def, Nat.add_assoc]

theorem completionAfter_ne_zero (commands : List (Command Op)) (i : Nat) :
    completionAfter commands i ≠ some 0 := by
  simp [completionAfter]

section

variable {saga : Saga (Numbered Step)} {o : Observed Op Step σ ε}

/-- The first turn is a lawful one, and after it steps can still be told apart. -/
theorem turn_lawful (hkept : Distinct o.attempts saga.kept) (command : Command Op) :
    let next := saga.obey p.observed o command
    Lawful p o.attempts saga.kept command
        (Turn.calls ⟨command, saga, o, next.1, next.2.1, next.2.2⟩) next.1 next.2.1.kept ∧
      next.2.2.attempts = o.attempts + command.attempts ∧
      Distinct next.2.2.attempts next.2.1.kept := by
  intro next
  obtain ⟨calls, hcalls, hattempts, hlawful⟩ := obey_lawful (p := p) saga o command
  have hturn : Turn.calls ⟨command, saga, o, next.1, next.2.1, next.2.2⟩ = calls := by
    simp only [Turn.calls, next, hcalls, List.drop_left]
  rw [hturn]
  exact ⟨hlawful, hattempts, hattempts ▸ hlawful.distinct hkept⟩

end

/-- Every turn is lawful. -/
theorem turns_lawful (commands : List (Command Op)) (saga : Saga (Numbered Step))
    (o : Observed Op Step σ ε) (hkept : Distinct o.attempts saga.kept) :
    ∀ i t, (turns p.observed commands saga o)[i]? = some t →
      Lawful p (o.attempts + (attempted commands i).length) t.before.kept t.command t.calls
        t.result t.after.kept := by
  intro i t ht
  obtain ⟨⟨hbefore, hattempts⟩, hturn, -⟩ := turns_spec
    (fun operations (saga : Saga (Numbered Step)) (o' : Observed Op Step σ ε) =>
      Distinct o'.attempts saga.kept ∧ o'.attempts = o.attempts + operations.length)
    (by
      intro operations saga o' command ⟨hkept, hattempts⟩
      obtain ⟨-, hnext, hdistinct⟩ := turn_lawful (p := p) hkept command
      refine ⟨hdistinct, ?_⟩
      rw [hnext, hattempts, List.length_append, Nat.add_assoc, Command.attempts])
    commands [] saga o ⟨hkept, by simp⟩ i t ht
  rw [List.nil_append] at hattempts
  obtain ⟨hlawful, -, -⟩ := turn_lawful (p := p) hbefore t.command
  rw [hattempts] at hlawful
  simp only [hturn] at hlawful
  exact hlawful

/-- **When a step is completed.**  A step made by an attempt so far is completed in the first
turn that completes at all if it is kept, and never if it is not. -/
theorem countP_completes_turns {k : Nat} : ∀ (commands : List (Command Op))
    (saga : Saga (Numbered Step)) (o : Observed Op Step σ ε), Distinct o.attempts saga.kept →
      k < o.attempts → ∀ j u, (turns p.observed commands saga o)[j]? = some u →
        u.calls.countP (Call.completes k) =
          if k ∈ saga.kept.map Numbered.attempt ∧ commands.findIdx? Command.completes = some j
          then 1 else 0 := by
  intro commands
  induction commands with
  | nil =>
    intro saga o _ _ j u hu
    simp [turns] at hu
  | cons command more ih =>
    intro saga o hkept hk j u hu
    obtain ⟨hlawful, hattempts, hnext⟩ := turn_lawful (p := p) hkept command
    rw [turns] at hu
    cases j with
    | zero =>
      simp only [List.getElem?_cons_zero, Option.some.injEq] at hu
      subst hu
      rw [hlawful.countP_completes hkept k, List.findIdx?_cons]
      cases command.completes <;> simp
    | succ j =>
      rw [List.getElem?_cons_succ] at hu
      rw [ih _ _ hnext (by rw [hattempts]; omega) j u hu, List.findIdx?_cons]
      -- an attempt leaves the step as kept as it was, a completion leaves no step at all
      cases hcommand : command.completes with
      | false =>
        simp only [hlawful.mem_kept_of_lt hcommand hk]
        simp
      | true =>
        rw [hlawful.kept_eq_nil hcommand]
        simp

/-- A step that is performed is completed in the first turn after that which completes. -/
theorem completed_once : ∀ (commands : List (Command Op)) (saga : Saga (Numbered Step))
    (o : Observed Op Step σ ε), Distinct o.attempts saga.kept →
      ∀ i t k step, (turns p.observed commands saga o)[i]? = some t →
        .perform k step (.ok ()) ∈ t.calls →
        ∀ j u, (turns p.observed commands saga o)[j]? = some u →
          u.calls.countP (Call.completes k) =
            if completionAfter commands i = some j then 1 else 0 := by
  intro commands
  induction commands with
  | nil =>
    intro saga o _ i t k step ht
    simp [turns] at ht
  | cons command more ih =>
    intro saga o hkept i t k step ht hcall j u hu
    have hlawful := turns_lawful (p := p) (command :: more) saga o hkept
    obtain ⟨hk, hcommand, hmem⟩ := (hlawful i t ht).of_performed hcall
    obtain ⟨-, hattempts, hnext⟩ := turn_lawful (p := p) hkept command
    cases j with
    | zero =>
      -- the number is given in turn `i`, so no step had it when the run began
      have hlate : k ∉ saga.kept.map Numbered.attempt := by
        intro hearly
        have := hkept.lt k hearly
        omega
      have hbefore : u.before = saga := by
        rw [turns] at hu
        simp only [List.getElem?_cons_zero, Option.some.injEq] at hu
        rw [← hu]
      have hcount := (hlawful 0 u hu).countP_completes (hbefore ▸ hkept) k
      rw [hcount, hbefore, if_neg (fun h => hlate h.2), if_neg (completionAfter_ne_zero _ i)]
    | succ j =>
      rw [turns, List.getElem?_cons_succ] at hu
      cases i with
      | zero =>
        rw [turns] at ht
        simp only [List.getElem?_cons_zero, Option.some.injEq] at ht
        subst ht
        rw [countP_completes_turns more _ _ hnext (hnext.lt k hmem) j u hu]
        simp [hmem, completionAfter]
      | succ i =>
        rw [turns, List.getElem?_cons_succ] at ht
        rw [ih _ _ hnext i t k step ht hcall j u hu, completionAfter_cons]
        simp

/-- **The life cycle of steps.**  Observation does not change a run; every turn of it is
lawful; and a step that is performed is completed by one call in the first later turn that
commits or rolls back, and by none in any other turn. -/
theorem life_cycle (p : Participant Op Step σ ε) (commands : List (Command Op)) (s : σ) :
    let run := turns p.observed commands .empty (.start s)
    run.map Turn.unobserved = turns p commands .empty s ∧
      (∀ i t, run[i]? = some t →
        Lawful p (attempted commands i).length t.before.kept t.command t.calls t.result
          t.after.kept) ∧
      ∀ i t attempt step, run[i]? = some t → .perform attempt step (.ok ()) ∈ t.calls →
        ∀ j u, run[j]? = some u →
          u.calls.countP (Call.completes attempt) =
            if completionAfter commands i = some j then 1 else 0 := by
  intro run
  have hstart : Distinct 0 (kept (Saga.empty : Saga (Numbered Step))) := Distinct.nil 0
  refine ⟨turns_unobserved p commands .empty (.start s), ?_, ?_⟩
  · intro i t ht
    have hlawful := turns_lawful commands .empty (.start s) hstart i t ht
    rwa [Observed.start, Nat.zero_add] at hlawful
  · intro i t attempt step ht
    exact completed_once commands .empty (.start s) hstart i t attempt step ht

end Saga

end DirectorySaga
