/-
What the audit log says is true.

The log and the steps of a saga are tied together by nothing but saved places: a step
knows where its record is.  Attempts that fail leave gaps between the places, a rollback
visits them backwards, and the log outlives the steps.  So the log has to be compared with
what really happened, and that is what an observed participant has noted down.

`Story` says which record an attempt must have, given the calls that were made for it.
`Truthful` says that the log is this for every attempt, and how the steps that are kept
are tied to it.  Attempts preserve it, and so does every single step of a sweep; in the
middle of one, the steps that are still to be visited are the ones which count, in
whatever order they come (`Tied`).

A record that is settled for good is at no saved place, so it stays as it is.
-/
import DirectorySaga.Proofs.Saga.LifeCycle

namespace DirectorySaga

variable {Op Step σ ε : Type}

open Participant (Numbered Call Observed)

theorem CompletionPhase.outcome_ne_performed (phase : CompletionPhase) (answer : Except ε Unit) :
    phase.outcome answer ≠ .performed := by
  cases phase <;> cases answer <;> simp [CompletionPhase.outcome, CompletionPhase.done,
    CompletionPhase.broken]

namespace Saga

/-! ### The record that an attempt must have -/

/-- The calls made for attempt `i`. -/
def callsFor (i : Nat) (calls : List (Call Op Step ε)) : List (Call Op Step ε) :=
  calls.filter fun call => call.attempt == i

theorem callsFor_append (i : Nat) (calls more : List (Call Op Step ε)) :
    callsFor i (calls ++ more) = callsFor i calls ++ callsFor i more :=
  List.filter_append ..

theorem callsFor_self {i : Nat} {calls : List (Call Op Step ε)}
    (h : ∀ call ∈ calls, call.attempt = i) : callsFor i calls = calls :=
  List.filter_eq_self.mpr fun call hcall => beq_iff_eq.mpr (h call hcall)

theorem callsFor_other {i : Nat} (calls : List (Call Op Step ε))
    (h : ∀ call ∈ calls, call.attempt ≠ i) : callsFor i calls = [] :=
  List.filter_eq_nil_iff.mpr fun call hcall heq => h call hcall (beq_iff_eq.mp heq)

/-- The calls made for attempt `i`, and the record that it must have then. -/
inductive Story (p : Participant Op Step σ ε) (i : Nat) (operation : Op) :
    List (Call Op Step ε) → AuditRecord → Prop
  | unrecorded (e : ε) :
      Story p i operation [.record i operation (.error e)]
        ⟨p.operationName operation, .failed, true, none⟩
  | unperformed (step : Step) (e : ε) :
      Story p i operation [.record i operation (.ok step), .perform i step (.error e)]
        ⟨p.operationName operation, .failed, true, none⟩
  | performed (step : Step) :
      Story p i operation [.record i operation (.ok step), .perform i step (.ok ())]
        ⟨p.operationName operation, .performed, true, some (p.rollbackDescription step)⟩
  | committed (step : Step) :
      Story p i operation [.record i operation (.ok step), .perform i step (.ok ()),
          .complete .commit i step (.ok ())]
        ⟨p.operationName operation, .committed, true, some (p.rollbackDescription step)⟩
  | commitFailed (step : Step) (e : ε) :
      Story p i operation [.record i operation (.ok step), .perform i step (.ok ()),
          .complete .commit i step (.error e)]
        ⟨p.operationName operation, .commitFailed, true, some (p.rollbackDescription step)⟩
  | rolledBack (step : Step) :
      Story p i operation [.record i operation (.ok step), .perform i step (.ok ()),
          .complete .rollback i step (.ok ())]
        ⟨p.operationName operation, .rolledBack, true, some (p.rollbackDescription step)⟩
  | rollbackFailed (step : Step) (e : ε) :
      Story p i operation [.record i operation (.ok step), .perform i step (.ok ()),
          .complete .rollback i step (.error e)]
        ⟨p.operationName operation, .rollbackFailed, true, some (p.rollbackDescription step)⟩

/-- The status that a sweep gives to the record of a step is the one that it must have. -/
theorem Story.completed {p : Participant Op Step σ ε} {i : Nat} {operation : Op} (step : Step)
    (phase : CompletionPhase) (answer : Except ε Unit) :
    Story p i operation [.record i operation (.ok step), .perform i step (.ok ()),
        .complete phase i step answer]
      ⟨p.operationName operation, phase.outcome answer, true,
        some (p.rollbackDescription step)⟩ := by
  cases phase with
  | commit =>
    cases answer with
    | ok _ => exact .committed step
    | error e => exact .commitFailed step e
  | rollback =>
    cases answer with
    | ok _ => exact .rolledBack step
    | error e => exact .rollbackFailed step e

/-! ### Records and steps -/

/-- The places of the records of the steps. -/
abbrev places (list : List (PendingStep Step)) : List Nat := list.map PendingStep.index

/-- The log tells the truth about the operations attempted, and its records that await
completion are those of the steps in the list. -/
structure Tied (p : Participant Op Step σ ε) (operations : List Op)
    (list : List (PendingStep (Numbered Step))) (audit : AuditLog)
    (calls : List (Call Op Step ε)) : Prop where
  /-- There is one record for every attempt. -/
  length : audit.records.length = operations.length
  /-- No call belongs to any other attempt. -/
  bound : ∀ call ∈ calls, call.attempt < operations.length
  told : ∀ i operation r, operations[i]? = some operation → audit.records[i]? = some r →
    Story p i operation (callsFor i calls) r
  performed_iff : ∀ i, (∃ r, audit.records[i]? = some r ∧ r.status = .performed) ↔
    i ∈ places list
  /-- The step at a place is the one that the attempt with this number has performed. -/
  own : ∀ x ∈ list, x.step.attempt = x.index ∧ .perform x.index x.step.step (.ok ()) ∈ calls
  nodup : (places list).Nodup

variable {p : Participant Op Step σ ε} {operations : List Op} {audit : AuditLog}
  {calls : List (Call Op Step ε)} {list list' : List (PendingStep (Numbered Step))}

theorem Tied.perm (h : Tied p operations list audit calls) (hperm : list.Perm list') :
    Tied p operations list' audit calls where
  length := h.length
  bound := h.bound
  told := h.told
  performed_iff i := (h.performed_iff i).trans (hperm.map _).mem_iff
  own x hx := h.own x (hperm.mem_iff.mpr hx)
  nodup := (hperm.map _).nodup_iff.mp h.nodup

theorem Tied.lt_of_mem (h : Tied p operations list audit calls) {i : Nat}
    (hi : i ∈ places list) : i < operations.length := by
  obtain ⟨r, hr, -⟩ := (h.performed_iff i).mpr hi
  rw [← h.length]
  exact (List.getElem?_eq_some_iff.mp hr).1

/-- What was called for the attempt of a step that is kept. -/
theorem Tied.callsFor_own (h : Tied p operations list audit calls)
    {x : PendingStep (Numbered Step)} (hx : x ∈ list) :
    ∃ operation, operations[x.index]? = some operation ∧
      audit.records[x.index]? = some ⟨p.operationName operation, .performed, true,
        some (p.rollbackDescription x.step.step)⟩ ∧
      callsFor x.index calls =
        [.record x.index operation (.ok x.step.step), .perform x.index x.step.step (.ok ())] := by
  have hplace : x.index ∈ places list := List.mem_map_of_mem hx
  obtain ⟨r, hr, hstatus⟩ := (h.performed_iff x.index).mpr hplace
  obtain ⟨operation, hoperation⟩ : ∃ operation, operations[x.index]? = some operation :=
    ⟨_, List.getElem?_eq_getElem (h.lt_of_mem hplace)⟩
  have hmem : .perform x.index x.step.step (.ok ()) ∈ callsFor x.index calls := by
    rw [callsFor, List.mem_filter]
    exact ⟨(h.own x hx).2, by simp [Call.attempt]⟩
  have hstory := h.told x.index operation r hoperation hr
  generalize callsFor x.index calls = own at hstory hmem
  cases hstory with
  | unrecorded e => cases hstatus
  | unperformed step e => cases hstatus
  | performed step =>
    have hstep : x.step.step = step := by simpa using hmem
    rw [hstep]
    exact ⟨operation, hoperation, hr, rfl⟩
  | committed step => cases hstatus
  | commitFailed step e => cases hstatus
  | rolledBack step => cases hstatus
  | rollbackFailed step e => cases hstatus

/-! ### One call of a sweep -/

/-- When a step has been completed and its record settled, the others are left. -/
theorem Tied.settle {x : PendingStep (Numbered Step)}
    (h : Tied p operations (x :: list) audit calls) (phase : CompletionPhase)
    (answer : Except ε Unit) :
    Tied p operations list (audit.update x.index (.settle (phase.outcome answer)))
      (calls ++ [.complete phase x.step.attempt x.step.step answer]) := by
  obtain ⟨operation, hoperation, hrecord, hcalls⟩ := h.callsFor_own List.mem_cons_self
  have hown : x.step.attempt = x.index := (h.own x List.mem_cons_self).1
  obtain ⟨hx, hnodup⟩ : x.index ∉ places list ∧ (places list).Nodup :=
    List.nodup_cons.mp h.nodup
  have hget : ∀ i, (audit.update x.index (.settle (phase.outcome answer))).records[i]? =
      if x.index = i then some ⟨p.operationName operation, phase.outcome answer, true,
        some (p.rollbackDescription x.step.step)⟩ else audit.records[i]? := by
    intro i
    rw [AuditLog.update, List.getElem?_modify]
    by_cases hi : x.index = i
    · subst hi
      simp [hrecord, AuditRecord.settle]
    · simp [hi]
  rw [hown]
  refine ⟨?_, ?_, ?_, ?_, ?_, hnodup⟩
  · simp [AuditLog.update, h.length]
  · intro call hcall
    rcases List.mem_append.mp hcall with hcall | hcall
    · exact h.bound call hcall
    · rw [List.mem_singleton.mp hcall]
      exact h.lt_of_mem List.mem_cons_self
  · intro i other r hother hr
    rw [hget] at hr
    rw [callsFor_append]
    by_cases hi : x.index = i
    · subst hi
      rw [if_pos rfl, Option.some.injEq] at hr
      obtain rfl : operation = other := Option.some.inj (hoperation.symm.trans hother)
      rw [hcalls, callsFor_self (by simp [Call.attempt]), ← hr]
      exact Story.completed x.step.step phase answer
    · rw [if_neg hi] at hr
      rw [callsFor_other [_], List.append_nil]
      · exact h.told i other r hother hr
      · simpa [Call.attempt] using hi
  · intro i
    rw [hget]
    by_cases hi : x.index = i
    · subst hi
      simp [hx, CompletionPhase.outcome_ne_performed]
    · rw [if_neg hi, h.performed_iff i, places, List.map_cons, List.mem_cons]
      simp [Ne.symm hi]
  · intro y hy
    obtain ⟨hattempt, hcall⟩ := h.own y (List.mem_cons_of_mem _ hy)
    exact ⟨hattempt, List.mem_append_left _ hcall⟩

theorem Tied.sweep (phase : CompletionPhase) : ∀ {list : List (PendingStep (Numbered Step))}
    {audit : AuditLog} {o : Observed Op Step σ ε}, Tied p operations list audit o.calls →
      Tied p operations [] (sweep p.observed phase list audit o).2.1
        (sweep p.observed phase list audit o).2.2.calls := by
  intro list
  induction list with
  | nil =>
    intro audit o h
    exact h
  | cons x more ih =>
    intro audit o h
    rw [sweep_cons, Participant.observed_complete]
    exact ih (h.settle phase _)

/-- A sweep changes no record but those of the steps that it visits. -/
theorem sweep_getElem? (phase : CompletionPhase) {i : Nat} :
    ∀ {list : List (PendingStep (Numbered Step))} (audit : AuditLog) (o : Observed Op Step σ ε),
      i ∉ places list →
      (sweep p.observed phase list audit o).2.1.records[i]? = audit.records[i]? := by
  intro list
  induction list with
  | nil =>
    intro audit o _
    rfl
  | cons x more ih =>
    intro audit o hi
    rw [places, List.map_cons, List.mem_cons, not_or] at hi
    rw [sweep_cons]
    show (Saga.sweep p.observed phase more _ _).2.1.records[i]? = _
    rw [ih _ _ hi.2, AuditLog.update, List.getElem?_modify]
    simp [Ne.symm hi.1]

/-! ### One attempt -/

/-- An attempt adds the record that it must have, and its step if this was performed. -/
theorem Tied.attempt (h : Tied p operations list audit calls)
    (opened : List (PendingStep (Numbered Step))) {operation : Op} {new : List (Call Op Step ε)}
    {r : AuditRecord} (hstory : Story p operations.length operation new r)
    (hnew : ∀ call ∈ new, call.attempt = operations.length)
    (hopened : places opened = if r.status = .performed then [operations.length] else [])
    (hown : ∀ x ∈ opened,
      x.step.attempt = x.index ∧ .perform x.index x.step.step (.ok ()) ∈ new) :
    Tied p (operations ++ [operation]) (opened ++ list) ⟨audit.records ++ [r]⟩ (calls ++ new) := by
  have hplaces : ∀ i, i ∈ places (opened ++ list) ↔
      (r.status = .performed ∧ i = operations.length) ∨ i ∈ places list := by
    intro i
    rw [places, List.map_append, List.mem_append, ← places, ← places, hopened]
    split <;> simp [*]
  refine ⟨?_, ?_, ?_, ?_, ?_, ?_⟩
  · simp [h.length]
  · intro call hcall
    rw [List.length_append, List.length_singleton]
    rcases List.mem_append.mp hcall with hcall | hcall
    · exact Nat.lt_succ_of_lt (h.bound call hcall)
    · rw [hnew call hcall]
      exact Nat.lt_succ_self _
  · intro i other record hother hrecord
    rw [callsFor_append]
    rcases Nat.lt_trichotomy i operations.length with hi | rfl | hi
    · rw [List.getElem?_append_left hi] at hother
      rw [List.getElem?_append_left (h.length ▸ hi)] at hrecord
      rw [callsFor_other new, List.append_nil]
      · exact h.told i other record hother hrecord
      · intro call hcall
        rw [hnew call hcall]
        exact Nat.ne_of_gt hi
    · rw [List.getElem?_concat_length, Option.some.injEq] at hother
      rw [← h.length, List.getElem?_concat_length, Option.some.injEq] at hrecord
      rw [callsFor_other calls, List.nil_append, callsFor_self hnew, ← hother,
        ← hrecord]
      · exact hstory
      · intro call hcall
        exact Nat.ne_of_lt (h.bound call hcall)
    · rw [List.getElem?_eq_none (by simp; omega)] at hother
      cases hother
  · intro i
    rw [hplaces, ← h.performed_iff]
    rcases Nat.lt_trichotomy i operations.length with hi | rfl | hi
    · rw [List.getElem?_append_left (h.length ▸ hi)]
      simp [Nat.ne_of_lt hi]
    · rw [← h.length, List.getElem?_concat_length, List.getElem?_eq_none (Nat.le_refl _)]
      simp
    · rw [List.getElem?_eq_none (by simp [h.length]; omega),
        List.getElem?_eq_none (by rw [h.length]; exact Nat.le_of_lt hi)]
      simp [Nat.ne_of_gt hi]
  · intro x hx
    rcases List.mem_append.mp hx with hx | hx
    · exact ⟨(hown x hx).1, List.mem_append_right _ (hown x hx).2⟩
    · exact ⟨(h.own x hx).1, List.mem_append_left _ (h.own x hx).2⟩
  · rw [places, List.map_append, ← places, ← places, hopened]
    split
    · refine List.nodup_cons.mpr ⟨fun hmem => ?_, h.nodup⟩
      exact Nat.lt_irrefl _ (h.lt_of_mem hmem)
    · exact h.nodup

/-! ### One command -/

/-- The log tells the truth, the steps are tied to it, and newer steps have later places. -/
structure Truthful (p : Participant Op Step σ ε) (operations : List Op)
    (saga : Saga (Numbered Step)) (calls : List (Call Op Step ε)) : Prop
    extends Tied p operations saga.pending saga.audit calls where
  ordered : saga.pending.Pairwise fun a b => b.index < a.index

theorem Truthful.empty (p : Participant Op Step σ ε) : Truthful p [] .empty [] where
  length := rfl
  bound := by simp
  told := by simp
  performed_iff := by simp [Saga.empty, AuditLog.empty]
  own := by simp [Saga.empty]
  nodup := List.nodup_nil
  ordered := .nil

variable {saga : Saga (Numbered Step)} {o : Observed Op Step σ ε}

theorem Truthful.perform (h : Truthful p operations saga o.calls)
    (hattempts : o.attempts = operations.length) (operation : Op) :
    Truthful p (operations ++ [operation]) (saga.perform p.observed operation o).2.1
      (saga.perform p.observed operation o).2.2.calls := by
  rcases perform_observed p saga o operation with
    ⟨e, s, hrun⟩ | ⟨step, e, s, hrun⟩ | ⟨step, s, hrun⟩
  · rw [hrun, hattempts]
    exact ⟨h.attempt [] (.unrecorded e) (by simp [Call.attempt]) (by simp) (by simp),
      h.ordered⟩
  · rw [hrun, hattempts]
    exact ⟨h.attempt [] (.unperformed step e) (by simp [Call.attempt]) (by simp)
      (by simp), h.ordered⟩
  · have hnext : saga.audit.next = operations.length := h.length
    rw [hrun, hattempts, hnext]
    refine ⟨h.attempt [⟨_, _, step⟩] (.performed step) (by simp [Call.attempt])
      (by simp) (by simp), .cons ?_ h.ordered⟩
    intro x hx
    exact h.lt_of_mem (List.mem_map_of_mem hx)

theorem visited_perm (phase : CompletionPhase) (saga : Saga Step) :
    saga.pending.Perm (saga.visited phase) := by
  cases phase with
  | commit => exact (List.reverse_perm _).symm
  | rollback => exact .refl _

theorem Truthful.complete (h : Truthful p operations saga o.calls) (phase : CompletionPhase) :
    Truthful p operations (saga.complete p.observed phase o).2.1
      (saga.complete p.observed phase o).2.2.calls :=
  ⟨(h.perm (visited_perm phase saga)).sweep phase, .nil⟩

/-- A record that awaits nothing any more is not changed by any command. -/
theorem Truthful.obey_getElem? (h : Truthful p operations saga o.calls) (command : Command Op)
    {i : Nat} {r : AuditRecord} (hr : saga.audit.records[i]? = some r)
    (hstatus : r.status ≠ .performed) :
    (saga.obey p.observed o command).2.1.audit.records[i]? = some r := by
  cases command with
  | perform operation =>
    have hlt : i < saga.audit.records.length := (List.getElem?_eq_some_iff.mp hr).1
    show (saga.perform p.observed operation o).2.1.audit.records[i]? = some r
    rcases perform_observed p saga o operation with
      ⟨e, s, hrun⟩ | ⟨step, e, s, hrun⟩ | ⟨step, s, hrun⟩
    all_goals
      rw [hrun]
      exact (List.getElem?_append_left hlt).trans hr
  | complete phase =>
    have hplace : i ∉ places saga.pending := by
      intro hi
      obtain ⟨r', hr', hperformed⟩ := (h.performed_iff i).mpr hi
      rw [Option.some.inj (hr'.symm.trans hr)] at hperformed
      exact hstatus hperformed
    have hvisited : i ∉ places (saga.visited phase) := by
      rwa [((visited_perm phase saga).map _).mem_iff] at hplace
    exact (sweep_getElem? phase saga.audit o hvisited).trans hr

/-! ### The whole run -/

/-- The saga tells the truth, and the next attempt gets the next number. -/
structure Audited (p : Participant Op Step σ ε) (operations : List Op)
    (saga : Saga (Numbered Step)) (o : Observed Op Step σ ε) : Prop where
  truthful : Truthful p operations saga o.calls
  attempts : o.attempts = operations.length

theorem Audited.obey (h : Audited p operations saga o) (command : Command Op) :
    Audited p (operations ++ command.operation?.toList) (saga.obey p.observed o command).2.1
      (saga.obey p.observed o command).2.2 := by
  obtain ⟨-, -, hattempts, -⟩ := obey_lawful (p := p) saga o command
  refine ⟨?_, by rw [hattempts, h.attempts, List.length_append, Command.attempts]⟩
  cases command with
  | perform operation => exact h.truthful.perform h.attempts operation
  | complete phase =>
    rw [Command.operation?, Option.toList_none, List.append_nil]
    exact h.truthful.complete phase

/-- A record that awaits nothing any more stays as it is. -/
theorem Audited.settled_turns (h : Audited p operations saga o) (commands : List (Command Op))
    {i : Nat} {r : AuditRecord} (hr : saga.audit.records[i]? = some r)
    (hstatus : r.status ≠ .performed) :
    ∀ t ∈ turns p.observed commands saga o, t.after.audit.records[i]? = some r := by
  intro t ht
  obtain ⟨j, hj⟩ := List.mem_iff_getElem?.mp ht
  obtain ⟨-, -, -, hafter⟩ := turns_spec
    (fun operations saga o => Audited p operations saga o ∧ saga.audit.records[i]? = some r)
    (fun operations saga o command ⟨h, hr⟩ =>
      ⟨h.obey command, h.truthful.obey_getElem? command hr hstatus⟩)
    commands operations saga o ⟨h, hr⟩ j t hj
  exact hafter

/-- What a turn leaves settled is the same after every later turn. -/
theorem Audited.pairwise_turns : ∀ (commands : List (Command Op)) {operations : List Op}
    {saga : Saga (Numbered Step)} {o : Observed Op Step σ ε}, Audited p operations saga o →
      (turns p.observed commands saga o).Pairwise fun t u => ∀ (i : Nat) (r : AuditRecord),
        t.after.audit.records[i]? = some r → r.status ≠ .performed →
          u.after.audit.records[i]? = some r := by
  intro commands
  induction commands with
  | nil =>
    intro operations saga o _
    exact .nil
  | cons command more ih =>
    intro operations saga o h
    refine .cons ?_ (ih (h.obey command))
    intro u hu i r hr hstatus
    exact (h.obey command).settled_turns more hr hstatus u hu

/-- **The log tells the truth.**  Observation does not change a run; after every command the
log is true of all operations attempted so far and of the calls made for them; and a record
that does not await completion any more is the same after every later command. -/
theorem audit_truthful (p : Participant Op Step σ ε) (commands : List (Command Op)) (s : σ) :
    let run := turns p.observed commands .empty (.start s)
    run.map Turn.unobserved = turns p commands .empty s ∧
      (∀ j t, run[j]? = some t →
        Truthful p (attempted commands (j + 1)) t.after t.state.calls) ∧
      run.Pairwise fun t u => ∀ (i : Nat) (r : AuditRecord),
        t.after.audit.records[i]? = some r → r.status ≠ .performed →
          u.after.audit.records[i]? = some r := by
  intro run
  have hstart : Audited p [] .empty (Observed.start s) := ⟨.empty p, rfl⟩
  refine ⟨turns_unobserved p commands .empty (.start s), ?_, hstart.pairwise_turns commands⟩
  intro j t ht
  obtain ⟨-, -, hafter⟩ := turns_spec (Audited p)
    (fun operations saga o command h => h.obey command) commands [] .empty (.start s) hstart j t ht
  exact hafter.truthful

end Saga

end DirectorySaga
