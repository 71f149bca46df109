/-
Everything that happens to a directory.

Any number of transactions may be open over a directory while it is written to directly,
and their actions come in any order.  A run is a list of such events, whatever becomes of
each.  This module shows that no run can spoil the directory: every state that it is ever in
is well formed, those in the middle of a rollback included.

What transactions do is compared between two services.  They mirror each other if each call
is answered alike and leaves related states behind, and then transactions answer alike too
(`respond_mirrors`), and so on through whole runs (`Mirrored.run`): a transaction sees of a
directory what the calls answer, and nothing else.  One comparison shows that keeping a
chronicle changes nothing; and a chronicle compared with itself, over the states that are
sound, shows that it stays sound.
-/
import DirectorySaga.Proofs.Directory.Chronicle
import DirectorySaga.Proofs.Transaction.Interleaving

namespace DirectorySaga

variable {σ τ ε α : Type}

/-! ### Services that answer alike -/

/-- Call by call, `b` answers what `a` answers. -/
structure Service.Mirrors (a : Service σ) (b : Service τ) (related : σ → τ → Prop) : Prop where
  lookup : ∀ {s t}, related s t → ∀ name, SameReply related (a.lookup name s) (b.lookup name t)
  hasChildren : ∀ {s t}, related s t → ∀ name,
    SameReply related (a.hasChildren name s) (b.hasChildren name t)
  write : ∀ {s t}, related s t → ∀ operation,
    SameReply related (a.write operation s) (b.write operation t)

theorem SameReply.exists_eq {related : σ → τ → Prop} {x : α × σ} {y : α × τ}
    (h : SameReply related x y) :
    ∃ answer s t, x = (answer, s) ∧ y = (answer, t) ∧ related s t :=
  ⟨x.1, x.2, y.2, rfl, by rw [h.answer], h.state⟩

/-- The directories are related, and the sequences are the same. -/
structure World.Related (related : σ → τ → Prop) (w : World σ) (v : World τ) : Prop where
  directory : related w.directory v.directory
  sequences : w.sequences = v.sequences

section

variable {a : Service σ} {b : Service τ} {related : σ → τ → Prop} {w : World σ} {v : World τ}

theorem World.Related.call (h : World.Related related w v)
    {act : σ → Except DirectoryError α × σ} {act' : τ → Except DirectoryError α × τ}
    (hact : SameReply related (act w.directory) (act' v.directory)) :
    SameReply (World.Related related) (w.call act) (v.call act') :=
  ⟨hact.answer, hact.state, h.sequences⟩

theorem World.Related.temporaryName (h : World.Related related w v) (parking : Parking)
    (name : Name) :
    SameReply (World.Related related) (w.temporaryName parking name)
      (v.temporaryName parking name) := by
  unfold World.temporaryName
  rw [h.sequences]
  exact ⟨rfl, h.directory, rfl⟩

theorem Step.record_mirrors (h : a.Mirrors b related) (hw : World.Related related w v)
    (parking : Parking) (operation : Operation) :
    SameReply (World.Related related) (record a parking operation w)
      (record b parking operation v) := by
  cases operation with
  | bind name attributes => exact ⟨rfl, hw⟩
  | rename old new => exact ⟨rfl, hw⟩
  | rebind name attributes =>
    obtain ⟨answer, w₁, v₁, hw₁, hv₁, hworlds⟩ :=
      (hw.call (h.lookup hw.directory name)).exists_eq
    simp only [record, hw₁, hv₁]
    cases answer with
    | ok before => exact ⟨rfl, hworlds⟩
    | error e => cases e <;> exact ⟨rfl, hworlds⟩
  | modifyAttributes name items =>
    obtain ⟨answer, w₁, v₁, hw₁, hv₁, hworlds⟩ :=
      (hw.call (h.lookup hw.directory name)).exists_eq
    simp only [record, hw₁, hv₁]
    cases answer <;> exact ⟨rfl, hworlds⟩
  | unbind name =>
    obtain ⟨answer, w₁, v₁, hw₁, hv₁, hworlds⟩ :=
      (hw.call (h.hasChildren hw.directory name)).exists_eq
    simp only [record, hw₁, hv₁]
    cases answer with
    | error e => exact ⟨rfl, hworlds⟩
    | ok below =>
      cases below with
      | true => exact ⟨rfl, hworlds⟩
      | false =>
        obtain ⟨hanswer, hnamed⟩ := hworlds.temporaryName parking name
        exact ⟨congrArg (Except.map (Step.unbind name)) hanswer, hnamed⟩

theorem SameAnswer.refl (answer : Except ε α) : SameAnswer Eq answer answer := by
  cases answer with
  | ok value => exact .ok rfl
  | error e => exact .error e

/-- Over services that answer alike, steps are recorded, performed and completed alike. -/
theorem directoryWrites_mirrors (h : a.Mirrors b related) (parking : Parking) :
    (directoryWrites a parking).Mirrors (directoryWrites b parking) (fun _ => True) Eq
      (World.Related related) where
  operationName _ := rfl
  stepName hstep := by rw [hstep]; rfl
  description phase _ _ hstep := by
    rw [hstep]
    cases phase <;> rfl
  record := by
    intro operation w v _ hw
    obtain ⟨hanswer, hworlds⟩ := Step.record_mirrors h hw parking operation
    exact ⟨hanswer ▸ SameAnswer.refl _, hworlds⟩
  perform := by
    intro step step' w v hstep hw
    rw [hstep]
    obtain ⟨hanswer, hworlds⟩ := hw.call (h.write hw.directory step'.forward)
    exact ⟨hanswer, hworlds⟩
  complete := by
    intro phase step step' w v hstep hw
    rw [hstep]
    cases phase with
    | rollback =>
      obtain ⟨hanswer, hworlds⟩ := hw.call (h.write hw.directory step'.inverse)
      exact ⟨hanswer, hworlds⟩
    | commit =>
      show (Step.commit a step' w).1 = (Step.commit b step' v).1 ∧
        World.Related related (Step.commit a step' w).2 (Step.commit b step' v).2
      unfold Step.commit
      cases step'.final? with
      | none => exact ⟨rfl, hw⟩
      | some operation =>
        obtain ⟨hanswer, hworlds⟩ := hw.call (h.write hw.directory operation)
        exact ⟨hanswer, hworlds⟩

end

namespace Transaction

/-- **Transactions over services that answer alike answer alike.** -/
theorem respond_mirrors {a : Service σ} {b : Service τ} {related : σ → τ → Prop}
    {parking : Parking} {session : Option (Transaction σ)} {session' : Option (Transaction τ)}
    {w : World σ} {v : World τ}
    (hsession : Abreast a b parking Eq session session') (h : a.Mirrors b related)
    (hw : World.Related related w v) (action : Action) :
    SameResponse a b parking Eq (World.Related related) (respond session action w)
      (respond session' action v) :=
  hsession.respond (directoryWrites_mirrors h parking) (fun _ _ => trivial)
    (fun name _ => hw.call (h.lookup hw.directory name)) hw

end Transaction

/-! ### Events -/

open Transaction (Abreast Action Shared)

/-- What can happen to a directory. -/
inductive Event (ι : Type)
  /-- A write that is no part of a transaction. -/
  | write (operation : Operation)
  /-- An action of transaction `i`. -/
  | act (i : ι) (action : Action)

namespace Traffic

variable {ι : Type} {a : Service σ} {b : Service τ} {related : σ → τ → Prop} {t : Shared ι σ}
  {u : Shared ι τ}

/-- The same transactions run on both sides, and the states are related. -/
structure Mirrored (a : Service σ) (b : Service τ) (related : σ → τ → Prop)
    (t : Shared ι σ) (u : Shared ι τ) : Prop where
  sessions : ∀ i, ∃ parking, Abreast a b parking Eq (t.sessions i) (u.sessions i)
  world : World.Related related t.world u.world

theorem mirrored_start {s : σ} {s' : τ} (h : related s s') (parking : ι → Parking)
    (sequences : Sequences) :
    Mirrored a b related (.start a parking ⟨s, sequences⟩) (.start b parking ⟨s', sequences⟩) :=
  ⟨fun i => ⟨parking i, .running ⟨.nil, rfl⟩⟩, h, rfl⟩

variable [DecidableEq ι]

/-- What an event leaves behind, whether it succeeds or fails. -/
def happen (service : Service σ) (all : Shared ι σ) : Event ι → Shared ι σ
  | .write operation => { all with world := (all.world.call (service.write operation)).2 }
  | .act i action => (all.act i action).2

/-- What is left after the events, one after the other. -/
def run (service : Service σ) (events : List (Event ι)) (all : Shared ι σ) : Shared ι σ :=
  events.foldl (happen service) all

theorem Mirrored.happen (h : Mirrored a b related t u) (hcalls : a.Mirrors b related)
    (event : Event ι) : Mirrored a b related (happen a t event) (happen b u event) := by
  cases event with
  | write operation =>
    exact ⟨h.sessions, (h.world.call (hcalls.write h.world.directory operation)).state⟩
  | act i action =>
    obtain ⟨parking, hsession⟩ := h.sessions i
    have hresponse := Transaction.respond_mirrors hsession hcalls h.world action
    refine ⟨?_, hresponse.worlds⟩
    intro j
    by_cases hj : j = i
    · subst hj
      exact ⟨parking, by simpa [Traffic.happen, Shared.act] using hresponse.session⟩
    · simpa [Traffic.happen, Shared.act, hj] using h.sessions j

theorem Mirrored.run (h : Mirrored a b related t u) (hcalls : a.Mirrors b related)
    (events : List (Event ι)) : Mirrored a b related (run a events t) (run b events u) := by
  induction events generalizing t u with
  | nil => exact h
  | cons event more ih => exact ih (h.happen hcalls event)

end Traffic

/-! ### Two comparisons -/

/-- The chronicle is one of the directory, and nobody else is going to write. -/
structure Chronicle.Follows (c : Chronicle) (d : Directory) : Prop where
  current : c.current = d
  quiet : c.incoming = []

/-- As long as nobody else writes, a chronicle answers as the directory in memory does. -/
theorem Chronicle.mirrors_directory : service.Mirrors Directory.service Follows where
  lookup := by
    intro c d ⟨hcurrent, hquiet⟩ name
    subst hcurrent
    simp only [service, receive_of_quiet hquiet]
    exact ⟨rfl, rfl, hquiet⟩
  hasChildren := by
    intro c d ⟨hcurrent, hquiet⟩ name
    subst hcurrent
    simp only [service, receive_of_quiet hquiet]
    exact ⟨rfl, rfl, hquiet⟩
  write := by
    intro c d ⟨hcurrent, hquiet⟩ operation
    subst hcurrent
    simp only [service, receive_of_quiet hquiet]
    exact ⟨rfl, rfl, hquiet⟩

/-- The chronicles are the same, and all their states are well formed. -/
structure Chronicle.BothSound (origin : Directory) (c c' : Chronicle) : Prop where
  same : c = c'
  sound : c.Sound origin

/-- A call to a sound chronicle leaves a sound one. -/
theorem Chronicle.mirrors_self (origin : Directory) :
    service.Mirrors service (BothSound origin) where
  lookup := by
    intro c c' ⟨hsame, hsound⟩ name
    subst hsame
    exact ⟨rfl, rfl, hsound.receive⟩
  hasChildren := by
    intro c c' ⟨hsame, hsound⟩ name
    subst hsame
    exact ⟨rfl, rfl, hsound.receive⟩
  write := by
    intro c c' ⟨hsame, hsound⟩ operation
    subst hsame
    exact ⟨rfl, rfl, hsound.receive.perform operation⟩

namespace Traffic

variable {ι : Type} {d : Directory}

/-- The chronicle of a directory after the events. -/
def chronicle [DecidableEq ι] (d : Directory) (parking : ι → Parking) (sequences : Sequences)
    (incoming : List (List Operation)) (events : List (Event ι)) : Chronicle :=
  let before := Shared.start Chronicle.service parking ⟨.start d incoming, sequences⟩
  (run Chronicle.service events before).world.directory

/--
**The entries form a tree at all times.**  Let a closed directory be written to directly and
through any number of transactions, in any order, and let others write whatever they like
between any two of these calls.  Then every state that the directory is ever in is well
formed.  If there are no others, the last state is the one in which the same events leave the
directory in memory.
-/
theorem wellFormed_of_mem_states [DecidableEq ι] (closed : d.ParentClosed)
    (parking : ι → Parking) (sequences : Sequences) (incoming : List (List Operation))
    (events : List (Event ι)) :
    (∀ state ∈ (chronicle d parking sequences incoming events).states, d.WellFormed state) ∧
      (incoming = [] →
        let before := Shared.start Directory.service parking ⟨d, sequences⟩
        (chronicle d parking sequences incoming events).current =
          (run Directory.service events before).world.directory) := by
  constructor
  · have hsound : (Chronicle.start d incoming).Sound d := by
      intro state hstate
      rw [List.mem_singleton.mp hstate]
      exact closed.wellFormed
    have hboth : Chronicle.BothSound d (.start d incoming) (.start d incoming) := ⟨rfl, hsound⟩
    have hrun := (mirrored_start hboth parking sequences).run (Chronicle.mirrors_self d) events
    exact hrun.world.directory.sound
  · intro hquiet before
    have hfollows : (Chronicle.start d incoming).Follows d := ⟨rfl, hquiet⟩
    have hrun := (mirrored_start hfollows parking sequences).run Chronicle.mirrors_directory events
    exact hrun.world.directory.current

/-- One transaction moves the unit in which another one takes a person away, and moves it back,
so that the other one cannot bring the person back. -/
theorem wellFormed_of_mem_states_staffed :
    let people := Name.unit "people"
    let staff := Name.unit "staff"
    let events : List (Event Bool) :=
      [.act true (.perform (.rename people staff)),
        .act false (.perform (.unbind (staff.member "ann"))),
        .write (.bind (people.member "bob") .empty), .act true (.complete .rollback),
        .write (.bind (people.member "bob") .empty), .act false .abandon]
    let c := chronicle Directory.staffed (fun _ => .default) .initial [] events
    Directory.staffed.ParentClosed ∧ c.states.length = 7 ∧
      c.current.names = [people.member "ann_temp", people.member "bob", people] ∧
      (∀ state ∈ c.states, Directory.staffed.WellFormed state) ∧
      let before := Shared.start Directory.service (fun _ => .default) ⟨Directory.staffed, .initial⟩
      c.current = (run Directory.service events before).world.directory := by
  intro people staff events c
  have hclosed := Directory.staffed_closed
  obtain ⟨hstates, hcurrent⟩ :=
    wellFormed_of_mem_states hclosed (fun _ => Parking.default) .initial [] events
  exact ⟨hclosed, by decide +kernel, by decide +kernel, hstates, hcurrent rfl⟩

end Traffic

end DirectorySaga
