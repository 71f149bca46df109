/-
Transactions on separate subtrees.

Several transactions may be open over one directory, and what is asked of one may come
between any two actions of another.  In general they see each other's writes at once.  But
if each keeps to what lies below a base of its own, and no base lies within another, then
each runs as if it were alone: it gets the same answers, and leaves the same entries below
its base.

The proof follows the run with all transactions beside the run of one of them alone.  Both
have the same session of that transaction, and agree on the subtree at its base.  An action
of the transaction itself is taken on both sides, and it is local (`respond_local`); one of
another transaction is taken on one side only, and changes nothing in the subtree.

That actions are answered alike where calls are is shown for transactions over any two services
(`Abreast.respond`); here both of them are the directory in memory.
-/
import Mathlib.Logic.Function.Basic
import DirectorySaga.Proofs.Transaction.Locality

namespace DirectorySaga.Transaction

open Directory (AgreeOn)

variable {σ : Type}

/-! ### Actions -/

/-- What can be asked of a transaction. -/
inductive Action
  | perform (operation : Operation)
  | lookup (name : Name)
  | complete (phase : CompletionPhase)
  | abandon

/-- The names that the action is called with. -/
def Action.names : Action → List Name
  | .perform operation => operation.names
  | .lookup name => [name]
  | .complete _ | .abandon => []

/-- What a transaction answers. -/
inductive Reply
  | performed (result : Except TransactionError Unit)
  | found (result : Except DirectoryError Attributes)
  | completed (result : Except TransactionError Unit)
  | abandoned (report : Option Abandonment)
  /-- There is no transaction any more. -/
  | ended

/-- What comes of an action.  A transaction is there until it is committed, rolled back or
abandoned. -/
def respond : Option (Transaction σ) → Action → World σ → Reply × Option (Transaction σ) × World σ
  | none, _, w => (.ended, none, w)
  | some tx, .perform operation, w =>
    let (result, tx, w) := tx.perform operation w
    (.performed result, some tx, w)
  | some tx, .lookup name, w =>
    let (result, w) := tx.lookup name w
    (.found result, some tx, w)
  | some tx, .complete phase, w =>
    let (result, _, w) := tx.complete phase w
    (.completed result, none, w)
  | some tx, .abandon, w =>
    let (report, w) := tx.abandon w
    (.abandoned report, none, w)

/-- Transactions over one service, each either running or ended. -/
structure Shared (ι σ : Type) where
  sessions : ι → Option (Transaction σ)
  world : World σ

namespace Shared

variable {ι : Type}

/-- All transactions have just been started. -/
def start (service : Service σ) (parking : ι → Parking) (w : World σ) : Shared ι σ :=
  ⟨fun i => some (TransactionManager.start ⟨service, parking i⟩), w⟩

variable [DecidableEq ι]

/-- What comes of an action of one of the transactions. -/
def act (all : Shared ι σ) (i : ι) (action : Action) : Reply × Shared ι σ :=
  let (reply, session, world) := respond (all.sessions i) action all.world
  (reply, ⟨Function.update all.sessions i session, world⟩)

/-- What comes of actions of the transactions, one after the other. -/
def run : List (ι × Action) → Shared ι σ → List (ι × Reply) × Shared ι σ
  | [], all => ([], all)
  | (i, action) :: more, all =>
    let (reply, all) := all.act i action
    let (replies, all) := run more all
    ((i, reply) :: replies, all)

theorem run_cons (i : ι) (action : Action) (more : List (ι × Action)) (all : Shared ι σ) :
    run ((i, action) :: more) all =
      ((i, (all.act i action).1) :: (run more (all.act i action).2).1,
        (run more (all.act i action).2).2) := rfl

end Shared

/-! ### One action -/

theorem abandon_eq (tx : Transaction σ) (w : World σ) :
    tx.abandon w =
      if tx.saga.isEmpty then (none, w)
      else
        (some ⟨tx.pending, match (tx.rollback w).1 with | .ok _ => none | .error e => some e⟩,
          (tx.rollback w).2.2) := by
  unfold abandon
  cases tx.rollback w with
  | mk result rest => cases result <;> rfl

section

variable {τ : Type} {a : Service σ} {b : Service τ} {parking : Parking}
  {steps : Step → Step → Prop}

/-- Both have ended, or both run by the same parking rule, over the one service and over the
other, and keep corresponding steps. -/
inductive Abreast (a : Service σ) (b : Service τ) (parking : Parking)
    (steps : Step → Step → Prop) : Option (Transaction σ) → Option (Transaction τ) → Prop
  | ended : Abreast a b parking steps none none
  | running {saga saga' : Saga Step} (h : Saga.Matches steps saga saga') :
      Abreast a b parking steps (some ⟨a, parking, saga⟩) (some ⟨b, parking, saga'⟩)

/-- What came of an action on both sides: the same, and they are still abreast. -/
structure SameResponse (a : Service σ) (b : Service τ) (parking : Parking)
    (steps : Step → Step → Prop) (states : World σ → World τ → Prop)
    (x : Reply × Option (Transaction σ) × World σ)
    (y : Reply × Option (Transaction τ) × World τ) : Prop where
  reply : x.1 = y.1
  session : Abreast a b parking steps x.2.1 y.2.1
  worlds : states x.2.2 y.2.2

/-- **Where calls are answered alike, so are actions.**  Of a write it has to be known that it
is admitted, and of a look-up what the services answer. -/
theorem Abreast.respond {admitted : Operation → Prop} {states : World σ → World τ → Prop}
    {session : Option (Transaction σ)} {session' : Option (Transaction τ)} {action : Action}
    {w : World σ} {v : World τ} (hsession : Abreast a b parking steps session session')
    (hwrites : (directoryWrites a parking).Mirrors (directoryWrites b parking) admitted steps
      states)
    (hperform : ∀ operation, action = .perform operation → admitted operation)
    (hlookup : ∀ name, action = .lookup name →
      SameReply states (w.call (a.lookup name)) (v.call (b.lookup name)))
    (h : states w v) :
    SameResponse a b parking steps states (respond session action w)
      (respond session' action v) := by
  cases hsession with
  | ended => exact ⟨rfl, .ended, h⟩
  | @running saga saga' hsaga =>
    cases action with
    | perform operation =>
      obtain ⟨hresult, hafter, hworlds⟩ :=
        Saga.perform_lockstep hwrites (hperform operation rfl) hsaga h
      exact ⟨congrArg Reply.performed hresult, .running hafter, hworlds⟩
    | lookup name =>
      obtain ⟨hresult, hworlds⟩ := hlookup name rfl
      exact ⟨congrArg Reply.found hresult, .running hsaga, hworlds⟩
    | complete phase =>
      obtain ⟨hresult, -, hworlds⟩ := Saga.complete_lockstep hwrites phase hsaga h
      exact ⟨congrArg Reply.completed hresult, .ended, hworlds⟩
    | abandon =>
      obtain ⟨hresult, -, hworlds⟩ := Saga.complete_lockstep hwrites .rollback hsaga h
      have hrollback : (rollback ⟨a, parking, saga⟩ w).1 = (rollback ⟨b, parking, saga'⟩ v).1 :=
        hresult
      have hlength : saga.pending.length = saga'.pending.length := hsaga.pending.length_eq
      have hempty : saga.isEmpty = saga'.isEmpty := by
        rw [Bool.eq_iff_iff, Saga.isEmpty, Saga.isEmpty, List.isEmpty_iff_length_eq_zero,
          List.isEmpty_iff_length_eq_zero, hlength]
      show SameResponse a b parking steps states
        (.abandoned (abandon ⟨a, parking, saga⟩ w).1, none, (abandon ⟨a, parking, saga⟩ w).2)
        (.abandoned (abandon ⟨b, parking, saga'⟩ v).1, none, (abandon ⟨b, parking, saga'⟩ v).2)
      rw [abandon_eq, abandon_eq, hrollback]
      simp only [hempty, pending, Saga.size, hlength]
      split
      · exact ⟨rfl, .ended, h⟩
      · exact ⟨rfl, .ended, hworlds⟩

end

variable {base : Name} {text : String} {origin : Directory} {w v : World Directory}

theorem matches_confined_iff {saga saga' : Saga Step} :
    Saga.Matches (Step.Confined base) saga saga' ↔
      saga = saga' ∧ ∀ x ∈ saga.pending, ∀ n ∈ x.step.names, n.isBelow base = true := by
  have hconfined : ∀ x y, Step.Confined base x y ↔ (∀ n ∈ x.names, n.isBelow base = true) ∧ x = y :=
    fun _ _ => ⟨fun h => ⟨h.below, h.same⟩, fun ⟨hbelow, hsame⟩ => ⟨hsame, hbelow⟩⟩
  exact Saga.matches_iff_eq hconfined

/-- The transaction, if it has not ended, parks by suffix, and its steps are below the base. -/
inductive Local (base : Name) (text : String) : Option (Transaction Directory) → Prop
  | ended : Local base text none
  | running {saga : Saga Step}
      (below : ∀ x ∈ saga.pending, ∀ n ∈ x.step.names, n.isBelow base = true) :
      Local base text (some ⟨Directory.service, .suffix text, saga⟩)

/-- Abreast with each other are a local transaction and itself. -/
theorem abreast_confined_iff {session session' : Option (Transaction Directory)} :
    Abreast Directory.service Directory.service (.suffix text) (Step.Confined base) session
      session' ↔ session = session' ∧ Local base text session := by
  constructor
  · intro h
    cases h with
    | ended => exact ⟨rfl, .ended⟩
    | running hsaga =>
      obtain ⟨rfl, hbelow⟩ := matches_confined_iff.mp hsaga
      exact ⟨rfl, .running hbelow⟩
  · rintro ⟨rfl, h⟩
    cases h with
    | ended => exact .ended
    | running hbelow => exact .running (matches_confined_iff.mpr ⟨rfl, hbelow⟩)

/-- **An action below the base is local.** -/
theorem respond_local {session : Option (Transaction Directory)} {action : Action}
    (hsession : Local base text session)
    (hbelow : ∀ n ∈ action.names, n.isBelow base = true) (h : World.Alike base origin w v) :
    SameResponse Directory.service Directory.service (.suffix text) (Step.Confined base)
      (World.Alike base origin) (respond session action w) (respond session action v) := by
  refine (abreast_confined_iff.mpr ⟨rfl, hsession⟩).respond
    (directoryWrites_local base text origin) ?_ ?_ h
  · rintro operation rfl
    exact hbelow
  · rintro name rfl
    have hname := (Name.inView_of_isBelow (hbelow name List.mem_cons_self)).self
    exact ⟨h.within.lookup hname, h⟩

/-! ### The whole run -/

namespace Shared

variable {ι : Type} {base : ι → Name} {text : ι → String} {i : ι}

/-- The run with all transactions and the one of transaction `i` alone have come to the same
as far as this transaction is concerned. -/
structure Coupled (base : ι → Name) (text : ι → String) (i : ι)
    (all solo : Shared ι Directory) : Prop where
  sound : ∀ j, Local (base j) (text j) (all.sessions j)
  session : all.sessions i = solo.sessions i
  within : AgreeOn (·.Within (base i)) all.world.directory solo.world.directory

variable [DecidableEq ι]

variable {all solo : Shared ι Directory} {action : Action}

/-- Every transaction is still local after an action below the base of one. -/
theorem sound_act (hsound : ∀ j, Local (base j) (text j) (all.sessions j))
    (hbelow : ∀ n ∈ action.names, n.isBelow (base i) = true) :
    (∀ j, Local (base j) (text j) ((all.act i action).2.sessions j)) ∧
      ∀ n : Name, n.isBelow (base i) = false →
        (all.act i action).2.world.directory.entries[n]? =
          all.world.directory.entries[n]? := by
  have hself : World.Alike (base i) all.world.directory all.world all.world :=
    ⟨fun _ _ => rfl, fun _ _ => rfl⟩
  have hresponse := respond_local (hsound i) hbelow hself
  refine ⟨?_, hresponse.worlds.outside⟩
  intro j
  by_cases hj : j = i
  · subst hj
    simpa [act] using (abreast_confined_iff.mp hresponse.session).2
  · simpa [act, hj] using hsound j

/-- The transaction itself acts on both sides. -/
theorem Coupled.act_self (h : Coupled base text i all solo)
    (hbelow : ∀ n ∈ action.names, n.isBelow (base i) = true) :
    (all.act i action).1 = (solo.act i action).1 ∧
      Coupled base text i (all.act i action).2 (solo.act i action).2 := by
  have hworlds : World.Alike (base i) all.world.directory all.world solo.world :=
    ⟨h.within, fun _ _ => rfl⟩
  have hresponse := respond_local (h.sound i) hbelow hworlds
  rw [h.session] at hresponse
  refine ⟨?_, (sound_act h.sound hbelow).1, ?_, ?_⟩
  · simp only [act, h.session]
    exact hresponse.reply
  · simp only [act, Function.update_self, h.session]
    exact (abreast_confined_iff.mp hresponse.session).1
  · simp only [act, h.session]
    exact hresponse.worlds.within

/-- Another transaction acts on one side. -/
theorem Coupled.act_other (h : Coupled base text i all solo) {j : ι} (hj : j ≠ i)
    (apart : ∀ i j, i ≠ j → ¬ (base i).Within (base j))
    (hbelow : ∀ n ∈ action.names, n.isBelow (base j) = true) :
    Coupled base text i (all.act j action).2 solo := by
  obtain ⟨hsound, houtside⟩ := sound_act h.sound hbelow
  refine ⟨hsound, ?_, ?_⟩
  · rw [← h.session]
    simp [act, Ne.symm hj]
  · intro n hn
    rw [houtside n ?_]
    · exact h.within n hn
    · -- no name lies within two of the bases
      rw [Name.not_isBelow_iff]
      intro hw
      exact absurd (hn.linear hw) (not_or.mpr ⟨apart i j (Ne.symm hj), apart j i hj⟩)

theorem Coupled.run (apart : ∀ i j, i ≠ j → ¬ (base i).Within (base j)) :
    ∀ (turns : List (ι × Action)) {all solo : Shared ι Directory}, Coupled base text i all solo →
      (∀ t ∈ turns, ∀ n ∈ t.2.names, n.isBelow (base t.1) = true) →
      (run turns all).1.filter (·.1 = i) = (run (turns.filter (·.1 = i)) solo).1 ∧
        Coupled base text i (run turns all).2 (run (turns.filter (·.1 = i)) solo).2 := by
  intro turns
  induction turns with
  | nil =>
    intro all solo h _
    exact ⟨rfl, h⟩
  | cons turn more ih =>
    intro all solo h hbelow
    obtain ⟨j, action⟩ := turn
    obtain ⟨hfirst, hmore⟩ := List.forall_mem_cons.mp hbelow
    rw [run_cons]
    by_cases hj : j = i
    · subst hj
      obtain ⟨hreply, hnext⟩ := h.act_self hfirst
      obtain ⟨hreplies, hfinal⟩ := ih hnext hmore
      rw [List.filter_cons_of_pos (by simp), List.filter_cons_of_pos (by simp), run_cons, hreply,
        hreplies]
      exact ⟨rfl, hfinal⟩
    · rw [List.filter_cons_of_neg (by simpa using hj), List.filter_cons_of_neg (by simpa using hj)]
      exact ih (h.act_other hj apart hfirst) hmore

/-- What is below none of the bases stays as it is. -/
theorem run_outside : ∀ (turns : List (ι × Action)) {all : Shared ι Directory},
    (∀ j, Local (base j) (text j) (all.sessions j)) →
      (∀ t ∈ turns, ∀ n ∈ t.2.names, n.isBelow (base t.1) = true) →
      ∀ n : Name, (∀ j, n.isBelow (base j) = false) →
        (run turns all).2.world.directory.entries[n]? = all.world.directory.entries[n]? := by
  intro turns
  induction turns with
  | nil =>
    intro all _ _ n _
    rfl
  | cons turn more ih =>
    intro all hsound hbelow n hn
    obtain ⟨j, action⟩ := turn
    obtain ⟨hfirst, hmore⟩ := List.forall_mem_cons.mp hbelow
    obtain ⟨hnext, houtside⟩ := sound_act hsound hfirst
    rw [run_cons, ih hnext hmore n hn, houtside n (hn j)]

end Shared

/--
**Transactions on separate subtrees do not interfere.**  Let no base lie within another, and
let every action use names strictly below the base of its transaction only.  Then each
transaction gets the answers that it would get if nothing were asked of the others, what
is below its base in the end is what would be there then, and whatever is below none of the
bases is unchanged.
-/
theorem interleaved_eq_solo {ι : Type} [DecidableEq ι] (base : ι → Name) (text : ι → String)
    (w : World Directory) (turns : List (ι × Action))
    (apart : ∀ i j, i ≠ j → ¬ (base i).Within (base j))
    (below : ∀ t ∈ turns, ∀ n ∈ t.2.names, n.isBelow (base t.1) = true) :
    let start := Shared.start Directory.service (fun i => Parking.suffix (text i)) w
    let all := Shared.run turns start
    (∀ i,
      let solo := Shared.run (turns.filter (·.1 = i)) start
      all.1.filter (·.1 = i) = solo.1 ∧
        ∀ n : Name, n.isBelow (base i) = true →
          all.2.world.directory.entries[n]? = solo.2.world.directory.entries[n]?) ∧
    ∀ n : Name, (∀ i, n.isBelow (base i) = false) →
      all.2.world.directory.entries[n]? = w.directory.entries[n]? := by
  intro start all
  have hsound : ∀ j, Local (base j) (text j) (start.sessions j) :=
    fun j => .running (by simp [Saga.empty])
  refine ⟨?_, Shared.run_outside turns hsound below⟩
  intro i
  have hstart : Shared.Coupled base text i start start := ⟨hsound, rfl, fun _ _ => rfl⟩
  obtain ⟨hreplies, hfinal⟩ := hstart.run apart turns below
  refine ⟨hreplies, ?_⟩
  intro n hn
  exact hfinal.within n (Name.isBelow_iff_within.mp hn).1

/-- While a machine comes into one unit for good, a person of another is taken away, given
another name meanwhile, and brought back. -/
theorem interleaved_eq_solo_staffed :
    let people := Name.unit "people"
    let machines := Name.unit "machines"
    let base : Bool → Name := fun i => if i then machines else people
    let turns : List (Bool × Action) :=
      [(false, .perform (.unbind (people.member "ann"))),
        (true, .perform (.bind (machines.member "mill") .empty)),
        (false, .perform (.rename (people.member "ann_temp") (people.member "bob"))),
        (true, .lookup (machines.member "mill")), (false, .lookup (people.member "ann")),
        (true, .complete .commit), (false, .abandon), (false, .lookup (people.member "ann"))]
    let text : Bool → String := fun _ => Parking.defaultSuffix
    let w : World Directory := ⟨Directory.staffed.seed machines .empty, .initial⟩
    (∀ i j, i ≠ j → ¬ (base i).Within (base j)) ∧
      (∀ t ∈ turns, ∀ n ∈ t.2.names, n.isBelow (base t.1) = true) ∧
      let start := Shared.start Directory.service (fun i => Parking.suffix (text i)) w
      let all := Shared.run turns start
      (∀ i,
        let solo := Shared.run (turns.filter (·.1 = i)) start
        all.1.filter (·.1 = i) = solo.1 ∧
          ∀ n : Name, n.isBelow (base i) = true →
            all.2.world.directory.entries[n]? = solo.2.world.directory.entries[n]?) ∧
      ∀ n : Name, (∀ i, n.isBelow (base i) = false) →
        all.2.world.directory.entries[n]? = w.directory.entries[n]? := by
  intro people machines base turns text w
  have apart : ∀ i j, i ≠ j → ¬ (base i).Within (base j) := by decide +kernel
  have below : ∀ t ∈ turns, ∀ n ∈ t.2.names, n.isBelow (base t.1) = true := by decide +kernel
  exact ⟨apart, below, interleaved_eq_solo base text w turns apart below⟩

end DirectorySaga.Transaction
