/-
What a call to a directory looks at, and what it changes.

A call does not look at the whole directory.  Whatever it answers depends on the entries
within the names that it is called with and on their parents; a move looks at everything
within its old name, and still at nothing else.  So two directories that agree there
answer alike, and agree there afterwards (`AgreeOn.perform`).  And a call changes nothing
but entries within its names (`getElem?_perform`).

Neither fact needs a closed directory.  For a move this takes a look at its loop: in a
directory that is not closed its steps can get in each other's way, but they do so in
the same manner on both sides, since both sides move the same names in the same order.

A transaction calls the directory with the names of the operation, or with names derived
from it.  Under the rule of suffixes these are as local as the operation itself, and so
the two facts carry over to the steps of transactions (`directoryWrites_local`).
-/
import Mathlib.Data.List.Sort
import DirectorySaga.Proofs.Saga.Lockstep
import DirectorySaga.Proofs.Transaction.Commit

namespace DirectorySaga

namespace Directory

variable {P : Name → Prop} {d e : Directory} {name old new n : Name}

/-! ### Directories that agree -/

/-- The directories have the same entries under the names with the property. -/
def AgreeOn (P : Name → Prop) (d e : Directory) : Prop :=
  ∀ n, P n → d.entries[n]? = e.entries[n]?

/-- What a call with this name can look at has the property. -/
structure InView (P : Name → Prop) (name : Name) : Prop where
  within : ∀ n : Name, n.Within name → P n
  parent : ∀ above, name.parent? = some above → P above

theorem InView.self (h : InView P name) : P name := h.within name (Name.within_refl name)

theorem AgreeOn.mem_iff (h : AgreeOn P d e) (hn : P n) : n ∈ d.entries ↔ n ∈ e.entries :=
  mem_congr (by rw [h n hn])

theorem AgreeOn.contains (h : AgreeOn P d e) (hn : P n) : d.contains n = e.contains n := by
  rw [Bool.eq_iff_iff, contains_iff, contains_iff, h.mem_iff hn]

theorem AgreeOn.lookup (h : AgreeOn P d e) (hn : P n) : d.lookup n = e.lookup n := by
  unfold Directory.lookup
  rw [h n hn]

theorem AgreeOn.hasBelow (h : AgreeOn P d e) (hname : InView P name) :
    d.hasBelow name = e.hasBelow name := by
  rw [Bool.eq_iff_iff, hasBelow_iff, hasBelow_iff]
  refine exists_congr fun n => and_congr_left fun hn => h.mem_iff (hname.within n ?_)
  exact (Name.isBelow_iff_within.mp hn).1

theorem AgreeOn.requireParent (h : AgreeOn P d e) (hname : InView P name) :
    d.requireParent name = e.requireParent name := by
  unfold Directory.requireParent
  cases hparent : name.parent? with
  | none => rfl
  | some above => simp only [h.contains (hname.parent above hparent)]

/-! ### The same change on both sides -/

theorem AgreeOn.seed (h : AgreeOn P d e) (name : Name) (attributes : Attributes) :
    AgreeOn P (d.seed name attributes) (e.seed name attributes) := by
  intro n hn
  rw [getElem?_seed, getElem?_seed, h n hn]

theorem AgreeOn.remove (h : AgreeOn P d e) (name : Name) :
    AgreeOn P (d.remove name) (e.remove name) := by
  intro n hn
  rw [getElem?_remove, getElem?_remove, h n hn]

/-- Both sides take the same names along, in the same order. -/
theorem AgreeOn.filter_names (h : AgreeOn P d e) {p : Name → Bool}
    (hp : ∀ n, p n = true → P n) : d.names.filter p = e.names.filter p := by
  have hd : (d.names.filter p).Pairwise fun a b => compare a b = .lt :=
    Std.ExtTreeMap.ordered_keys.filter p
  have he : (e.names.filter p).Pairwise fun a b => compare a b = .lt :=
    Std.ExtTreeMap.ordered_keys.filter p
  have : Std.Irrefl fun a b : Name => compare a b = .lt :=
    ⟨fun a h => by rw [Std.compare_self] at h; cases h⟩
  have : Std.Antisymm fun a b : Name => compare a b = .lt :=
    ⟨fun a b hab hba => by rw [Std.OrientedOrd.eq_swap, hba] at hab; cases hab⟩
  refine List.Pairwise.eq_of_mem_iff hd he fun n => ?_
  rw [List.mem_filter, List.mem_filter, names, names, Std.ExtTreeMap.mem_keys,
    Std.ExtTreeMap.mem_keys]
  exact and_congr_left fun hn => h.mem_iff (hp n hn)

/-- The loops of a move go the same way. -/
theorem foldl_moveEntry_agree (hold : ∀ n : Name, n.Within old → P n) (moved : List Name) :
    ∀ {entries entries' : Entries}, (∀ n ∈ moved, n.Within old) →
      (∀ n, P n → entries[n]? = entries'[n]?) →
      ∀ n, P n → (moved.foldl (moveEntry old new) entries)[n]? =
        (moved.foldl (moveEntry old new) entries')[n]? := by
  induction moved with
  | nil =>
    intro entries entries' _ h
    exact h
  | cons m more ih =>
    intro entries entries' hmoved h
    obtain ⟨hm, hmore⟩ := List.forall_mem_cons.mp hmoved
    rw [List.foldl_cons, List.foldl_cons]
    refine ih hmore ?_
    intro n hn
    have hsource : entries[m]? = entries'[m]? := h m (hold m hm)
    cases hentry : entries[m]? with
    | none =>
      rw [hentry] at hsource
      simp only [moveEntry, hentry, ← hsource]
      exact h n hn
    | some attributes =>
      rw [hentry] at hsource
      rw [moveEntry_eq hm hentry, moveEntry_eq hm hsource.symm, getElem?_insert_erase,
        getElem?_insert_erase, h n hn]

theorem AgreeOn.move (h : AgreeOn P d e) (hold : InView P old) :
    AgreeOn P (d.move old new) (e.move old new) := by
  have hmoved : d.names.filter (fun name => name == old || name.isBelow old) =
      e.names.filter (fun name => name == old || name.isBelow old) := by
    refine h.filter_names fun n hn => hold.within n ?_
    rwa [Bool.or_eq_true, beq_iff_eq, ← Name.within_iff_eq_or_isBelow] at hn
  unfold Directory.move
  rw [hmoved]
  exact foldl_moveEntry_agree hold.within _ (fun n hn => (mem_moved.mp hn).2) h

/-! ### Writes -/

theorem AgreeOn.map_requireParent {d' e' : Directory} (h : AgreeOn P d e) (hname : InView P name)
    (hchanged : AgreeOn P d' e') :
    SameAnswer (AgreeOn P) ((d.requireParent name).map fun _ => d')
      ((e.requireParent name).map fun _ => e') := by
  rw [h.requireParent hname]
  cases e.requireParent name with
  | ok _ => exact .ok hchanged
  | error reason => exact .error reason

/-- Two directories that agree on all that a write can look at answer alike, and agree after it. -/
theorem AgreeOn.write (h : AgreeOn P d e) {operation : Operation}
    (hview : ∀ n ∈ operation.names, InView P n) :
    SameAnswer (AgreeOn P) (d.write operation) (e.write operation) := by
  cases operation with
  | bind name attributes =>
    have hname := hview name List.mem_cons_self
    show SameAnswer _ (d.bind name attributes) (e.bind name attributes)
    rw [bind_eq, bind_eq, h.contains hname.self]
    split
    · exact .error _
    · exact h.map_requireParent hname (h.seed name attributes)
  | rebind name attributes =>
    have hname := hview name List.mem_cons_self
    show SameAnswer _ (d.rebind name attributes) (e.rebind name attributes)
    rw [rebind_eq, rebind_eq]
    exact h.map_requireParent hname (h.seed name attributes)
  | rename old new =>
    have hold := hview old List.mem_cons_self
    have hnew := hview new (List.mem_cons_of_mem _ List.mem_cons_self)
    show SameAnswer _ (d.rename old new) (e.rename old new)
    rw [rename_eq, rename_eq, h.contains hold.self, h.contains hnew.self]
    split
    · exact .error _
    · split
      · exact .error _
      · split
        · exact .error _
        · exact h.map_requireParent hnew (h.move hold)
  | unbind name =>
    have hname := hview name List.mem_cons_self
    show SameAnswer _ (d.unbind name) (e.unbind name)
    rw [unbind_eq, unbind_eq, h.contains hname.self, h.hasBelow hname]
    split
    · exact .error _
    · split
      · exact .error _
      · exact .ok (h.remove name)
  | modifyAttributes name items =>
    have hname := hview name List.mem_cons_self
    show SameAnswer _ (d.modifyAttributes name items) (e.modifyAttributes name items)
    rw [modifyAttributes_eq, modifyAttributes_eq, h name hname.self]
    cases e.entries[name]? with
    | none => exact .error _
    | some before =>
      cases hmodify : before.modify name items with
      | ok after =>
        simp only [hmodify]
        exact .ok (h.seed name after)
      | error reason =>
        simp only [hmodify]
        exact .error reason

/-- **A write looks at nothing out of view.** -/
theorem AgreeOn.perform (h : AgreeOn P d e) {operation : Operation}
    (hview : ∀ n ∈ operation.names, InView P n) :
    (d.perform operation).1 = (e.perform operation).1 ∧
      AgreeOn P (d.perform operation).2 (e.perform operation).2 := by
  have hwrite := h.write hview
  unfold Directory.perform
  generalize d.write operation = answer at hwrite
  generalize e.write operation = answer' at hwrite
  cases hwrite with
  | ok hafter => exact ⟨rfl, hafter⟩
  | error reason => exact ⟨rfl, h⟩

/-! ### What stays as it is -/

/-- A move changes nothing but entries within its ends. -/
theorem getElem?_move_of_not_within (hold : ¬ n.Within old) (hnew : ¬ n.Within new)
    (d : Directory) : (d.move old new).entries[n]? = d.entries[n]? := by
  have hloop : ∀ (moved : List Name) (entries : Entries), (∀ m ∈ moved, m.Within old) →
      (moved.foldl (moveEntry old new) entries)[n]? = entries[n]? := by
    intro moved
    induction moved with
    | nil =>
      intro entries _
      rfl
    | cons m more ih =>
      intro entries hmoved
      obtain ⟨hm, hmore⟩ := List.forall_mem_cons.mp hmoved
      rw [List.foldl_cons, ih _ hmore]
      cases hentry : entries[m]? with
      | none => simp only [moveEntry, hentry]
      | some attributes =>
        have htarget : m.carry old new ≠ n := by
          rintro rfl
          exact hnew (Name.carry_within hm)
        have hsource : m ≠ n := by
          rintro rfl
          exact hold hm
        rw [moveEntry_eq hm hentry, getElem?_insert_erase, if_neg htarget, if_neg hsource]
  exact hloop _ d.entries fun m hm => (mem_moved.mp hm).2

/-- **A write changes nothing but entries within its names.** -/
theorem getElem?_perform {operation : Operation} (h : ∀ m ∈ operation.names, ¬ n.Within m)
    (d : Directory) : (d.perform operation).2.entries[n]? = d.entries[n]? := by
  have hne : ∀ m ∈ operation.names, m ≠ n := by
    rintro m hm rfl
    exact h m hm (Name.within_refl m)
  cases hwrite : d.write operation with
  | error reason => simp only [Directory.perform, hwrite]
  | ok d' =>
    simp only [Directory.perform, hwrite]
    cases operation with
    | bind name attributes =>
      obtain ⟨-, -, rfl⟩ := bind_eq_ok_iff.mp hwrite
      rw [getElem?_seed, if_neg (hne name List.mem_cons_self)]
    | rebind name attributes =>
      obtain ⟨-, rfl⟩ := rebind_eq_ok_iff.mp hwrite
      rw [getElem?_seed, if_neg (hne name List.mem_cons_self)]
    | rename old new =>
      obtain ⟨-, rfl⟩ := rename_eq_ok_iff.mp hwrite
      exact getElem?_move_of_not_within (h old List.mem_cons_self)
        (h new (List.mem_cons_of_mem _ List.mem_cons_self)) d
    | unbind name =>
      obtain ⟨-, -, rfl⟩ := unbind_eq_ok_iff.mp hwrite
      rw [getElem?_remove, if_neg (hne name List.mem_cons_self)]
    | modifyAttributes name items =>
      obtain ⟨before, after, -, -, rfl⟩ := modifyAttributes_eq_ok_iff.mp hwrite
      rw [getElem?_seed, if_neg (hne name List.mem_cons_self)]

end Directory

open Directory (AgreeOn InView)

/-! ### Below a base -/

/-- A call with a name below the base looks at nothing but the subtree at the base. -/
theorem Name.inView_of_isBelow {base n : Name} (h : n.isBelow base = true) :
    InView (·.Within base) n where
  within _ hm := hm.trans (isBelow_iff_within.mp h).1
  parent := by
    intro above habove
    obtain ⟨leaf, rfl⟩ := parent?_eq_some_iff.mp habove
    exact isBelow_child.mp h

/-- Under the rule of suffixes an entry is parked below its own parent. -/
theorem Parking.Forms.isBelow {text : String} {name temporary base : Name}
    (h : (Parking.suffix text).Forms name temporary) (hname : name.isBelow base = true) :
    temporary.isBelow base = true := by
  obtain ⟨s, h⟩ := h
  obtain ⟨levels⟩ := name
  cases levels with
  | nil => cases h
  | cons leaf above =>
    cases h
    have habove : Name.Within ⟨above⟩ base :=
      Name.isBelow_child.mp (show (Name.child ⟨above⟩ leaf).isBelow base = true from hname)
    exact Name.isBelow_child.mpr habove

/-! ### Steps -/

/-- The names that the step is about. -/
def Step.names (step : Step) : List Name := step.forward.names

theorem Step.names_of_completion {phase : CompletionPhase} {step : Step} {operation : Operation}
    (h : operation ∈ step.completion phase) : ∀ n ∈ operation.names, n ∈ step.names := by
  intro n hn
  cases phase with
  | commit =>
    cases step with
    | unbind name temporary =>
      cases h
      exact List.mem_cons_of_mem _ hn
    | bind name attributes => cases h
    | rebind name attributes before => cases h
    | rename old new => cases h
    | modifyAttributes name items compensating => cases h
  | rollback =>
    cases h
    cases step with
    | bind name attributes => exact hn
    | rebind name attributes before => cases before <;> exact hn
    | rename old new =>
      simpa [Step.names, Step.forward, Step.inverse, Operation.names, or_comm] using hn
    | unbind name temporary =>
      simpa [Step.names, Step.forward, Step.inverse, Operation.names, or_comm] using hn
    | modifyAttributes name items compensating => exact hn

/-- The steps are the same, and below the base. -/
structure Step.Confined (base : Name) (x y : Step) : Prop where
  same : x = y
  below : ∀ n ∈ x.names, n.isBelow base = true

/-- The worlds are the same as seen from below the base, and the first one has changed there
only since its directory was `origin`. -/
structure World.Alike (base : Name) (origin : Directory) (w v : World Directory) : Prop where
  within : AgreeOn (·.Within base) w.directory v.directory
  outside : ∀ n : Name, n.isBelow base = false →
    w.directory.entries[n]? = origin.entries[n]?

variable {base : Name} {origin : Directory} {w v : World Directory} {operation : Operation}

/-- Writing below the base. -/
theorem World.Alike.write (h : World.Alike base origin w v)
    (hbelow : ∀ n ∈ operation.names, n.isBelow base = true) :
    (w.call (Directory.service.write operation)).1 =
        (v.call (Directory.service.write operation)).1 ∧
      World.Alike base origin (w.call (Directory.service.write operation)).2
        (v.call (Directory.service.write operation)).2 := by
  obtain ⟨hanswer, hwithin⟩ :=
    h.within.perform fun n hn => Name.inView_of_isBelow (hbelow n hn)
  refine ⟨hanswer, hwithin, ?_⟩
  intro n hn
  have hapart : ∀ m ∈ operation.names, ¬ n.Within m := by
    intro m hm hw
    rw [hw.isBelow (hbelow m hm)] at hn
    cases hn
  exact (Directory.getElem?_perform hapart w.directory).trans (h.outside n hn)

/-- What recording answers over a directory, when a request for a temporary name would be
answered like this. -/
def Step.recording (d : Directory) (temporary : Except DirectoryError Name) :
    Operation → Except DirectoryError Step
  | .bind name attributes => .ok (.bind name attributes)
  | .rebind name attributes => .ok (.rebind name attributes d.entries[name]?)
  | .rename old new => .ok (.rename old new)
  | .unbind name =>
    if ¬ d.contains name then .error (.nameNotFound name)
    else if d.hasBelow name then .error (.notEmpty name)
    else temporary.map (.unbind name)
  | .modifyAttributes name items =>
    match d.entries[name]? with
    | some before => .ok (.modifyAttributes name items (before.compensatingItems items))
    | none => .error (.nameNotFound name)

theorem Step.record_eq (parking : Parking) (operation : Operation) (w : World Directory) :
    (Step.record Directory.service parking operation w).1 =
      Step.recording w.directory (parking.temporaryName operation.target w.sequences).1
        operation := by
  cases operation with
  | bind name attributes => rfl
  | rename old new => rfl
  | rebind name attributes =>
    simp only [Step.record, Step.recording, World.call, Directory.service, Directory.lookup]
    cases w.directory.entries[name]? <;> rfl
  | modifyAttributes name items =>
    simp only [Step.record, Step.recording, World.call, Directory.service, Directory.lookup]
    cases w.directory.entries[name]? <;> rfl
  | unbind name =>
    simp only [Step.record, Step.recording, World.call, Directory.service, Directory.hasChildren]
    cases w.directory.contains name with
    | false => rfl
    | true => cases w.directory.hasBelow name <;> rfl

/-- Recording below the base. -/
theorem Step.record_local (text : String) (h : World.Alike base origin w v)
    (hbelow : ∀ n ∈ operation.names, n.isBelow base = true) :
    (Step.record Directory.service (.suffix text) operation w).1 =
      (Step.record Directory.service (.suffix text) operation v).1 := by
  have htemporary : ∀ name, ((Parking.suffix text).temporaryName name w.sequences).1 =
      ((Parking.suffix text).temporaryName name v.sequences).1 := by
    intro name
    unfold Parking.temporaryName
    cases name.levels <;> rfl
  have hview : ∀ n ∈ operation.names, InView (·.Within base) n :=
    fun n hn => Name.inView_of_isBelow (hbelow n hn)
  rw [Step.record_eq, Step.record_eq, htemporary]
  cases operation with
  | bind name attributes => rfl
  | rename old new => rfl
  | rebind name attributes =>
    have hname := hview name List.mem_cons_self
    simp only [Step.recording, h.within name hname.self]
  | modifyAttributes name items =>
    have hname := hview name List.mem_cons_self
    simp only [Step.recording, h.within name hname.self]
  | unbind name =>
    have hname := hview name List.mem_cons_self
    simp only [Step.recording, h.within.contains hname.self, h.within.hasBelow hname]

theorem Step.Recorded.below {text : String} {d : Directory} {step : Step}
    (recorded : Step.Recorded (.suffix text) d operation step)
    (hbelow : ∀ n ∈ operation.names, n.isBelow base = true) :
    ∀ n ∈ step.names, n.isBelow base = true := by
  cases recorded with
  | bind name attributes => exact hbelow
  | rebind name attributes => exact hbelow
  | rename old new => exact hbelow
  | modifyAttributes items found => exact hbelow
  | unbind leaf formed =>
    have hname := hbelow _ List.mem_cons_self
    simp only [Step.names, Step.forward, Operation.names, List.forall_mem_cons]
    exact ⟨hname, formed.isBelow hname, by simp⟩

/-- **Transactions are local.**  Under the rule of suffixes whatever is sent on behalf of
operations below a base looks at nothing but the subtree there, and changes nothing but
what is below the base. -/
theorem directoryWrites_local (base : Name) (text : String) (origin : Directory) :
    (directoryWrites Directory.service (.suffix text)).Mirrors
      (directoryWrites Directory.service (.suffix text))
      (fun operation => ∀ n ∈ operation.names, n.isBelow base = true)
      (Step.Confined base) (World.Alike base origin) where
  operationName _ := rfl
  stepName h := by rw [h.same]
  description phase _ _ h := by rw [h.same]
  record := by
    intro operation w v hbelow h
    obtain ⟨hread, hrecorded⟩ := Step.record_spec (.suffix text) operation w
    obtain ⟨hread', -⟩ := Step.record_spec (.suffix text) operation v
    refine ⟨?_, ?_, ?_⟩
    · show SameAnswer _ (Step.record Directory.service (.suffix text) operation w).1
        (Step.record Directory.service (.suffix text) operation v).1
      rw [← Step.record_local text h hbelow]
      cases hstep : (Step.record Directory.service (.suffix text) operation w).1 with
      | error e => exact .error e
      | ok step => exact .ok ⟨rfl, (hrecorded step hstep).below hbelow⟩
    · show AgreeOn _ (Step.record Directory.service (.suffix text) operation w).2.directory
        (Step.record Directory.service (.suffix text) operation v).2.directory
      rw [hread, hread']
      exact h.within
    · show ∀ n : Name, n.isBelow base = false →
        (Step.record Directory.service (.suffix text) operation w).2.directory.entries[n]? = _
      rw [hread]
      exact h.outside
  perform := by
    rintro x _ w v ⟨rfl, hbelow⟩ h
    exact h.write hbelow
  complete := by
    rintro phase x _ w v ⟨rfl, hbelow⟩ h
    rw [complete_step, complete_step]
    cases hcompletion : x.completion phase with
    | none => exact ⟨rfl, h⟩
    | some operation =>
      exact h.write fun n hn => hbelow n (Step.names_of_completion hcompletion n hn)

end DirectorySaga
