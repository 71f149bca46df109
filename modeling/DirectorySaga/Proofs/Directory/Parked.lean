/-
Parked entries.

An entry that a transaction has taken away waits under a temporary name for the commit.
As far as the transaction is concerned it is gone already, so the directory has to be
read without the parked entries: `d.without ts`.

The parked entries do no harm as long as they are where they were put, each a leaf under
a name of its own (`Parked`).  A write that does not name them and moves nothing above
them keeps them so, and it does to the directory read without them what it would do to
a directory that never held them: every check that the write makes is about a name which
is not parked, or about a parent, and a parked entry is nobody's parent.

Taking all of them away at last succeeds exactly when they are parked (`sweep_ok_iff`).
-/
import DirectorySaga.Proofs.Directory.Closed

namespace DirectorySaga

/-! ### A directory without some names -/

namespace Directory

variable {d d' : Directory} {ts us : List Name} {name old new temporary n t : Name}
  {attributes : Attributes}

/-- The directory without the entries at the names. -/
def without (d : Directory) (ts : List Name) : Directory := ts.foldl remove d

@[simp] theorem without_nil (d : Directory) : d.without [] = d := rfl

theorem without_cons (d : Directory) (t : Name) (ts : List Name) :
    d.without (t :: ts) = (d.remove t).without ts := rfl

theorem getElem?_without (d : Directory) (ts : List Name) (n : Name) :
    (d.without ts).entries[n]? = if n ∈ ts then none else d.entries[n]? := by
  induction ts generalizing d with
  | nil => simp
  | cons t ts ih =>
    rw [without_cons, ih, getElem?_remove]
    by_cases hn : n ∈ ts
    · simp [hn]
    · simp [hn, eq_comm]

theorem readOnly_without (d : Directory) (ts : List Name) :
    (d.without ts).readOnly = d.readOnly := by
  induction ts generalizing d with
  | nil => rfl
  | cons t ts ih =>
    rw [without_cons, ih]
    rfl

theorem mem_without : n ∈ (d.without ts).entries ↔ n ∈ d.entries ∧ n ∉ ts := by
  rw [mem_iff_getElem?, getElem?_without, mem_iff_getElem?]
  by_cases hn : n ∈ ts <;> simp [hn]

/-- Neither order nor repetition of the names matters. -/
theorem without_congr (d : Directory) (h : ∀ n, n ∈ ts ↔ n ∈ us) : d.without ts = d.without us := by
  refine ext_entries ?_ fun n => ?_
  · rw [readOnly_without, readOnly_without]
  · rw [getElem?_without, getElem?_without]
    simp only [h n]

/-! ### Being parked -/

/-- Under each of the names waits an entry of its own, with nothing below it. -/
structure Parked (ts : List Name) (d : Directory) : Prop where
  distinct : ts.Nodup
  bound : ∀ t ∈ ts, t ∈ d.entries
  leaf : ∀ t ∈ ts, d.hasBelow t = false

namespace Parked

theorem nil (d : Directory) : Parked [] d := ⟨.nil, by simp, by simp⟩

theorem perm (h : Parked ts d) (hperm : ts.Perm us) : Parked us d where
  distinct := hperm.nodup_iff.mp h.distinct
  bound := fun t ht => h.bound t (hperm.mem_iff.mpr ht)
  leaf := fun t ht => h.leaf t (hperm.mem_iff.mpr ht)

/-- What is bound within a parked entry is that entry. -/
theorem eq_of_within (h : Parked ts d) (ht : t ∈ ts) (hn : n ∈ d.entries) (hw : n.Within t) :
    n = t := not_hasBelow_iff.mp (h.leaf t ht) n hn hw

/-- The directory stays closed when the parked entries go. -/
theorem closed (h : Parked ts d) (closed : d.ParentClosed) : (d.without ts).ParentClosed := by
  rw [parentClosed_iff] at closed ⊢
  intro parent leaf hmem
  rw [mem_without] at hmem ⊢
  refine (closed parent leaf hmem.1).imp_right fun hparent => ⟨hparent, fun ht => ?_⟩
  exact Name.child_ne parent leaf (h.eq_of_within ht hmem.1 (Name.child_within parent leaf))

theorem size (h : Parked ts d) : (d.without ts).size + ts.length = d.size := by
  obtain ⟨distinct, bound, -⟩ := h
  induction ts generalizing d with
  | nil => rfl
  | cons t ts ih =>
    obtain ⟨hnotin, distinct⟩ := List.nodup_cons.mp distinct
    have hrest : ∀ u ∈ ts, u ∈ (d.remove t).entries := by
      intro u hu
      refine mem_remove.mpr ⟨?_, bound u (by simp [hu])⟩
      rintro rfl
      exact hnotin hu
    have hmore := ih distinct hrest
    have hfirst : (d.remove t).size + 1 = d.size := size_remove (bound t (by simp))
    rw [without_cons, List.length_cons]
    omega

end Parked

/-! ### Taking all of them away -/

private theorem parked_cons_iff (apart : ∀ u ∈ ts, t.Within u → t = u) :
    Parked (t :: ts) d ↔
      t ∈ d.entries ∧ d.hasBelow t = false ∧ Parked ts (d.remove t) := by
  constructor
  · intro h
    obtain ⟨hnotin, distinct⟩ := List.nodup_cons.mp h.distinct
    refine ⟨h.bound t (by simp), h.leaf t (by simp), distinct, ?_, ?_⟩
    · intro u hu
      refine mem_remove.mpr ⟨?_, h.bound u (by simp [hu])⟩
      rintro rfl
      exact hnotin hu
    · intro u hu
      rw [not_hasBelow_iff]
      intro n hn
      exact h.eq_of_within (by simp [hu]) (mem_remove.mp hn).2
  · rintro ⟨hbound, hleaf, h⟩
    refine ⟨List.nodup_cons.mpr ⟨fun ht => ?_, h.distinct⟩, ?_, ?_⟩
    · exact (mem_remove.mp (h.bound t ht)).1 rfl
    · intro u hu
      rcases List.mem_cons.mp hu with rfl | hu
      · exact hbound
      · exact (mem_remove.mp (h.bound u hu)).2
    · intro u hu
      rcases List.mem_cons.mp hu with rfl | hu
      · exact hleaf
      · rw [not_hasBelow_iff]
        intro n hn
        by_cases htn : t = n
        · exact htn ▸ apart u hu
        · exact h.eq_of_within hu (mem_remove.mpr ⟨htn, hn⟩)

/-- **Sweeping.**  If none of the names lies below another, the entries can be taken away
one after the other just when they are parked, and the rest is left. -/
theorem sweep_ok_iff (apart : ∀ t ∈ ts, ∀ u ∈ ts, t.Within u → t = u) :
    d.writeAll (ts.map Operation.unbind) = .ok d' ↔ Parked ts d ∧ d' = d.without ts := by
  induction ts generalizing d with
  | nil =>
    simp only [List.map_nil, writeAll, List.foldlM_nil, pure, Except.pure, Except.ok.injEq,
      without_nil, Parked.nil, true_and]
    exact eq_comm
  | cons t ts ih =>
    have hrest := ih (d := d.remove t) fun u hu v hv => apart u (by simp [hu]) v (by simp [hv])
    have hfirst : ∀ e, d.write (.unbind t) = .ok e ↔
        t ∈ d.entries ∧ d.hasBelow t = false ∧ e = d.remove t := fun e => unbind_eq_ok_iff
    rw [List.map_cons, writeAll_cons_eq_ok_iff, without_cons,
      parked_cons_iff fun u hu => apart t (by simp) u (by simp [hu])]
    constructor
    · rintro ⟨e, hwrite, hmore⟩
      obtain ⟨hbound, hleaf, rfl⟩ := (hfirst e).mp hwrite
      obtain ⟨hparked, hd⟩ := hrest.mp hmore
      exact ⟨⟨hbound, hleaf, hparked⟩, hd⟩
    · rintro ⟨⟨hbound, hleaf, hparked⟩, hd⟩
      exact ⟨d.remove t, (hfirst _).mpr ⟨hbound, hleaf, rfl⟩, hrest.mpr ⟨hparked, hd⟩⟩

/-! ### Writes beside parked entries -/

/-- What has a place has one without the parked entries, since none of them is above it. -/
theorem HasPlace.without (h : d.HasPlace name) (hname : ∀ t ∈ ts, ¬ name.Within t) :
    (d.without ts).HasPlace name := by
  obtain ⟨parent, hp, hplace⟩ := h
  refine ⟨parent, hp, hplace.imp_right fun hmem => mem_without.mpr ⟨hmem, fun ht => ?_⟩⟩
  obtain ⟨leaf, rfl⟩ := Name.parent?_eq_some_iff.mp hp
  exact hname parent ht (Name.child_within parent leaf)

theorem Movable.without (h : d.Movable old new) (hold : ∀ t ∈ ts, ¬ old.Within t)
    (hnew : ∀ t ∈ ts, ¬ new.Within t) : (d.without ts).Movable old new where
  bound := mem_without.mpr ⟨h.bound, fun ht => hold old ht (Name.within_refl old)⟩
  free := fun hmem => h.free (mem_without.mp hmem).1
  outside := h.outside
  place := h.place.without hnew

theorem without_seed (hname : name ∉ ts) :
    (d.without ts).seed name attributes = (d.seed name attributes).without ts := by
  refine ext_entries ?_ fun n => ?_
  · rw [readOnly_without]
    exact readOnly_without d ts
  · rw [getElem?_without, getElem?_seed, getElem?_seed, getElem?_without]
    by_cases hn : name = n
    · subst hn
      rw [if_pos rfl, if_pos rfl, if_neg hname]
    · rw [if_neg hn, if_neg hn]

namespace Parked

theorem seed (h : Parked ts d) (hname : ∀ t ∈ ts, ¬ name.Within t) :
    Parked ts (d.seed name attributes) where
  distinct := h.distinct
  bound := fun t ht => mem_seed.mpr (Or.inr (h.bound t ht))
  leaf := by
    intro t ht
    rw [not_hasBelow_iff]
    intro n hn hw
    rcases mem_seed.mp hn with rfl | hn
    · exact absurd hw (hname t ht)
    · exact h.eq_of_within ht hn hw

section Moves

variable (h : Parked ts d) (closed : d.ParentClosed) (hmovable : d.Movable old new)

include h closed hmovable

/-- Nothing is parked within the target of a move. -/
theorem not_within_new {t : Name} (ht : t ∈ ts) : ¬ t.Within new :=
  fun hw => hmovable.free_within closed hw (h.bound t ht)

theorem move (hold : ∀ t ∈ ts, ¬ t.Within old) (hnew : ∀ t ∈ ts, ¬ new.Within t) :
    Parked ts (d.move old new) where
  distinct := h.distinct
  bound := by
    intro t ht
    rw [mem_move hmovable closed, Name.carry_of_not_within (h.not_within_new closed hmovable ht)]
    exact ⟨hold t ht, h.bound t ht⟩
  leaf := by
    intro t ht
    rw [not_hasBelow_iff]
    intro n hn hw
    -- what came with the move lies within the target, and that is apart from `t`
    have hout : ¬ n.Within new := fun hn' =>
      (hw.linear hn').elim (h.not_within_new closed hmovable ht) (hnew t ht)
    have hmem := ((mem_move hmovable closed).mp hn).2
    rw [Name.carry_of_not_within hout] at hmem
    exact h.eq_of_within ht hmem hw

theorem without_move (hold : ∀ t ∈ ts, ¬ old.Within t ∧ ¬ t.Within old)
    (hnew : ∀ t ∈ ts, ¬ new.Within t) :
    (d.without ts).move old new = (d.move old new).without ts := by
  have hmovable' := hmovable.without (fun t ht => (hold t ht).1) hnew
  have hsource : ∀ n, ¬ n.Within old → (n.carry new old ∈ ts ↔ n ∈ ts) := by
    intro n hn
    by_cases hw : n.Within new
    · have hcarry : (n.carry new old).Within old := Name.carry_within hw
      exact iff_of_false (fun ht => (hold _ ht).2 hcarry)
        (fun ht => h.not_within_new closed hmovable ht hw)
    · rw [Name.carry_of_not_within hw]
  refine ext_entries ?_ fun n => ?_
  · rw [readOnly_without]
    exact readOnly_without d ts
  · rw [getElem?_without, getElem?_move hmovable' (h.closed closed), getElem?_move hmovable closed,
      getElem?_without]
    by_cases hn : n.Within old
    · rw [if_pos hn, if_pos hn, ite_self]
    · rw [if_neg hn, if_neg hn]
      simp only [hsource n hn]

end Moves

/-- Of what comes within the temporary name when a leaf is moved there, only the leaf was bound. -/
private theorem eq_temporary (hleaf : d.hasBelow name = false) (hw : n.Within temporary)
    (hmem : n.carry temporary name ∈ d.entries) : n = temporary := by
  have hcarry : n.carry temporary name = name :=
    not_hasBelow_iff.mp hleaf _ hmem (Name.carry_within hw)
  have hback : (n.carry temporary name).carry name temporary = n := Name.carry_carry hw
  rw [← hback, hcarry, Name.carry_self]

section Parking

variable (h : Parked ts d) (closed : d.ParentClosed) (hmovable : d.Movable name temporary)
  (hleaf : d.hasBelow name = false)

include closed hmovable hleaf

/-- An entry that has been moved as a leaf is a leaf. -/
theorem hasBelow_move : (d.move name temporary).hasBelow temporary = false := by
  rw [not_hasBelow_iff]
  intro n hn hw
  exact eq_temporary hleaf hw ((mem_move hmovable closed).mp hn).2

/-- Parking one more entry takes it out of the directory that is read without the parked
entries, and changes nothing else there. -/
theorem without_park : (d.move name temporary).without (temporary :: ts) =
    (d.without ts).remove name := by
  refine ext_entries ?_ fun n => ?_
  · rw [readOnly_without]
    exact (readOnly_without d ts).symm
  · rw [getElem?_without, getElem?_remove, getElem?_without, getElem?_move hmovable closed]
    by_cases htemporary : n = temporary
    · subst htemporary
      rw [if_pos List.mem_cons_self, not_mem_iff_getElem?.mp hmovable.free, ite_self, ite_self]
    · by_cases hts : n ∈ ts
      · rw [if_pos (List.mem_cons_of_mem _ hts), if_pos hts, ite_self]
      · rw [if_neg (by simp [htemporary, hts]), if_neg hts]
        by_cases hname : n.Within name
        · rw [if_pos hname]
          by_cases heq : name = n
          · rw [if_pos heq]
          · have hfree : n ∉ d.entries :=
              fun hmem => heq (not_hasBelow_iff.mp hleaf n hmem hname).symm
            rw [if_neg heq, not_mem_iff_getElem?.mp hfree]
        · have hne : name ≠ n := fun heq => hname (heq ▸ Name.within_refl name)
          rw [if_neg hname, if_neg hne]
          by_cases hw : n.Within temporary
          · have hsource : n.carry temporary name ∉ d.entries :=
              fun hmem => htemporary (eq_temporary hleaf hw hmem)
            rw [not_mem_iff_getElem?.mp hsource,
              not_mem_iff_getElem?.mp (hmovable.free_within closed hw)]
          · rw [Name.carry_of_not_within hw]

include h

theorem park (hname : ∀ t ∈ ts, ¬ name.Within t)
    (apart : ∀ t ∈ ts, temporary.Within t → temporary = t) :
    Parked (temporary :: ts) (d.move name temporary) := by
  have hold : ∀ t ∈ ts, ¬ t.Within name := by
    intro t ht hw
    obtain rfl := not_hasBelow_iff.mp hleaf t (h.bound t ht) hw
    exact hname t ht (Name.within_refl t)
  have hnew : ∀ t ∈ ts, ¬ temporary.Within t := by
    intro t ht hw
    obtain rfl := apart t ht hw
    exact hmovable.free (h.bound temporary ht)
  have hmoved := h.move closed hmovable hold hnew
  refine ⟨List.nodup_cons.mpr ⟨fun ht => ?_, h.distinct⟩, ?_, ?_⟩
  · exact hmovable.free (h.bound temporary ht)
  · intro t ht
    rcases List.mem_cons.mp ht with rfl | ht
    · exact (hmovable.back closed).bound
    · exact hmoved.bound t ht
  · intro t ht
    rcases List.mem_cons.mp ht with rfl | ht
    · exact hasBelow_move closed hmovable hleaf
    · exact hmoved.leaf t ht

end Parking

end Parked

end Directory

end DirectorySaga
