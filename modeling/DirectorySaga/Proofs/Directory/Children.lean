/-
An entry has something below it when it has a child.

The child check looks at every entry and asks whether it lies below the name, at whatever depth.
What it is meant to find out is whether an entry hangs right below the name.  The two come to the
same in a closed directory: on the way up from an entry far below, the last stop before the name
is a child of it, and a closed directory has an entry at every stop
(`ParentClosed.exists_child`).  The name itself may be the root, which has a child as soon as
anything else is bound.

Removing an entry makes the same check, so it is refused just when the entry has a child, and
otherwise takes away this one entry.
-/
import DirectorySaga.Proofs.Directory.Closed

namespace DirectorySaga.Directory

variable {d : Directory} {name n : Name}

/-! ### Children -/

/-- An entry is bound right below the name. -/
def HasChild (d : Directory) (name : Name) : Prop := ∃ n ∈ d.entries, n.parent? = some name

/-- Above an entry that lies below the name, there is one right below it. -/
theorem ParentClosed.exists_child (closed : d.ParentClosed) (hn : n ∈ d.entries)
    (h : n.isBelow name = true) : ∃ leaf, name.child leaf ∈ d.entries := by
  obtain ⟨front, hne, hlevels⟩ := Name.isBelow_iff.mp h
  have hwithin : n.Within (name.child (front.getLast hne)) := by
    refine ⟨front.dropLast, ?_⟩
    show front.dropLast ++ front.getLast hne :: name.levels = n.levels
    rw [List.append_cons, List.dropLast_concat_getLast hne, hlevels]
  have hroot : name.child (front.getLast hne) ≠ .root := by
    simp [Name.child, Name.root]
  exact ⟨front.getLast hne, closed.mem_of_within hn hwithin hroot⟩

theorem hasChild_iff : d.HasChild name ↔ ∃ leaf, name.child leaf ∈ d.entries := by
  constructor
  · rintro ⟨n, hn, hparent⟩
    obtain ⟨leaf, rfl⟩ := Name.parent?_eq_some_iff.mp hparent
    exact ⟨leaf, hn⟩
  · rintro ⟨leaf, hchild⟩
    exact ⟨name.child leaf, hchild, Name.parent?_child name leaf⟩

/-- **Something lies below a name when something lies right below it.** -/
theorem ParentClosed.hasBelow_iff_hasChild (closed : d.ParentClosed) :
    d.hasBelow name = true ↔ d.HasChild name := by
  rw [hasBelow_iff, hasChild_iff]
  constructor
  · rintro ⟨n, hn, hbelow⟩
    exact closed.exists_child hn hbelow
  · rintro ⟨leaf, hchild⟩
    exact ⟨name.child leaf, hchild, Name.isBelow_child.mpr (Name.within_refl name)⟩

/-! ### The check -/

theorem hasChildren_of_mem (hname : name ∈ d.entries) :
    d.hasChildren name = .ok (d.hasBelow name) := by
  rw [hasChildren, if_pos (contains_iff.mpr hname)]

theorem unbind_of_mem (hname : name ∈ d.entries) :
    d.unbind name =
      if d.hasBelow name then .error (.notEmpty name) else .ok (d.remove name) := by
  rw [unbind_eq, if_neg (not_not_intro (contains_iff.mpr hname))]

/--
**The child check means what it says.**  In a closed directory a bound name is said to have
children just when some entry has it as its parent.  In the same cases the entry is not removed,
because the name is not empty.  Otherwise it is removed, and then every other name has the entry
that it had before, and the directory is closed again.
-/
theorem hasChildren_truthful (closed : d.ParentClosed) (hname : name ∈ d.entries) :
    (d.hasChildren name = .ok true ↔ d.HasChild name) ∧
    (d.hasChildren name = .ok false ↔ ¬ d.HasChild name) ∧
    (d.unbind name = .error (.notEmpty name) ↔ d.HasChild name) ∧
    (¬ d.HasChild name → ∃ d', d.unbind name = .ok d' ∧ d'.ParentClosed ∧
      d'.readOnly = d.readOnly ∧ d'.size + 1 = d.size ∧
      ∀ n : Name, d'.entries[n]? = if name = n then none else d.entries[n]?) := by
  have hcheck : d.hasBelow name = true ↔ d.HasChild name := closed.hasBelow_iff_hasChild
  rw [hasChildren_of_mem hname, unbind_of_mem hname, ← hcheck]
  by_cases hbelow : d.hasBelow name = true
  · simp [hbelow]
  · have hleaf : d.hasBelow name = false := by simpa using hbelow
    simp only [hleaf]
    refine ⟨by simp, by simp, by simp, fun _ => ⟨d.remove name, by simp, ?_⟩⟩
    exact ⟨closed.remove hleaf, rfl, size_remove hname, getElem?_remove d name⟩

/-- The root is bound above a unit with a person in it: the root has the unit below it and
stays, and the person is removed. -/
theorem hasChildren_truthful_staffed :
    let d := staffed.seed .root .empty
    let ann := (Name.unit "people").member "ann"
    d.ParentClosed ∧ Name.root ∈ d.entries ∧ ann ∈ d.entries ∧
      d.hasChildren .root = .ok true ∧ d.unbind .root = .error (.notEmpty .root) ∧
      d.hasChildren ann = .ok false ∧
      ∃ d', d.unbind ann = .ok d' ∧ d'.ParentClosed ∧ d'.readOnly = d.readOnly ∧
        d'.size + 1 = d.size ∧
        ∀ n : Name, d'.entries[n]? = if ann = n then none else d.entries[n]? := by
  intro d ann
  have closed : d.ParentClosed := by
    intro n hn parent hp hroot
    rcases mem_seed.mp hn with rfl | hn
    · simp [Name.parent?, Name.root] at hp
    · exact mem_seed.mpr (Or.inr (staffed_closed n hn parent hp hroot))
  have hroot : Name.root ∈ d.entries := mem_seed.mpr (Or.inl rfl)
  have hann : ann ∈ d.entries := mem_seed.mpr (Or.inr (mem_seed.mpr (Or.inl rfl)))
  have hunit : d.HasChild .root :=
    ⟨.unit "people", mem_seed.mpr (Or.inr (mem_seed.mpr (Or.inr (mem_seed.mpr (Or.inl rfl))))), rfl⟩
  obtain ⟨hyes, -, hrefused, -⟩ := hasChildren_truthful closed hroot
  obtain ⟨-, hno, -, hremoved⟩ := hasChildren_truthful closed hann
  have halone : ¬ d.HasChild ann := by
    rw [← closed.hasBelow_iff_hasChild]
    decide +kernel
  exact ⟨closed, hroot, hann, hyes.mpr hunit, hrefused.mpr hunit, hno.mpr halone, hremoved halone⟩

end DirectorySaga.Directory
