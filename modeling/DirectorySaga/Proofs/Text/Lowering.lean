/-
Lower-casing settles a text.

What has been lower-cased once is not changed by lower-casing it again, and a type that has
been trimmed and lower-cased is in the form in which types are compared.  The first part of
this needs the table of case runs: no small form is a capital itself.  The table is checked
for this run by run, and only where the code points of two runs overlap is one letter
compared with another.

The same check says what small forms are not: no small form is white space, and none stands
before the small letters of ASCII, where the marks are that structure a name.  So whatever
white space or mark a lower-cased text holds, it held before.
-/
import Mathlib.Data.Bool.AllAny
import DirectorySaga.Proofs.Text.Trimming
import DirectorySaga.Text.Lower

namespace DirectorySaga.Text

/-! ### The table -/

/-- The largest small form of the run. -/
def CaseRun.largest (run : CaseRun) : Nat := run.small + (run.last - run.first)

/-- No small form of the run is a capital of the other one. -/
def CaseRun.clearOf (run other : CaseRun) : Bool :=
  Nat.blt run.largest other.first || Nat.blt other.last run.small ||
    (List.range (run.last - run.first + 1)).all fun i =>
      i % run.step != 0 || (other.small? (run.small + i)).isNone

/-- The small forms of the run are characters from the small a on, none of them white space
and none the dotted capital. -/
def CaseRun.ordinary (run : CaseRun) : Bool :=
  0x61 ≤ run.small &&
    (blankSpans.all fun span => Nat.blt run.largest span.first || Nat.blt span.last run.small) &&
    (run.largest < 0x130 || 0x130 < run.small) &&
    (run.largest < 0xD800 || 0xDFFF < run.small && run.largest < 0x110000)

theorem caseRuns_clear : (caseRuns.all fun run => caseRuns.all run.clearOf) = true := by
  decide +kernel

theorem caseRuns_ordinary : caseRuns.all CaseRun.ordinary = true := by
  decide +kernel

theorem CaseRun.small?_eq_some_iff {run : CaseRun} {n m : Nat} :
    run.small? n = some m ↔
      run.first ≤ n ∧ n ≤ run.last ∧ (n - run.first) % run.step = 0 ∧
        m = run.small + (n - run.first) := by
  unfold small?
  split
  · next h => simp [h, eq_comm]
  · next h =>
    simp only [reduceCtorEq, false_iff]
    intro ⟨hfirst, hlast, hstep, _⟩
    exact h ⟨hfirst, hlast, hstep⟩

/-- No small form is a capital. -/
theorem small?_small {run other : CaseRun} (hrun : run ∈ caseRuns) (hother : other ∈ caseRuns)
    {n m : Nat} (h : run.small? n = some m) : other.small? m = none := by
  obtain ⟨hfirst, hlast, hstep, hm⟩ := CaseRun.small?_eq_some_iff.mp h
  have hclear : run.clearOf other = true :=
    List.all_eq_true.mp (List.all_eq_true.mp caseRuns_clear run hrun) other hother
  simp only [CaseRun.clearOf, Bool.or_eq_true, Nat.blt_eq, CaseRun.largest, List.all_eq_true,
    List.mem_range, bne_iff_ne, Option.isNone_iff_eq_none] at hclear
  rw [← Option.not_isSome_iff_eq_none, Option.isSome_iff_exists]
  intro ⟨k, hk⟩
  obtain ⟨hfirst', hlast', -, -⟩ := CaseRun.small?_eq_some_iff.mp hk
  obtain (hbelow | habove) | hbetween := hclear
  · omega
  · omega
  · have := hbetween (n - run.first) (by omega)
    rw [← hm, hk] at this
    simp [hstep] at this

/-! ### Letters -/

/-- The character is its own small form, wherever it stands. -/
structure Settled (c : Char) : Prop where
  not_sigma : c ≠ 'Σ'
  not_dotted : c ≠ 'İ'
  small : lowerChar c = c

/-- The character is not white space, and none of the characters before the small letters. -/
structure Ordinary (c : Char) : Prop where
  not_blank : isBlank c = false
  letter : 0x61 ≤ c.toNat

theorem lowerChar_of_not_capital {c : Char}
    (h : caseRuns.findSome? (·.small? c.toNat) = none) : lowerChar c = c := by
  unfold lowerChar
  rw [h]

theorem lowerChar_of_capital {c : Char} {m : Nat}
    (h : caseRuns.findSome? (·.small? c.toNat) = some m) : lowerChar c = Char.ofNat m := by
  unfold lowerChar
  rw [h]

theorem not_sigma_of_not_capital {c : Char}
    (h : caseRuns.findSome? (·.small? c.toNat) = none) : c ≠ 'Σ' := by
  have hsigma : caseRuns.findSome? (·.small? 'Σ'.toNat) = some 'σ'.toNat := by decide +kernel
  intro hc
  rw [hc, hsigma] at h
  cases h

/-- What a capital of the table becomes. -/
theorem ofNat_small {run : CaseRun} (hrun : run ∈ caseRuns) {n m : Nat}
    (h : run.small? n = some m) : Settled (Char.ofNat m) ∧ Ordinary (Char.ofNat m) := by
  have hkept : caseRuns.findSome? (·.small? m) = none := by
    rw [List.findSome?_eq_none_iff]
    intro other hother
    exact small?_small hrun hother h
  have hordinary := List.all_eq_true.mp caseRuns_ordinary run hrun
  obtain ⟨hfirst, hlast, -, hm⟩ := CaseRun.small?_eq_some_iff.mp h
  simp only [CaseRun.ordinary, Bool.and_eq_true, Bool.or_eq_true, decide_eq_true_iff,
    List.all_eq_true, Nat.blt_eq] at hordinary
  simp only [CaseRun.largest] at hordinary
  obtain ⟨⟨⟨hletter, hblank⟩, hdotted⟩, hscalar⟩ := hordinary
  have hvalid : m.isValidChar := by
    unfold Nat.isValidChar
    omega
  have hnat : (Char.ofNat m).toNat = m := by
    rw [Char.ofNat, dif_pos hvalid]
    rfl
  have hnone : caseRuns.findSome? (·.small? (Char.ofNat m).toNat) = none := by rw [hnat, hkept]
  refine ⟨⟨not_sigma_of_not_capital hnone, ?_, lowerChar_of_not_capital hnone⟩, ?_, ?_⟩
  · intro hc
    have hcode : (Char.ofNat m).toNat = 0x130 := by rw [hc]; rfl
    omega
  · unfold isBlank
    rw [List.any_eq_false]
    intro span hspan
    have := hblank span hspan
    simp only [Span.holds, hnat, Bool.and_eq_true, decide_eq_true_iff]
    omega
  · omega

theorem lowerChar_spec {c : Char} (h : c ≠ 'İ') :
    Settled (lowerChar c) ∧ (lowerChar c = c ∨ Ordinary (lowerChar c)) := by
  cases hfound : caseRuns.findSome? (·.small? c.toNat) with
  | none =>
    have hc := lowerChar_of_not_capital hfound
    rw [hc]
    exact ⟨⟨not_sigma_of_not_capital hfound, h, hc⟩, Or.inl rfl⟩
  | some m =>
    obtain ⟨run, hrun, hsmall⟩ := List.exists_of_findSome?_eq_some hfound
    obtain ⟨hsettled, hordinary⟩ := ofNat_small hrun hsmall
    rw [lowerChar_of_capital hfound]
    exact ⟨hsettled, Or.inr hordinary⟩

/-- What a character becomes in a word. -/
theorem lowerBetween_spec (before : List Char) (c : Char) (after : List Char) :
    lowerBetween before c after ≠ [] ∧
      ∀ d ∈ lowerBetween before c after, Settled d ∧ (d = c ∨ Ordinary d) := by
  have hspecial : ∀ d ∈ ['ς', 'σ', 'i', '\u0307'], Settled d ∧ Ordinary d := by
    have hcheck : ∀ d ∈ ['ς', 'σ', 'i', '\u0307'], (d ≠ 'Σ' ∧ d ≠ 'İ' ∧ lowerChar d = d) ∧
        isBlank d = false ∧ 0x61 ≤ d.toNat :=
      List.all_iff_forall_prop.mp (by decide +kernel)
    intro d hd
    obtain ⟨⟨hsigma, hdotted, hsmall⟩, hblank, hletter⟩ := hcheck d hd
    exact ⟨⟨hsigma, hdotted, hsmall⟩, hblank, hletter⟩
  have hmem : ∀ ds ⊆ ['ς', 'σ', 'i', '\u0307'], ∀ d ∈ ds, Settled d ∧ (d = c ∨ Ordinary d) := by
    intro ds hds d hd
    obtain ⟨hsettled, hordinary⟩ := hspecial d (hds hd)
    exact ⟨hsettled, Or.inr hordinary⟩
  unfold lowerBetween
  split
  · split
    · exact ⟨by simp, hmem _ (by simp)⟩
    · exact ⟨by simp, hmem _ (by simp)⟩
  · split
    · exact ⟨by simp, hmem _ (by simp)⟩
    · next hdotted =>
      refine ⟨by simp, ?_⟩
      intro d hd
      rw [List.mem_singleton.mp hd]
      exact lowerChar_spec hdotted

/-! ### Texts -/

variable {before cs : List Char}

theorem lowerAfter_ne_nil (h : cs ≠ []) : lowerAfter before cs ≠ [] := by
  cases cs with
  | nil => exact absurd rfl h
  | cons c after =>
    rw [lowerAfter, ← List.length_pos_iff, List.length_append]
    have := List.length_pos_iff.mpr (lowerBetween_spec before c after).1
    omega

theorem lowerAfter_spec : ∀ d ∈ lowerAfter before cs, Settled d ∧ (d ∈ cs ∨ Ordinary d) := by
  induction cs generalizing before with
  | nil => simp [lowerAfter]
  | cons c after ih =>
    intro d hd
    rw [lowerAfter, List.mem_append] at hd
    rcases hd with hd | hd
    · obtain ⟨hsettled, hd⟩ := (lowerBetween_spec before c after).2 d hd
      exact ⟨hsettled, hd.imp_left fun h => by simp [h]⟩
    · obtain ⟨hsettled, hd⟩ := ih d hd
      exact ⟨hsettled, hd.imp_left fun h => by simp [h]⟩

/-- A text that has settled stays as it is. -/
theorem lowerAfter_settled (h : ∀ c ∈ cs, Settled c) : lowerAfter before cs = cs := by
  induction cs generalizing before with
  | nil => rfl
  | cons c after ih =>
    obtain ⟨hc, hafter⟩ := List.forall_mem_cons.mp h
    rw [lowerAfter, ih hafter]
    unfold lowerBetween
    rw [if_neg hc.not_sigma, if_neg hc.not_dotted, hc.small]
    rfl

theorem lowerAfter_getLast? :
    ∀ d ∈ (lowerAfter before cs).getLast?, ∃ c ∈ cs.getLast?, d = c ∨ Ordinary d := by
  induction cs generalizing before with
  | nil => simp [lowerAfter]
  | cons c after ih =>
    intro d hd
    rw [lowerAfter] at hd
    by_cases hafter : after = []
    · subst hafter
      rw [lowerAfter, List.append_nil] at hd
      have hmem := List.mem_of_getLast? hd
      exact ⟨c, rfl, ((lowerBetween_spec before c []).2 d hmem).2⟩
    · rw [List.getLast?_append_of_ne_nil _ (lowerAfter_ne_nil hafter)] at hd
      obtain ⟨e, he, hd⟩ := ih d hd
      refine ⟨e, ?_, hd⟩
      rw [← List.singleton_append, List.getLast?_append_of_ne_nil _ hafter]
      exact he

/-- Lower-casing puts no white space at the ends. -/
theorem lowerAfter_bare (h : Bare isBlank cs) : Bare isBlank (lowerAfter before cs) := by
  constructor
  · intro d hd
    cases cs with
    | nil => simp [lowerAfter] at hd
    | cons c after =>
      obtain ⟨hne, hspec⟩ := lowerBetween_spec before c after
      rw [lowerAfter, List.head?_append_of_ne_nil _ hne] at hd
      obtain rfl | hordinary := (hspec d (List.mem_of_mem_head? hd)).2
      · exact h.head d rfl
      · exact hordinary.not_blank
  · intro d hd
    obtain ⟨c, hc, rfl | hordinary⟩ := lowerAfter_getLast? d hd
    · exact h.last d hc
    · exact hordinary.not_blank

theorem toList_lower (s : String) : (lower s).toList = lowerAfter [] s.toList :=
  String.toList_ofList

theorem toList_trim (s : String) : (trim s).toList = trimEnds isBlank s.toList :=
  String.toList_ofList

theorem bare_lower_trim (s : String) : Bare isBlank (lower (trim s)).toList := by
  rw [toList_lower, toList_trim]
  exact lowerAfter_bare (bare_trimEnds isBlank s.toList)

/-- **Trimming and lower-casing settle a text.** -/
theorem lower_trim_lower_trim (s : String) : lower (trim (lower (trim s))) = lower (trim s) := by
  have htrim : trim (lower (trim s)) = lower (trim s) := by
    rw [trim, trimChars_eq, (bare_lower_trim s).trimEnds_eq, String.ofList_toList]
  have hsettled : ∀ c ∈ (lower (trim s)).toList, Settled c := by
    intro c hc
    rw [toList_lower] at hc
    exact (lowerAfter_spec c hc).1
  rw [htrim]
  conv_lhs => rw [lower, lowerAfter_settled hsettled, String.ofList_toList]

theorem lower_trim_eq_empty_iff {s : String} :
    lower (trim s) = "" ↔ ∀ c ∈ s.toList, isBlank c = true := by
  rw [← trimEnds_eq_nil_iff, ← toList_trim, ← String.toList_eq_nil_iff, toList_lower]
  constructor
  · intro h
    by_contra hne
    exact lowerAfter_ne_nil hne h
  · intro h
    rw [h]
    rfl

/-- A character that is no ordinary one is in a lower-cased text only if it was there before. -/
theorem mem_of_mem_lower_trim {s : String} {c : Char} (h : c ∈ (lower (trim s)).toList)
    (hc : c.toNat < 0x61) : c ∈ s.toList := by
  rw [toList_lower] at h
  obtain ⟨-, hmem | hordinary⟩ := lowerAfter_spec c h
  · rw [toList_trim] at hmem
    exact mem_of_mem_trimEnds hmem
  · exact absurd hordinary.letter (by omega)

end DirectorySaga.Text
