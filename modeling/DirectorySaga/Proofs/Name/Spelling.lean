/-
The ways to write a name.

The grammar says what a text names.  This module starts from the other end, from a name,
and says in how many ways it may be written.  A character of a value stands for itself, or
stands behind a backslash, or is written byte by byte in hexadecimal digits; a type may be
written in capitals and with white space around it; and spaces may follow an equals sign
and a value.

Whoever writes has a choice in each place, and no choice depends on another, with one
exception.  The end of the text is trimmed before it is read, so white space at the end of
the last value would be lost, and a backslash does not hold it: only in hexadecimal digits
is it safe.  All these texts are read as the name they were written for (`read_spelled`).
-/
import DirectorySaga.Proofs.Name.Grammar
import DirectorySaga.Proofs.Text.Lowering

namespace DirectorySaga

/-! ### Characters -/

theorem Text.not_isBlank_of_hexDigit {c : Char} {n : Nat} (h : hexDigit? c = some n) :
    isBlank c = false := by
  have hrange : 0x30 ≤ c.toNat ∧ c.toNat ≤ 0x66 := by
    simp only [hexDigit?, Char.le_def, UInt32.le_iff_toNat_le] at h
    show 0x30 ≤ c.val.toNat ∧ c.val.toNat ≤ 0x66
    split at h
    · next hc => exact ⟨hc.1, hc.2.trans (by decide)⟩
    · split at h
      · next hc => exact ⟨le_trans (by decide) hc.1, hc.2⟩
      · split at h
        · next hc => exact ⟨le_trans (by decide) hc.1, hc.2.trans (by decide)⟩
        · cases h
  have hspans : ∀ span ∈ blankSpans, span.last < 0x30 ∨ 0x66 < span.first := by decide
  unfold isBlank
  rw [List.any_eq_false]
  intro span hspan
  have := hspans span hspan
  simp only [Span.holds, Bool.and_eq_true, decide_eq_true_iff]
  omega

/-- How a character of a value is written. -/
inductive Spelling
  /-- The character itself. -/
  | raw
  /-- The character behind a backslash. -/
  | guarded
  /-- Two hexadecimal digits behind a backslash for each byte. -/
  | hex (digits : List (Char × Char))
deriving DecidableEq

namespace Spelling

/-- What is written for the character. -/
def chars (c : Char) : Spelling → List Char
  | raw => [c]
  | guarded => ['\\', c]
  | hex digits => digits.flatMap fun pair => ['\\', pair.1, pair.2]

/-- What the reader makes of it. -/
def pieces (c : Char) : Spelling → List Piece
  | raw => [.plain c]
  | guarded => [.guarded c]
  | hex _ => (String.utf8EncodeChar c).map .byte

/-- The character may be written so. -/
def Fits (c : Char) : Spelling → Prop
  | raw => c ∉ Piece.marks
  | guarded => Text.hexDigit? c = none
  | hex digits =>
    digits.map (fun pair => Piece.ofHex? pair.1 pair.2) = (String.utf8EncodeChar c).map some

instance (c : Char) : DecidablePred (Fits c)
  | raw => inferInstanceAs (Decidable (c ∉ Piece.marks))
  | guarded => inferInstanceAs (Decidable (Text.hexDigit? c = none))
  | hex digits => inferInstanceAs (Decidable
    (digits.map (fun pair => Piece.ofHex? pair.1 pair.2) = (String.utf8EncodeChar c).map some))

variable {c : Char} {spelling : Spelling} {rest : List Char} {pieces : List Piece}

theorem Fits.written (h : Fits c spelling) (more : Piece.Written rest pieces) :
    Piece.Written (spelling.chars c ++ rest) (spelling.pieces c ++ pieces) := by
  cases spelling with
  | raw => exact .plain h more
  | guarded =>
    have hdigit : Text.hexDigit? c = none := h
    refine .guarded ?_ more
    intro d _
    unfold Piece.ofHex?
    rw [hdigit]
  | hex digits =>
    have hbytes : digits.map _ = (String.utf8EncodeChar c).map some := h
    unfold chars Spelling.pieces
    clear h
    generalize String.utf8EncodeChar c = bs at hbytes
    induction digits generalizing bs with
    | nil =>
      cases bs with
      | nil => exact more
      | cons b bs => cases hbytes
    | cons pair digits ih =>
      cases bs with
      | nil => cases hbytes
      | cons b bs =>
        obtain ⟨hb, hbs⟩ := List.cons.inj hbytes
        exact .byte hb (ih bs hbs)

theorem bytes_pieces (c : Char) (spelling : Spelling) :
    (spelling.pieces c).flatMap Piece.bytes = String.utf8EncodeChar c := by
  cases spelling with
  | raw => simp [Spelling.pieces, Piece.bytes]
  | guarded => simp [Spelling.pieces, Piece.bytes]
  | hex digits =>
    unfold Spelling.pieces
    rw [List.flatMap_map]
    exact List.flatMap_singleton' _

theorem pieces_ne_nil (c : Char) (spelling : Spelling) : spelling.pieces c ≠ [] := by
  cases spelling <;> simp [Spelling.pieces, String.utf8EncodeChar_ne_nil]

/-- The pieces are a plain space only for a space that stands for itself. -/
theorem not_isSpace (h : (c, spelling) ≠ (' ', raw)) :
    ∀ piece ∈ spelling.pieces c, piece.isSpace = false := by
  cases spelling with
  | raw => simpa [Spelling.pieces, Piece.isSpace] using h
  | guarded => simp [Spelling.pieces, Piece.isSpace]
  | hex digits => simp [Spelling.pieces, Piece.isSpace]

/-- White space is not the last character that is written, unless the character itself is
white space and stands there as such. -/
theorem Fits.chars_getLast? (h : Fits c spelling)
    (hblank : Text.isBlank c = true → ∃ digits, spelling = .hex digits) :
    ∃ d, (spelling.chars c).getLast? = some d ∧ Text.isBlank d = false := by
  cases spelling with
  | raw =>
    refine ⟨c, rfl, ?_⟩
    by_contra hc
    obtain ⟨digits, hdigits⟩ := hblank (by simpa using hc)
    cases hdigits
  | guarded =>
    refine ⟨c, rfl, ?_⟩
    by_contra hc
    obtain ⟨digits, hdigits⟩ := hblank (by simpa using hc)
    cases hdigits
  | hex digits =>
    have hbytes : digits.map _ = (String.utf8EncodeChar c).map some := h
    obtain rfl | ⟨init, pair, rfl⟩ := List.eq_nil_or_concat' digits
    · have hnil : String.utf8EncodeChar c = [] := by simpa using hbytes.symm
      exact absurd hnil String.utf8EncodeChar_ne_nil
    · have hpair : Piece.ofHex? pair.1 pair.2 ∈ (String.utf8EncodeChar c).map some := by
        rw [← hbytes]
        simp
      obtain ⟨b, -, hb⟩ := List.mem_map.mp hpair
      obtain ⟨_, l, -, hlow, -⟩ := Piece.ofHex?_eq_some_iff.mp hb.symm
      refine ⟨pair.2, ?_, Text.not_isBlank_of_hexDigit hlow⟩
      simp [chars, List.getLast?_append]

end Spelling

/-! ### Values -/

/-- A value, character by character, and how each of them is written.  A space that stands
for itself would be lost at either end. -/
structure SpelledValue where
  parts : List (Char × Spelling)
  fits : ∀ part ∈ parts, Spelling.Fits part.1 part.2
  head : parts.head? ≠ some (' ', .raw)
  last : parts.getLast? ≠ some (' ', .raw)

namespace SpelledValue

variable {v : SpelledValue}

/-- The value that is written. -/
def value (v : SpelledValue) : String := String.ofList (v.parts.map (·.1))

/-- What is written. -/
def chars (v : SpelledValue) : List Char := v.parts.flatMap fun part => part.2.chars part.1

/-- What the reader makes of it. -/
def pieces (v : SpelledValue) : List Piece := v.parts.flatMap fun part => part.2.pieces part.1

/-- White space at the end of the value is written in hexadecimal digits. -/
def Solid (v : SpelledValue) : Prop :=
  ∀ part ∈ v.parts.getLast?, Text.isBlank part.1 = true → ∃ digits, part.2 = .hex digits

theorem written {rest : List Char} {pieces : List Piece} (more : Piece.Written rest pieces) :
    Piece.Written (v.chars ++ rest) (v.pieces ++ pieces) := by
  unfold chars SpelledValue.pieces
  have hfits := v.fits
  generalize v.parts = parts at hfits
  induction parts with
  | nil => exact more
  | cons part parts ih =>
    obtain ⟨hpart, hparts⟩ := List.forall_mem_cons.mp hfits
    rw [List.flatMap_cons, List.flatMap_cons, List.append_assoc, List.append_assoc]
    exact hpart.written (ih hparts)

theorem bytes : v.pieces.flatMap Piece.bytes = v.value.toList.flatMap String.utf8EncodeChar := by
  unfold SpelledValue.pieces value
  rw [String.toList_ofList, List.flatMap_map, List.flatMap_assoc]
  exact congrArg (v.parts.flatMap ·) (funext fun part => Spelling.bytes_pieces part.1 part.2)

theorem bare : Text.Bare Piece.isSpace v.pieces := by
  unfold SpelledValue.pieces
  constructor
  · have hhead := v.head
    cases hparts : v.parts with
    | nil => simp
    | cons part parts =>
      rw [hparts, List.head?_cons] at hhead
      intro piece hpiece
      rw [List.flatMap_cons, List.head?_append_of_ne_nil _ (Spelling.pieces_ne_nil _ _)] at hpiece
      exact Spelling.not_isSpace (fun h => hhead (congrArg some h)) piece
        (List.mem_of_mem_head? hpiece)
  · have hlast := v.last
    obtain hparts | ⟨init, part, hparts⟩ := List.eq_nil_or_concat' v.parts
    · simp [hparts]
    · rw [hparts, List.getLast?_concat] at hlast
      intro piece hpiece
      rw [hparts, List.flatMap_append, List.flatMap_singleton,
        List.getLast?_append_of_ne_nil _ (Spelling.pieces_ne_nil _ _)] at hpiece
      exact Spelling.not_isSpace (fun h => hlast (congrArg some h)) piece
        (List.mem_of_getLast? hpiece)

theorem chars_getLast? (solid : v.Solid) (h : v.parts ≠ []) :
    ∃ d, v.chars.getLast? = some d ∧ Text.isBlank d = false := by
  obtain hparts | ⟨init, part, hparts⟩ := List.eq_nil_or_concat' v.parts
  · exact absurd hparts h
  · have hpart : part ∈ v.parts := by simp [hparts]
    obtain ⟨d, hd, hblank⟩ := (v.fits part hpart).chars_getLast? (solid part (by simp [hparts]))
    refine ⟨d, ?_, hblank⟩
    unfold chars
    rw [hparts, List.flatMap_append, List.flatMap_singleton, List.getLast?_append, hd]
    rfl

end SpelledValue

/-! ### Components -/

/-- A component and how it is written: its type as it stands, and the spaces on both sides of
its value. -/
structure SpelledComponent where
  key : List Char
  before : Nat
  value : SpelledValue
  after : Nat

namespace SpelledComponent

variable {s : SpelledComponent} {c : Component}

/-- What is written. -/
def chars (s : SpelledComponent) : List Char :=
  s.key ++ '=' :: (List.replicate s.before ' ' ++ s.value.chars ++ List.replicate s.after ' ')

/-- The component is written so. -/
structure Spells (s : SpelledComponent) (c : Component) : Prop where
  free : ∀ a ∈ s.key, a ∉ '=' :: Piece.marks
  key : Text.lower (Text.trim (String.ofList s.key)) = c.key
  value : s.value.value = c.value

/-- Spaces in front of pieces are pieces themselves. -/
theorem written_spaces (n : Nat) {rest : List Char} {pieces : List Piece}
    (more : Piece.Written rest pieces) :
    Piece.Written (List.replicate n ' ' ++ rest) (List.replicate n (.plain ' ') ++ pieces) := by
  induction n with
  | zero => exact more
  | succ n ih => exact .plain (by decide) ih

theorem Spells.named (h : s.Spells c) (hkey : c.key ≠ "") :
    ∃ a ∈ s.key, Text.isBlank a = false := by
  rw [← h.key, Ne, Text.lower_trim_eq_empty_iff] at hkey
  simpa using hkey

theorem Spells.written (h : s.Spells c) (hkey : c.key ≠ "") : c.Written s.chars := by
  have hafter :
      Piece.Written (List.replicate s.after ' ') (List.replicate s.after (.plain ' ')) := by
    have := written_spaces s.after .nil
    simpa using this
  have hspelled := written_spaces s.before (s.value.written hafter)
  have hdenoted : Piece.Denote (List.replicate s.before (.plain ' ') ++ s.value.pieces ++
      List.replicate s.after (.plain ' ')) s.value.value :=
    .intro (by simp [Piece.isSpace]) (by simp [Piece.isSpace]) s.value.bare s.value.bytes
  rw [List.append_assoc] at hdenoted
  have hwritten := Component.Written.intro h.free (h.named hkey) hspelled hdenoted
  rw [h.key, h.value] at hwritten
  unfold chars
  rwa [List.append_assoc (List.replicate s.before ' ')]

/-- The component written without white space in front of it. -/
def trimmed (s : SpelledComponent) : SpelledComponent :=
  { s with key := s.key.dropWhile Text.isBlank }

theorem chars_eq_trimmed (s : SpelledComponent) :
    s.chars = s.key.takeWhile Text.isBlank ++ s.trimmed.chars := by
  unfold chars trimmed
  rw [← List.append_assoc, List.takeWhile_append_dropWhile]

theorem Spells.trimmed (h : s.Spells c) : s.trimmed.Spells c where
  free a ha := h.free a ((List.dropWhile_sublist _).subset ha)
  key := by
    rw [← h.key, Text.trim, Text.trim, String.toList_ofList, String.toList_ofList, Text.trimChars,
      Text.trimChars]
    unfold SpelledComponent.trimmed
    rw [List.dropWhile_idempotent]
  value := h.value

theorem trimmed_head? (h : ∃ a ∈ s.key, Text.isBlank a = false) :
    ∃ d, s.trimmed.chars.head? = some d ∧ Text.isBlank d = false := by
  have hhead := List.head?_dropWhile_not Text.isBlank s.key
  cases hkey : s.key.dropWhile Text.isBlank with
  | nil =>
    obtain ⟨a, ha, hblank⟩ := h
    rw [List.dropWhile_eq_nil_iff] at hkey
    simp [hkey a ha] at hblank
  | cons d rest =>
    rw [hkey] at hhead
    refine ⟨d, ?_, hhead⟩
    unfold chars SpelledComponent.trimmed
    rw [hkey]
    rfl

/-- At the end of a text the spaces behind the last component are not read. -/
theorem Spells.exists_shorter (h : s.Spells c) (solid : s.value.Solid) :
    ∃ shorter : SpelledComponent, ∃ back, s.chars = shorter.chars ++ back ∧
      (∀ a ∈ back, Text.isBlank a = true) ∧ shorter.Spells c ∧ shorter.value.Solid ∧
      ∃ d, shorter.chars.getLast? = some d ∧ Text.isBlank d = false := by
  have hspace : Text.isBlank ' ' = true := by decide
  by_cases hparts : s.value.parts = []
  · have hchars : s.value.chars = [] := by simp [SpelledValue.chars, hparts]
    refine ⟨{ s with before := 0, after := 0 },
      List.replicate s.before ' ' ++ List.replicate s.after ' ', ?_, ?_, ⟨h.free, h.key, h.value⟩,
      solid, '=', ?_, by decide⟩
    · simp [chars, hchars]
    · intro a ha
      simp only [List.mem_append, List.mem_replicate] at ha
      obtain ⟨-, rfl⟩ | ⟨-, rfl⟩ := ha
      · exact hspace
      · exact hspace
    · simp [chars, hchars]
  · obtain ⟨d, hd, hblank⟩ := SpelledValue.chars_getLast? solid hparts
    refine ⟨{ s with after := 0 }, List.replicate s.after ' ', ?_, ?_, ⟨h.free, h.key, h.value⟩,
      solid, d, ?_, hblank⟩
    · simp [chars]
    · intro a ha
      rw [List.eq_of_mem_replicate ha]
      exact hspace
    · unfold chars
      rw [List.replicate_zero, List.append_nil, ← List.cons_append, ← List.append_assoc,
        List.getLast?_append, hd]
      rfl

end SpelledComponent

/-! ### Names -/

namespace Name

/-- The text is one in which the levels may be written. -/
inductive Spelled : List Rdn → List Char → Prop
  /-- White space at the end of the text is trimmed, so the last value must not end with any. -/
  | last {s : SpelledComponent} {c : Component} (spells : s.Spells c) (solid : s.value.Solid) :
      Spelled [.single c] s.chars
  | joined {s : SpelledComponent} {c d : Component} {others : List Component} {above : List Rdn}
      {text : List Char} (spells : s.Spells c) (more : Spelled (⟨d, others⟩ :: above) text) :
      Spelled (⟨c, d :: others⟩ :: above) (s.chars ++ '+' :: text)
  | level {s : SpelledComponent} {c : Component} {above : List Rdn} {text : List Char}
      {separator : Char} (ends : separator = ',' ∨ separator = ';') (spells : s.Spells c)
      (more : Spelled above text) : Spelled (.single c :: above) (s.chars ++ separator :: text)

/-- Every component of the levels has a type. -/
def Typed (levels : List Rdn) : Prop := ∀ level ∈ levels, ∀ c ∈ level.components, c.key ≠ ""

variable {levels : List Rdn} {text : List Char}

theorem Spelled.written (h : Spelled levels text) (typed : Typed levels) : Written text levels := by
  induction h with
  | last spells solid =>
    have hkey := typed _ List.mem_cons_self _ List.mem_cons_self
    exact .last (spells.written hkey)
  | joined spells more ih =>
    obtain ⟨hlevel, habove⟩ := List.forall_mem_cons.mp typed
    obtain ⟨hkey, hothers⟩ := List.forall_mem_cons.mp hlevel
    exact .joined (spells.written hkey) (ih (List.forall_mem_cons.mpr ⟨hothers, habove⟩))
  | level ends spells more ih =>
    obtain ⟨hlevel, habove⟩ := List.forall_mem_cons.mp typed
    exact .level ends (spells.written (hlevel _ List.mem_cons_self)) (ih habove)

/-- White space at the end of the text is not needed. -/
theorem Spelled.exists_shorter (h : Spelled levels text) :
    ∃ core back, text = core ++ back ∧ (∀ a ∈ back, Text.isBlank a = true) ∧ Spelled levels core ∧
      ∃ d, core.getLast? = some d ∧ Text.isBlank d = false := by
  induction h with
  | last spells solid =>
    obtain ⟨shorter, back, hchars, hback, hspells, hsolid, hlast⟩ := spells.exists_shorter solid
    exact ⟨shorter.chars, back, hchars, hback, .last hspells hsolid, hlast⟩
  | @joined s c d others above text spells more ih =>
    obtain ⟨core, back, htext, hback, hcore, a, ha, hblank⟩ := ih
    refine ⟨s.chars ++ '+' :: core, back, by simp [htext], hback, .joined spells hcore, a, ?_,
      hblank⟩
    rw [List.getLast?_append, List.getLast?_cons, ha]
    rfl
  | @level s c above text separator ends spells more ih =>
    obtain ⟨core, back, htext, hback, hcore, a, ha, hblank⟩ := ih
    refine ⟨s.chars ++ separator :: core, back, by simp [htext], hback, .level ends spells hcore, a,
      ?_, hblank⟩
    rw [List.getLast?_append, List.getLast?_cons, ha]
    rfl

/-- Neither is white space in front of it. -/
theorem Spelled.exists_trimmed (h : Spelled levels text) (typed : Typed levels) :
    ∃ front core, text = front ++ core ∧ (∀ a ∈ front, Text.isBlank a = true) ∧
      Spelled levels core ∧ ∃ d, core.head? = some d ∧ Text.isBlank d = false := by
  have hfirst : ∀ {s : SpelledComponent} {c : Component}, s.Spells c → c.key ≠ "" →
      ∀ behind, ∃ d, (s.trimmed.chars ++ behind).head? = some d ∧ Text.isBlank d = false := by
    intro s c spells hkey behind
    obtain ⟨d, hd, hblank⟩ := SpelledComponent.trimmed_head? (spells.named hkey)
    exact ⟨d, by rw [List.head?_append, hd]; rfl, hblank⟩
  have hfront : ∀ s : SpelledComponent, ∀ a ∈ s.key.takeWhile Text.isBlank, Text.isBlank a = true :=
    fun s a ha => List.mem_takeWhile_imp ha
  cases h with
  | @last s c spells solid =>
    have hkey := typed _ List.mem_cons_self _ List.mem_cons_self
    obtain ⟨d, hd, hblank⟩ := hfirst spells hkey []
    rw [List.append_nil] at hd
    exact ⟨_, _, s.chars_eq_trimmed, hfront s, .last spells.trimmed solid, d, hd, hblank⟩
  | @joined s c e others above text spells more =>
    have hkey := typed _ List.mem_cons_self _ List.mem_cons_self
    refine ⟨_, s.trimmed.chars ++ '+' :: text, ?_, hfront s, .joined spells.trimmed more,
      hfirst spells hkey _⟩
    rw [s.chars_eq_trimmed, List.append_assoc]
  | @level s c above text separator ends spells more =>
    have hkey := typed _ List.mem_cons_self _ List.mem_cons_self
    refine ⟨_, s.trimmed.chars ++ separator :: text, ?_, hfront s, .level ends spells.trimmed more,
      hfirst spells hkey _⟩
    rw [s.chars_eq_trimmed, List.append_assoc]

/-- A text that spells a name still spells it when it has been trimmed. -/
theorem Spelled.trimChars (h : Spelled levels text) (typed : Typed levels) :
    Spelled levels (Text.trimChars text) := by
  obtain ⟨shorter, back, rfl, hback, hshorter, a, ha, hlast⟩ := h.exists_shorter
  obtain ⟨front, core, rfl, hfront, hcore, d, hd, hhead⟩ := hshorter.exists_trimmed typed
  have hne : core ≠ [] := by
    intro hnil
    simp [hnil] at hd
  have hbare : Text.Bare Text.isBlank core := by
    constructor
    · intro b hb
      rw [hd] at hb
      cases hb
      exact hhead
    · intro b hb
      rw [List.getLast?_append_of_ne_nil _ hne, hb] at ha
      cases ha
      exact hlast
  rw [Text.trimChars_eq, Text.trimEnds_append hbare hfront hback]
  exact hcore

/--
**Every spelling of a name is read as that name.**  The types of the name must not be empty;
everything else that a spelling needs is said where spellings are defined.
-/
theorem read_spelled (n : Name) (text : String) (typed : Typed n.levels)
    (spelled : Spelled n.levels text.toList) : Name.read text = .ok n :=
  read_eq_ok_iff.mpr (Or.inr ((spelled.trimChars typed).written typed))

/-- Types in capitals, spaces in every place, and values that end in a comma and in a tabulator. -/
theorem read_spelled_mixed :
    let n : Name := ⟨[⟨⟨"cn", "a é,"⟩, [⟨"sn", "x"⟩]⟩, .single ⟨"o", "z\t"⟩]⟩
    let text := "  CN =  a \\C3\\a9\\, + SN=\\x;O= z\\09   "
    Typed n.levels ∧ Spelled n.levels text.toList ∧ Name.read text = .ok n := by
  intro n text
  have typed : Typed n.levels := by
    unfold Typed
    decide
  let ann : SpelledComponent := ⟨"  CN ".toList, 2, ⟨[('a', .raw), (' ', .raw),
    ('é', .hex [('C', '3'), ('a', '9')]), (',', .guarded)], by decide, by decide, by decide⟩, 1⟩
  let sir : SpelledComponent := ⟨" SN".toList, 0, ⟨[('x', .guarded)], by decide, by decide,
    by decide⟩, 0⟩
  let org : SpelledComponent := ⟨"O".toList, 1, ⟨[('z', .raw), ('\t', .hex [('0', '9')])],
    by decide, by decide, by decide⟩, 3⟩
  have hann : ann.Spells ⟨"cn", "a é,"⟩ :=
    ⟨List.all_iff_forall_prop.mp (by decide), by decide +kernel, by decide +kernel⟩
  have hsir : sir.Spells ⟨"sn", "x"⟩ :=
    ⟨List.all_iff_forall_prop.mp (by decide), by decide +kernel, by decide +kernel⟩
  have horg : org.Spells ⟨"o", "z\t"⟩ :=
    ⟨List.all_iff_forall_prop.mp (by decide), by decide +kernel, by decide +kernel⟩
  have solid : org.value.Solid := by
    intro part hpart _
    cases hpart
    exact ⟨[('0', '9')], rfl⟩
  have htext : text.toList = ann.chars ++ '+' :: (sir.chars ++ ';' :: org.chars) := by
    decide +kernel
  have spelled : Spelled n.levels text.toList := by
    rw [htext]
    exact .joined hann (.level (Or.inr rfl) hsir (.last horg solid))
  exact ⟨typed, spelled, read_spelled n text typed spelled⟩

end Name

end DirectorySaga
