/-
The grammar of names.

The reader takes a text apart from left to right.  This module says, without following it,
which texts are names and what they name: three relations, for a value, a component and a
whole name, each with a rule for every way in which such a text is put together.  The
reader accepts exactly the texts that the relations admit, and finds what they say.

Both directions meet in the lemmas `written_iff`: a text is admitted by a relation just
when the function for it accepts the text and `splitFields` leaves the text in one piece.
The second half is what the functions cannot see, because they are only ever applied to
fields that have been cut out.
-/
import Mathlib.Data.Bool.AllAny
import DirectorySaga.Error
import DirectorySaga.Proofs.Text.Trimming

namespace DirectorySaga

/-! ### The relations -/

namespace Piece

/-- The characters that do not stand for themselves in a value. -/
def marks : List Char := ['\\', ',', ';', '+']

/-- The characters spell the pieces, one after the other. -/
inductive Written : List Char → List Piece → Prop
  | nil : Written [] []
  | plain {c : Char} {rest : List Char} {pieces : List Piece} (free : c ∉ marks)
      (more : Written rest pieces) : Written (c :: rest) (.plain c :: pieces)
  | byte {high low : Char} {b : UInt8} {rest : List Char} {pieces : List Piece}
      (digits : ofHex? high low = some b) (more : Written rest pieces) :
      Written ('\\' :: high :: low :: rest) (.byte b :: pieces)
  /-- Any character may stand behind a backslash, unless two hexadecimal digits do. -/
  | guarded {c : Char} {rest : List Char} {pieces : List Piece}
      (alone : ∀ d ∈ rest.head?, ofHex? c d = none) (more : Written rest pieces) :
      Written ('\\' :: c :: rest) (.guarded c :: pieces)

/-- Whether the piece is a space that stands for itself. -/
def isSpace (piece : Piece) : Bool := piece = .plain ' '

/-- Plain spaces around them aside, the pieces are the UTF-8 of the value. -/
inductive Denote : List Piece → String → Prop
  | intro {before core after : List Piece} {value : String}
      (hbefore : ∀ piece ∈ before, piece.isSpace = true)
      (hafter : ∀ piece ∈ after, piece.isSpace = true) (bare : Text.Bare isSpace core)
      (bytes : core.flatMap Piece.bytes = value.toList.flatMap String.utf8EncodeChar) :
      Denote (before ++ core ++ after) value

end Piece

/-- The characters are a type, an equals sign and a value.  The type is named without white space
around it and in small letters. -/
inductive Component.Written : List Char → Component → Prop
  | intro {key written : List Char} {pieces : List Piece} {value : String}
      (free : ∀ c ∈ key, c ∉ '=' :: Piece.marks) (named : ∃ c ∈ key, Text.isBlank c = false)
      (spelled : Piece.Written written pieces) (denoted : Piece.Denote pieces value) :
      Written (key ++ '=' :: written) ⟨Text.lower (Text.trim (String.ofList key)), value⟩

/-- The characters are components with separators between them, which form the levels. -/
inductive Name.Written : List Char → List Rdn → Prop
  | last {field : List Char} {c : Component} (written : c.Written field) :
      Written field [.single c]
  /-- A plus sign continues the level. -/
  | joined {field rest : List Char} {c d : Component} {others : List Component}
      {above : List Rdn} (written : c.Written field) (more : Written rest (⟨d, others⟩ :: above)) :
      Written (field ++ '+' :: rest) (⟨c, d :: others⟩ :: above)
  /-- A comma or a semicolon starts the next one. -/
  | level {field rest : List Char} {c : Component} {above : List Rdn} {separator : Char}
      (ends : separator = ',' ∨ separator = ';') (written : c.Written field)
      (more : Written rest above) : Written (field ++ separator :: rest) (.single c :: above)

/-! ### Cutting a text into fields -/

namespace Name

theorem isSeparator_iff {c : Char} : isSeparator c = true ↔ c = ',' ∨ c = ';' ∨ c = '+' := by
  simp [isSeparator, or_assoc]

theorem not_isSeparator {c : Char} (h : c ∉ Piece.marks) : isSeparator c = false := by
  simp [Piece.marks] at h
  simp [isSeparator, h]

theorem splitFields_escape (c : Char) (rest : List Char) :
    splitFields ('\\' :: c :: rest) =
      ('\\' :: c :: (splitFields rest).1, (splitFields rest).2) := rfl

theorem splitFields_plain {c : Char} (rest : List Char) (h : c ∉ Piece.marks) :
    splitFields (c :: rest) = (c :: (splitFields rest).1, (splitFields rest).2) := by
  have hbackslash : c ≠ '\\' := by
    intro hc
    simp [hc, Piece.marks] at h
  rw [splitFields.eq_3 c rest (fun _ _ hc => absurd hc hbackslash)]
  simp [not_isSeparator h]

theorem splitFields_separator {c : Char} (rest : List Char) (h : isSeparator c = true) :
    splitFields (c :: rest) = ([], (c, (splitFields rest).1) :: (splitFields rest).2) := by
  have hbackslash : c ≠ '\\' := by
    intro hc
    simp [hc, isSeparator] at h
  rw [splitFields.eq_3 c rest (fun _ _ hc => absurd hc hbackslash)]
  simp [h]

/-- Cutting goes through the characters without a cut, and goes on behind them. -/
def Whole (cs : List Char) : Prop :=
  ∀ rest, splitFields (cs ++ rest) = (cs ++ (splitFields rest).1, (splitFields rest).2)

namespace Whole

variable {a b : List Char}

theorem nil : Whole [] := fun _ => rfl

theorem append (ha : Whole a) (hb : Whole b) : Whole (a ++ b) := by
  intro rest
  rw [List.append_assoc, ha, hb, List.append_assoc]

theorem plain {c : Char} (h : c ∉ Piece.marks) : Whole [c] := fun rest => splitFields_plain rest h

theorem escape (c : Char) : Whole ['\\', c] := fun rest => splitFields_escape c rest

theorem of_free (h : ∀ c ∈ a, c ∉ Piece.marks) : Whole a := by
  induction a with
  | nil => exact nil
  | cons c rest ih =>
    have hrest : Whole rest := ih fun d hd => h d (List.mem_cons_of_mem c hd)
    exact append (plain (h c List.mem_cons_self)) hrest

theorem splitFields_eq (h : Whole a) : splitFields a = (a, []) := by
  have := h []
  simpa [splitFields] using this

theorem splitFields_append (h : Whole a) {separator : Char} (hs : isSeparator separator = true)
    (rest : List Char) :
    splitFields (a ++ separator :: rest) =
      (a, (separator, (splitFields rest).1) :: (splitFields rest).2) := by
  rw [h, splitFields_separator rest hs, List.append_nil]

/-- A text can be cut at its first separator in one way only. -/
theorem append_inj (ha : Whole a) (hb : Whole b) {s t : Char} (hs : isSeparator s = true)
    (ht : isSeparator t = true) {x y : List Char} (h : a ++ s :: x = b ++ t :: y) :
    a = b ∧ s = t ∧ x = y := by
  have hfields := congrArg (fun text => (splitFields text).1) h
  simp only [ha.splitFields_append hs, hb.splitFields_append ht] at hfields
  subst hfields
  simpa using h

end Whole

/-- A text that is not cut holds no separator but behind a backslash. -/
theorem uncut_cons {c : Char} {rest : List Char} (h : c ≠ '\\') :
    splitFields (c :: rest) = (c :: rest, []) →
      c ∉ Piece.marks ∧ splitFields rest = (rest, []) := by
  intro hcut
  by_cases hs : isSeparator c = true
  · rw [splitFields_separator rest hs] at hcut
    cases hcut
  · have hfree : c ∉ Piece.marks := by
      simp only [isSeparator_iff, not_or] at hs
      simp [Piece.marks, h, hs]
    rw [splitFields_plain rest hfree] at hcut
    exact ⟨hfree, by simpa [Prod.ext_iff] using hcut⟩

theorem uncut_append {a b : List Char} (ha : ∀ c ∈ a, c ≠ '\\') :
    splitFields (a ++ b) = (a ++ b, []) →
      (∀ c ∈ a, c ∉ Piece.marks) ∧ splitFields b = (b, []) := by
  induction a with
  | nil =>
    intro hcut
    exact ⟨by simp, hcut⟩
  | cons c rest ih =>
    intro hcut
    obtain ⟨hc, hrest⟩ := List.forall_mem_cons.mp ha
    obtain ⟨hfree, hcut⟩ := uncut_cons hc hcut
    obtain ⟨hmore, hb⟩ := ih hrest hcut
    exact ⟨List.forall_mem_cons.mpr ⟨hfree, hmore⟩, hb⟩

/-- The first field has no cut in it, and the other fields are those of what follows it. -/
theorem splitFields_cases (text : List Char) :
    splitFields (splitFields text).1 = ((splitFields text).1, []) ∧
      ((splitFields text).1 = text ∧ (splitFields text).2 = [] ∨
        ∃ separator rest, isSeparator separator = true ∧
          text = (splitFields text).1 ++ separator :: rest ∧
          (splitFields text).2 = (separator, (splitFields rest).1) :: (splitFields rest).2) := by
  fun_induction splitFields text with
  | case1 => exact ⟨rfl, Or.inl ⟨rfl, rfl⟩⟩
  | case2 c rest field more hrest ih =>
    rw [hrest] at ih
    obtain ⟨hself, ⟨hfield, hmore⟩ | ⟨separator, behind, hs, htext, hmore⟩⟩ := ih
    · refine ⟨by rw [splitFields_escape, hself], Or.inl ⟨?_, hmore⟩⟩
      exact congrArg (fun cs => '\\' :: c :: cs) hfield
    · refine ⟨by rw [splitFields_escape, hself], Or.inr ⟨separator, behind, hs, ?_, hmore⟩⟩
      exact congrArg (fun cs => '\\' :: c :: cs) htext
  | case3 c rest _ field more hrest hc ih =>
    exact ⟨rfl, Or.inr ⟨c, rest, hc, rfl, by rw [hrest]⟩⟩
  | case4 c rest hescape field more hrest hc ih =>
    by_cases hbackslash : c = '\\'
    · -- a backslash with nothing behind it to protect
      subst hbackslash
      have hnil : rest = [] := by
        cases rest with
        | nil => rfl
        | cons d behind => exact (hescape d behind rfl rfl).elim
      subst hnil
      cases hrest
      exact ⟨rfl, Or.inl ⟨rfl, rfl⟩⟩
    · have hfree : c ∉ Piece.marks := by
        simp only [isSeparator_iff, not_or] at hc
        simp [Piece.marks, hbackslash, hc]
      rw [hrest] at ih
      obtain ⟨hself, ⟨hfield, hmore⟩ | ⟨separator, behind, hs, htext, hmore⟩⟩ := ih
      · refine ⟨by rw [splitFields_plain _ hfree, hself], Or.inl ⟨?_, hmore⟩⟩
        exact congrArg (fun cs => c :: cs) hfield
      · refine ⟨by rw [splitFields_plain _ hfree, hself], Or.inr ⟨separator, behind, hs, ?_, hmore⟩⟩
        exact congrArg (fun cs => c :: cs) htext

end Name

/-! ### Values -/

private theorem bound_eq_ok_iff {ε α β : Type} {m : Except ε α} {f : α → Except ε β} {b : β} :
    (m >>= f) = .ok b ↔ ∃ a, m = .ok a ∧ f a = .ok b := by
  cases m <;> simp [bind, Except.bind]

namespace Piece

theorem ofHex?_eq_some_iff {high low : Char} {b : UInt8} :
    ofHex? high low = some b ↔ ∃ h l, Text.hexDigit? high = some h ∧ Text.hexDigit? low = some l ∧
      UInt8.ofNat (16 * h + l) = b := by
  unfold ofHex?
  cases Text.hexDigit? high <;> cases Text.hexDigit? low <;> simp

/-- No mark is a hexadecimal digit. -/
theorem not_mem_marks {c : Char} {n : Nat} (h : Text.hexDigit? c = some n) : c ∉ marks := by
  have hnone : ∀ m ∈ marks, Text.hexDigit? m = none := List.all_iff_forall_prop.mp (by decide)
  intro hc
  simp [hnone c hc] at h

theorem read_plain {c : Char} (h : c ≠ '\\') (rest : List Char) :
    read (c :: rest) = (do return .plain c :: (← read rest)) :=
  read.eq_5 c rest (fun hc => absurd hc h) (fun _ hc => absurd hc h) (fun _ _ _ hc => absurd hc h)

variable {cs : List Char} {pieces : List Piece}

theorem Written.read_eq (h : Written cs pieces) : read cs = .ok pieces := by
  induction h with
  | nil => rfl
  | @plain c rest pieces free more ih =>
    have hc : c ≠ '\\' := by
      intro hc
      simp [hc, marks] at free
    rw [read_plain hc, ih]
    rfl
  | byte digits more ih =>
    rw [read, digits, ih]
    rfl
  | @guarded c rest pieces alone more ih =>
    cases rest with
    | nil =>
      cases ih
      rfl
    | cons d rest =>
      rw [read, alone d rfl, ih]
      rfl

theorem Written.whole (h : Written cs pieces) : Name.Whole cs := by
  induction h with
  | nil => exact .nil
  | plain free more ih => exact (Name.Whole.plain free).append ih
  | @byte high low b rest pieces digits more ih =>
    obtain ⟨h, l, -, hlow, -⟩ := ofHex?_eq_some_iff.mp digits
    exact (Name.Whole.escape high).append ((Name.Whole.plain (not_mem_marks hlow)).append ih)
  | @guarded c rest pieces alone more ih => exact (Name.Whole.escape c).append ih

theorem Written.of_read (h : read cs = .ok pieces) (hcut : Name.splitFields cs = (cs, [])) :
    Written cs pieces := by
  fun_induction read cs generalizing pieces with
  | case1 =>
    cases h
    exact .nil
  | case2 => cases h
  | case3 c =>
    cases h
    exact .guarded (by simp) .nil
  | case4 c d rest b hb ih =>
    obtain ⟨more, hread, hpieces⟩ := bound_eq_ok_iff.mp h
    cases hpieces
    obtain ⟨h, l, -, hlow, -⟩ := ofHex?_eq_some_iff.mp hb
    rw [Name.splitFields_escape, Name.splitFields_plain _ (not_mem_marks hlow)] at hcut
    refine .byte hb (ih hread ?_)
    simpa [Prod.ext_iff] using hcut
  | case5 c d rest hb ih =>
    obtain ⟨more, hread, hpieces⟩ := bound_eq_ok_iff.mp h
    cases hpieces
    rw [Name.splitFields_escape] at hcut
    refine .guarded (by simpa using hb) (ih hread ?_)
    simpa [Prod.ext_iff] using hcut
  | case6 c rest h₁ h₂ h₃ ih =>
    obtain ⟨more, hread, hpieces⟩ := bound_eq_ok_iff.mp h
    cases hpieces
    have hbackslash : c ≠ '\\' := by
      intro hc
      cases rest with
      | nil => exact h₁ hc rfl
      | cons d behind =>
        cases behind with
        | nil => exact h₂ d hc rfl
        | cons e behind => exact h₃ d e behind hc rfl
    obtain ⟨hfree, hcut⟩ := Name.uncut_cons hbackslash hcut
    exact .plain hfree (ih hread hcut)

theorem written_iff :
    Written cs pieces ↔ read cs = .ok pieces ∧ Name.splitFields cs = (cs, []) := by
  constructor
  · intro h
    exact ⟨h.read_eq, h.whole.splitFields_eq⟩
  · intro ⟨hread, hcut⟩
    exact .of_read hread hcut

private theorem fromUTF8?_eq_some_iff {b : List UInt8} {s : String} :
    String.fromUTF8? b.toByteArray = some s ↔ b = s.toList.flatMap String.utf8EncodeChar := by
  have hs : s.toByteArray = (s.toList.flatMap String.utf8EncodeChar).toByteArray := by
    have h : (String.ofList s.toList).toByteArray = s.toList.utf8Encode := String.toByteArray_ofList
    rwa [String.ofList_toList] at h
  rw [← List.toByteArray_inj, ← hs]
  unfold String.fromUTF8?
  split
  · rw [Option.some.injEq, ← String.toByteArray_inj]
    rfl
  · next hinvalid =>
    constructor
    · intro h
      cases h
    · intro h
      rw [h] at hinvalid
      exact absurd s.isValidUTF8 hinvalid

theorem dropSpaces_eq (pieces : List Piece) :
    dropSpaces pieces = Text.trimEnds isSpace pieces := rfl

theorem value?_eq_some_iff {value : String} :
    value? pieces = some value ↔ Denote pieces value := by
  unfold value?
  rw [fromUTF8?_eq_some_iff, dropSpaces_eq]
  constructor
  · intro h
    obtain ⟨hbare, before, after, hpieces, hbefore, hafter⟩ :=
      Text.trimEnds_eq_iff.mp (rfl : Text.trimEnds isSpace pieces = _)
    rw [hpieces]
    exact .intro hbefore hafter hbare h
  · intro h
    obtain ⟨hbefore, hafter, hbare, hbytes⟩ := h
    rw [Text.trimEnds_append hbare hbefore hafter, hbytes]

end Piece

/-! ### Components -/

namespace Component

variable {field key written : List Char} {c : Component}

theorem readKey_append (hkey : ∀ c ∈ key, c ≠ '=' ∧ c ≠ '\\') (written : List Char) :
    readKey (key ++ '=' :: written) = .ok (key, written) := by
  induction key with
  | nil => rfl
  | cons c rest ih =>
    obtain ⟨⟨hequals, hbackslash⟩, hrest⟩ := List.forall_mem_cons.mp hkey
    rw [List.cons_append, readKey, if_neg hequals, if_neg hbackslash, ih hrest]
    rfl

theorem readKey_of_free (free : ∀ c ∈ key, c ∉ '=' :: Piece.marks) (written : List Char) :
    readKey (key ++ '=' :: written) = .ok (key, written) := by
  refine readKey_append ?_ written
  intro c hc
  have := free c hc
  simp [Piece.marks] at this
  simp [this]

theorem readKey_eq_ok_iff :
    readKey field = .ok (key, written) ↔
      field = key ++ '=' :: written ∧ ∀ c ∈ key, c ≠ '=' ∧ c ≠ '\\' := by
  constructor
  · intro h
    induction field generalizing key with
    | nil => cases h
    | cons c rest ih =>
      unfold readKey at h
      by_cases hequals : c = '='
      · rw [if_pos hequals] at h
        cases h
        simp [hequals]
      · rw [if_neg hequals] at h
        by_cases hbackslash : c = '\\'
        · rw [if_pos hbackslash] at h
          cases h
        · rw [if_neg hbackslash] at h
          obtain ⟨⟨front, behind⟩, hread, hpair⟩ := bound_eq_ok_iff.mp h
          cases hpair
          obtain ⟨hrest, hfront⟩ := ih hread
          refine ⟨by rw [hrest, List.cons_append], ?_⟩
          exact List.forall_mem_cons.mpr ⟨⟨hequals, hbackslash⟩, hfront⟩
  · intro ⟨hfield, hkey⟩
    rw [hfield]
    exact readKey_append hkey written

/-- What a field must hold for the reader to accept it. -/
theorem ofField_eq_ok_iff :
    ofField field = .ok c ↔ ∃ key written pieces value, readKey field = .ok (key, written) ∧
      Piece.read written = .ok pieces ∧ Text.trimChars key ≠ [] ∧
      Piece.value? pieces = some value ∧ c = .of (String.ofList key) value := by
  unfold ofField
  constructor
  · intro h
    obtain ⟨⟨key, written⟩, hkey, h⟩ := bound_eq_ok_iff.mp h
    obtain ⟨pieces, hpieces, h⟩ := bound_eq_ok_iff.mp h
    by_cases hblank : (Text.trimChars key).isEmpty = true
    · rw [if_pos hblank] at h
      cases h
    · rw [if_neg hblank] at h
      cases hvalue : Piece.value? pieces with
      | none =>
        simp only [hvalue] at h
        cases h
      | some value =>
        simp only [hvalue] at h
        have hc : .of (String.ofList key) value = c := Except.ok.inj h
        exact ⟨key, written, pieces, value, hkey, hpieces, by simpa using hblank, hvalue, hc.symm⟩
  · intro ⟨key, written, pieces, value, hkey, hpieces, hblank, hvalue, hc⟩
    have hblank' : ¬ (Text.trimChars key).isEmpty = true := by simpa using hblank
    simp only [bound_eq_ok_iff, Prod.exists]
    refine ⟨key, written, hkey, pieces, hpieces, ?_⟩
    rw [if_neg hblank', hvalue, hc]
    rfl

theorem named_iff : Text.trimChars key ≠ [] ↔ ∃ c ∈ key, Text.isBlank c = false := by
  rw [Text.trimChars_eq, Ne, Text.trimEnds_eq_nil_iff]
  simp

theorem Written.whole (h : Written field c) : Name.Whole field := by
  obtain ⟨free, -, spelled, -⟩ := h
  have hkey : Name.Whole (_ ++ ['=']) :=
    (Name.Whole.of_free fun c hc => List.not_mem_of_not_mem_cons (free c hc)).append
      (.plain (by decide))
  have hfield := hkey.append spelled.whole
  rwa [List.append_assoc] at hfield

theorem written_iff :
    Written field c ↔ ofField field = .ok c ∧ Name.splitFields field = (field, []) := by
  constructor
  · intro h
    refine ⟨?_, h.whole.splitFields_eq⟩
    obtain ⟨free, named, spelled, denoted⟩ := h
    exact ofField_eq_ok_iff.mpr ⟨_, _, _, _, readKey_of_free free _, spelled.read_eq,
      named_iff.mpr named, Piece.value?_eq_some_iff.mpr denoted, rfl⟩
  · intro ⟨hread, hcut⟩
    obtain ⟨key, written, pieces, value, hkey, hpieces, hblank, hvalue, rfl⟩ :=
      ofField_eq_ok_iff.mp hread
    obtain ⟨rfl, hclean⟩ := readKey_eq_ok_iff.mp hkey
    obtain ⟨hfree, hcut⟩ := Name.uncut_append (fun c hc => (hclean c hc).2) hcut
    obtain ⟨-, hcut⟩ := Name.uncut_cons (by decide) hcut
    refine .intro ?_ (named_iff.mp hblank) (Piece.written_iff.mpr ⟨hpieces, hcut⟩)
      (Piece.value?_eq_some_iff.mp hvalue)
    intro c hc
    exact List.not_mem_cons_of_ne_of_not_mem (hclean c hc).1 (hfree c hc)

end Component

/-! ### Names -/

namespace Name

/-- Reads the fields behind the first one, each with the separator before it. -/
def readFields (fields : List (Char × List Char)) : Except NameFault (List (Char × Component)) :=
  fields.mapM fun (separator, field) => return (separator, ← Component.ofField field)

theorem readFields_nil : readFields [] = .ok [] := rfl

theorem readFields_cons_eq_ok_iff {separator : Char} {field : List Char}
    {more : List (Char × List Char)} {others : List (Char × Component)} :
    readFields ((separator, field) :: more) = .ok others ↔
      ∃ c rest, Component.ofField field = .ok c ∧ readFields more = .ok rest ∧
        others = (separator, c) :: rest := by
  unfold readFields
  simp only [List.mapM_cons, bound_eq_ok_iff]
  constructor
  · intro ⟨_, ⟨c, hc, hfirst⟩, rest, hrest, hothers⟩
    cases hfirst
    exact ⟨c, rest, hc, hrest, (Except.ok.inj hothers).symm⟩
  · intro ⟨c, rest, hc, hrest, hothers⟩
    exact ⟨(separator, c), ⟨c, hc, rfl⟩, rest, hrest, by rw [hothers]; rfl⟩

/-- The levels of a first component and of those behind it. -/
def levelsOf (first : Component) (others : List (Char × Component)) : List Rdn :=
  (groupLevels first others).1 :: (groupLevels first others).2

theorem levelsOf_joined (c d : Component) (others : List (Char × Component)) :
    levelsOf c (('+', d) :: others) =
      ⟨c, (groupLevels d others).1.components⟩ :: (groupLevels d others).2 := rfl

theorem levelsOf_level (c d : Component) (others : List (Char × Component)) {separator : Char}
    (h : separator ≠ '+') :
    levelsOf c ((separator, d) :: others) = .single c :: levelsOf d others := by
  unfold levelsOf
  rw [groupLevels]
  simp only [if_neg h]

variable {text : List Char} {levels : List Rdn}

theorem Written.read_eq (h : Written text levels) :
    ∃ first others, Component.ofField (splitFields text).1 = .ok first ∧
      readFields (splitFields text).2 = .ok others ∧ levels = levelsOf first others := by
  induction h with
  | @last field c written =>
    obtain ⟨hread, hcut⟩ := Component.written_iff.mp written
    rw [hcut]
    exact ⟨c, [], hread, rfl, rfl⟩
  | @joined field rest c d others above written more ih =>
    obtain ⟨first, behind, hfirst, hbehind, hlevels⟩ := ih
    rw [written.whole.splitFields_append (by decide)]
    refine ⟨c, ('+', first) :: behind, (Component.written_iff.mp written).1, ?_, ?_⟩
    · exact readFields_cons_eq_ok_iff.mpr ⟨first, behind, hfirst, hbehind, rfl⟩
    · obtain ⟨hnext, habove⟩ := List.cons.inj hlevels
      rw [levelsOf_joined, ← hnext, ← habove]
      rfl
  | @level field rest c above separator ends written more ih =>
    obtain ⟨first, behind, hfirst, hbehind, hlevels⟩ := ih
    have hs : isSeparator separator = true := by
      rw [isSeparator_iff]
      exact ends.imp_right Or.inl
    have hplus : separator ≠ '+' := by
      intro hplus
      simp [hplus] at ends
    rw [written.whole.splitFields_append hs]
    refine ⟨c, (separator, first) :: behind, (Component.written_iff.mp written).1, ?_, ?_⟩
    · exact readFields_cons_eq_ok_iff.mpr ⟨first, behind, hfirst, hbehind, rfl⟩
    · rw [levelsOf_level c first behind hplus, hlevels]

/-- The induction is on what the fields behind the first one hold. -/
theorem Written.of_read : ∀ (others : List (Char × Component)) {text : List Char}
    {first : Component}, Component.ofField (splitFields text).1 = .ok first →
      readFields (splitFields text).2 = .ok others → Written text (levelsOf first others) := by
  intro others
  induction others with
  | nil =>
    intro text first hfirst hothers
    obtain ⟨huncut, ⟨htext, -⟩ | ⟨separator, rest, -, -, hfields⟩⟩ := splitFields_cases text
    · have hwritten := Component.written_iff.mpr ⟨hfirst, huncut⟩
      rw [htext] at hwritten
      exact .last hwritten
    · rw [hfields] at hothers
      obtain ⟨_, _, -, -, h⟩ := readFields_cons_eq_ok_iff.mp hothers
      cases h
  | cons next others ih =>
    intro text first hfirst hothers
    obtain ⟨huncut, ⟨-, hfields⟩ | ⟨separator, rest, hs, htext, hfields⟩⟩ := splitFields_cases text
    · rw [hfields, readFields_nil] at hothers
      cases hothers
    · have hwritten := Component.written_iff.mpr ⟨hfirst, huncut⟩
      rw [hfields] at hothers
      obtain ⟨d, behind, hd, hbehind, h⟩ := readFields_cons_eq_ok_iff.mp hothers
      cases h
      have hmore := ih hd hbehind
      rw [htext]
      by_cases hplus : separator = '+'
      · subst hplus
        exact .joined hwritten hmore
      · rw [levelsOf_level first d others hplus]
        refine .level ?_ hwritten hmore
        rw [isSeparator_iff] at hs
        simpa [hplus] using hs

theorem Written.ne_nil (h : Written text levels) : text ≠ [] := by
  have hfield : ∀ {field : List Char} {c : Component}, c.Written field → field ≠ [] := by
    intro field c hc
    obtain ⟨⟩ := hc
    simp
  cases h with
  | last written => exact hfield written
  | joined written more => simp
  | level ends written more => simp

theorem ofChars_eq_ok_iff {cs : List Char} {n : Name} :
    ofChars cs = .ok n ↔
      Text.trimChars cs = [] ∧ n = .root ∨ Written (Text.trimChars cs) n.levels := by
  unfold ofChars
  by_cases hblank : Text.trimChars cs = []
  · have hnone : ¬ Written [] n.levels := fun h => h.ne_nil rfl
    simp [hblank, hnone, pure, Except.pure, eq_comm]
  · have hsome : ¬ (Text.trimChars cs).isEmpty = true := by simpa using hblank
    simp only [if_neg hsome, bound_eq_ok_iff, hblank, false_and, false_or]
    constructor
    · intro ⟨first, hfirst, others, hothers, hn⟩
      have hlevels : n.levels = levelsOf first others := by
        rw [← Except.ok.inj hn]
        rfl
      rw [hlevels]
      exact .of_read others hfirst hothers
    · intro h
      obtain ⟨first, others, hfirst, hothers, hlevels⟩ := h.read_eq
      refine ⟨first, hfirst, others, hothers, ?_⟩
      exact congrArg (fun levels => Except.ok (Name.mk levels)) hlevels.symm

theorem read_eq_ok_iff {text : String} {n : Name} :
    Name.read text = .ok n ↔ Text.trimChars text.toList = [] ∧ n = .root ∨
      Written (Text.trimChars text.toList) n.levels := by
  rw [← ofChars_eq_ok_iff, Name.read, Name.parse]
  cases ofChars text.toList <;> simp [Except.mapError]

/--
**The reader accepts exactly its grammar.**  Text with nothing but white space names the root.
Any other text, once trimmed, is a name just when it is written as the grammar demands, and
then the name has the levels that the text spells.  In every other case the text is refused,
and the error quotes it as it was given.
-/
theorem read_accepts_written (text : String) :
    (∀ n, Name.read text = .ok n ↔
      Text.trimChars text.toList = [] ∧ n = .root ∨
        Written (Text.trimChars text.toList) n.levels) ∧
    ((∃ fault, Name.read text = .error (.invalidName text fault)) ↔
      Text.trimChars text.toList ≠ [] ∧
        ∀ levels, ¬ Written (Text.trimChars text.toList) levels) := by
  refine ⟨fun n => read_eq_ok_iff, ?_⟩
  constructor
  · intro ⟨fault, hread⟩
    constructor
    · intro hblank
      have hroot := read_eq_ok_iff.mpr (Or.inl ⟨hblank, rfl⟩)
      rw [hread] at hroot
      cases hroot
    · intro levels hwritten
      have hn : Name.read text = .ok ⟨levels⟩ := read_eq_ok_iff.mpr (Or.inr hwritten)
      rw [hread] at hn
      cases hn
  · intro ⟨hblank, hrefused⟩
    cases hread : Name.read text with
    | ok n =>
      obtain ⟨hnil, -⟩ | hwritten := read_eq_ok_iff.mp hread
      · exact absurd hnil hblank
      · exact absurd hwritten (hrefused n.levels)
    | error e =>
      unfold Name.read at hread
      cases hparse : Name.parse text with
      | ok n =>
        rw [hparse] at hread
        cases hread
      | error fault =>
        rw [hparse] at hread
        cases hread
        exact ⟨fault, rfl⟩

end Name

end DirectorySaga
