/-
The text of a name is read back.

What the printer writes is one of the spellings of the name: a character of a value is
either raw or behind a backslash, and each level but the first has a space in front of it.
So nearly every name is read back from its text.  The exception is the end of the text,
which is trimmed before it is read: white space at the end of the last value goes, and the
backslash that the printer puts before a space is then left without anything to protect.

That this loses the name, whatever the reader makes of the rest, takes an argument of its
own.  White space that is put back behind a text which is a name ends up in the last value
as it is.  Had the shorter text spelled the same name, the value would have been there
without it (`Component.Written.back_eq_nil`).
-/
import DirectorySaga.Proofs.Name.Spelling

namespace DirectorySaga

/-! ### The printer's spelling of a value -/

namespace Component

/-- A character and how the printer writes it. -/
def mark (guarded : Bool) (c : Char) : Char × Spelling := (c, if guarded then .guarded else .raw)

/-- The part of a value behind its first character, as the printer writes it. -/
def tailParts : List Char → List (Char × Spelling)
  | [] => []
  | [c] => [mark (isReserved c || c = ' ') c]
  | c :: d :: rest => mark (isReserved c) c :: tailParts (d :: rest)

/-- A value as the printer writes it. -/
def valueParts : List Char → List (Char × Spelling)
  | [] => []
  | c :: rest => mark (isReserved c || c = '#' || c = ' ') c :: tailParts rest

/-- What needs a backslash is no hexadecimal digit. -/
theorem hexDigit?_of_isReserved {c : Char} (h : isReserved c = true) : Text.hexDigit? c = none := by
  have hreserved : ∀ c ∈ [',', '+', '"', '\\', '<', '>', ';', '='], Text.hexDigit? c = none :=
    List.all_iff_forall_prop.mp (by decide)
  exact hreserved c (by simpa [isReserved] using h)

theorem fits_mark {guarded : Bool} {c : Char} (hreserved : isReserved c = true → guarded = true)
    (hguarded : guarded = true → Text.hexDigit? c = none) :
    Spelling.Fits (mark guarded c).1 (mark guarded c).2 := by
  cases guarded with
  | true => exact hguarded rfl
  | false =>
    show c ∉ Piece.marks
    intro hc
    have hmarks : ∀ c ∈ Piece.marks, isReserved c = true := List.all_iff_forall_prop.mp (by decide)
    cases hreserved (hmarks c hc)

theorem chars_mark (guarded : Bool) (c : Char) :
    (mark guarded c).2.chars (mark guarded c).1 = writeChar guarded c := by
  cases guarded <;> rfl

theorem mark_ne_space {guarded : Bool} {c : Char} (h : c = ' ' → guarded = true) :
    mark guarded c ≠ (' ', .raw) := by
  intro hmark
  obtain ⟨hc, hraw⟩ := Prod.mk.inj hmark
  rw [h hc] at hraw
  cases hraw

variable (cs : List Char)

theorem map_tailParts : (tailParts cs).map Prod.fst = cs := by
  fun_induction tailParts cs with
  | case1 => rfl
  | case2 c => rfl
  | case3 c d rest ih => rw [List.map_cons, ih, mark]

theorem map_valueParts : (valueParts cs).map Prod.fst = cs := by
  cases cs with
  | nil => rfl
  | cons c rest => rw [valueParts, List.map_cons, map_tailParts, mark]

theorem chars_tailParts :
    (tailParts cs).flatMap (fun part => part.2.chars part.1) = escapeTail cs := by
  fun_induction tailParts cs with
  | case1 => rfl
  | case2 c => rw [List.flatMap_singleton, chars_mark, escapeTail]
  | case3 c d rest ih => rw [List.flatMap_cons, ih, chars_mark, escapeTail]

theorem chars_valueParts :
    (valueParts cs).flatMap (fun part => part.2.chars part.1) = escapeValue cs := by
  cases cs with
  | nil => rfl
  | cons c rest => rw [valueParts, List.flatMap_cons, chars_tailParts, chars_mark, escapeValue]

theorem fits_tailParts : ∀ part ∈ tailParts cs, Spelling.Fits part.1 part.2 := by
  fun_induction tailParts cs with
  | case1 => simp
  | case2 c =>
    rw [List.forall_mem_singleton]
    refine fits_mark (by simp +contextual) ?_
    intro h
    obtain hreserved | hspace : isReserved c = true ∨ c = ' ' := by simpa using h
    · exact hexDigit?_of_isReserved hreserved
    · rw [hspace]
      decide
  | case3 c d rest ih =>
    exact List.forall_mem_cons.mpr ⟨fits_mark id hexDigit?_of_isReserved, ih⟩

theorem fits_valueParts : ∀ part ∈ valueParts cs, Spelling.Fits part.1 part.2 := by
  cases cs with
  | nil => simp [valueParts]
  | cons c rest =>
    refine List.forall_mem_cons.mpr ⟨fits_mark (by simp +contextual) ?_, fits_tailParts rest⟩
    intro h
    obtain (hreserved | hsign) | hspace : (isReserved c = true ∨ c = '#') ∨ c = ' ' := by
      simpa using h
    · exact hexDigit?_of_isReserved hreserved
    · rw [hsign]
      decide
    · rw [hspace]
      decide

theorem tailParts_getLast? : (tailParts cs).getLast? ≠ some (' ', .raw) := by
  fun_induction tailParts cs with
  | case1 => simp
  | case2 c =>
    rw [List.getLast?_singleton, Ne, Option.some.injEq]
    exact mark_ne_space (by simp +contextual)
  | case3 c d rest ih =>
    have hne : tailParts (d :: rest) ≠ [] := by
      intro h
      have := map_tailParts (d :: rest)
      simp [h] at this
    rwa [← List.singleton_append, List.getLast?_append_of_ne_nil _ hne]

theorem valueParts_head? : (valueParts cs).head? ≠ some (' ', .raw) := by
  cases cs with
  | nil => simp [valueParts]
  | cons c rest =>
    rw [valueParts, List.head?_cons, Ne, Option.some.injEq]
    exact mark_ne_space (by simp +contextual)

theorem valueParts_getLast? : (valueParts cs).getLast? ≠ some (' ', .raw) := by
  cases cs with
  | nil => simp [valueParts]
  | cons c rest =>
    rw [valueParts]
    by_cases hrest : tailParts rest = []
    · rw [hrest, List.getLast?_singleton, Ne, Option.some.injEq]
      exact mark_ne_space (by simp +contextual)
    · rw [← List.singleton_append, List.getLast?_append_of_ne_nil _ hrest]
      exact tailParts_getLast? rest

/-- The value as the printer writes it. -/
def printedValue (value : String) : SpelledValue where
  parts := valueParts value.toList
  fits := fits_valueParts value.toList
  head := valueParts_head? value.toList
  last := valueParts_getLast? value.toList

theorem value_printedValue (value : String) : (printedValue value).value = value := by
  show String.ofList ((valueParts value.toList).map Prod.fst) = value
  rw [map_valueParts, String.ofList_toList]

theorem chars_printedValue (value : String) :
    (printedValue value).chars = escapeValue value.toList := chars_valueParts value.toList

/-! ### Components -/

/-- The component is one that the constructor makes, and its type can be written. -/
structure Regular (c : Component) : Prop where
  settled : ∃ key value, c = .of key value
  named : c.key ≠ ""
  free : ∀ a ∈ c.key.toList, a ∉ '=' :: Piece.marks

/-- The value does not end with white space. -/
def Kept (c : Component) : Prop := ∀ a ∈ c.value.toList.getLast?, Text.isBlank a = false

theorem solid_printedValue {c : Component} (h : c.Kept) : (printedValue c.value).Solid := by
  intro part hpart hblank
  have hlast : (valueParts c.value.toList).getLast? = some part := hpart
  have hchar : c.value.toList.getLast? = some part.1 := by
    rw [← map_valueParts c.value.toList, List.getLast?_map, hlast]
    rfl
  rw [h part.1 hchar] at hblank
  cases hblank

/-- The component as the printer writes it, behind some spaces. -/
def printed (indent : Nat) (c : Component) : SpelledComponent :=
  ⟨List.replicate indent ' ' ++ c.key.toList, 0, printedValue c.value, 0⟩

variable {c : Component}

theorem chars_printed (indent : Nat) (c : Component) :
    (c.printed indent).chars = List.replicate indent ' ' ++ c.chars := by
  simp [printed, SpelledComponent.chars, chars, chars_printedValue]

theorem Regular.bare_key (h : c.Regular) : Text.Bare Text.isBlank c.key.toList := by
  obtain ⟨key, value, rfl⟩ := h.settled
  exact Text.bare_lower_trim key

theorem Regular.lower_trim_key (h : c.Regular) : Text.lower (Text.trim c.key) = c.key := by
  obtain ⟨key, value, rfl⟩ := h.settled
  exact Text.lower_trim_lower_trim key

theorem Regular.spells (h : c.Regular) (indent : Nat) : (c.printed indent).Spells c where
  free a ha := by
    obtain hspace | hkey := List.mem_append.mp ha
    · rw [List.eq_of_mem_replicate hspace]
      decide
    · exact h.free a hkey
  key := by
    have htrim : Text.trim (String.ofList (List.replicate indent ' ' ++ c.key.toList)) =
        Text.trim c.key := by
      have hspaces : ∀ a ∈ List.replicate indent ' ', Text.isBlank a = true := by
        intro a ha
        rw [List.eq_of_mem_replicate ha]
        decide
      have hnothing : ∀ a ∈ [], Text.isBlank a = true := by simp
      have hpadded := Text.trimEnds_append h.bare_key hspaces hnothing
      rw [List.append_nil] at hpadded
      rw [Text.trim, Text.trim, String.toList_ofList, Text.trimChars_eq, Text.trimChars_eq, hpadded,
        h.bare_key.trimEnds_eq]
    show Text.lower (Text.trim (String.ofList (List.replicate indent ' ' ++ c.key.toList))) = c.key
    rw [htrim, h.lower_trim_key]
  value := value_printedValue c.value

/-- The first character that is printed is the first one of the type. -/
theorem Regular.chars_head? (h : c.Regular) (behind : List Char) :
    ∀ a ∈ (c.chars ++ behind).head?, Text.isBlank a = false := by
  have hne : c.key.toList ≠ [] := by
    rw [Ne, String.toList_eq_nil_iff]
    exact h.named
  intro a ha
  rw [chars, List.append_assoc, List.head?_append_of_ne_nil _ hne] at ha
  exact h.bare_key.head a ha

theorem getLast?_writeChar (guarded : Bool) (c : Char) :
    (writeChar guarded c).getLast? = some c := by
  cases guarded <;> rfl

theorem getLast?_escapeTail (cs : List Char) : (escapeTail cs).getLast? = cs.getLast? := by
  fun_induction escapeTail cs with
  | case1 => rfl
  | case2 c => exact getLast?_writeChar _ c
  | case3 c d rest ih =>
    rw [List.getLast?_append, ih, List.getLast?_cons_cons]
    simp [List.getLast?_cons]

theorem getLast?_escapeValue (cs : List Char) : (escapeValue cs).getLast? = cs.getLast? := by
  cases cs with
  | nil => rfl
  | cons c rest =>
    rw [escapeValue, List.getLast?_append, getLast?_escapeTail, getLast?_writeChar,
      List.getLast?_cons]
    cases rest.getLast? <;> rfl

/-- The last one is the last one of the value. -/
theorem chars_getLast? : ∀ a ∈ c.value.toList.getLast?, c.chars.getLast? = some a := by
  intro a ha
  rw [chars, List.getLast?_append, List.getLast?_cons, getLast?_escapeValue, ha]
  rfl

/-! ### What white space at the end of a text spells -/

end Component

theorem Text.not_mem_marks_of_isBlank {c : Char} (h : isBlank c = true) : c ∉ Piece.marks := by
  have hmarks : ∀ c ∈ Piece.marks, isBlank c = false := List.all_iff_forall_prop.mp (by decide)
  intro hc
  simp [hmarks c hc] at h

namespace Piece

variable {cs back : List Char} {pieces : List Piece}

theorem Written.of_blank (hback : ∀ a ∈ back, Text.isBlank a = true) :
    Written back (back.map .plain) := by
  induction back with
  | nil => exact .nil
  | cons a back ih =>
    obtain ⟨ha, hback⟩ := List.forall_mem_cons.mp hback
    exact .plain (Text.not_mem_marks_of_isBlank ha) (ih hback)

/-- White space behind a value stands for itself, because no escape takes it in. -/
theorem Written.append_blank (h : Written cs pieces) (hback : ∀ a ∈ back, Text.isBlank a = true) :
    Written (cs ++ back) (pieces ++ back.map .plain) := by
  induction h with
  | nil => exact .of_blank hback
  | plain free more ih => exact .plain free ih
  | byte digits more ih => exact .byte digits ih
  | @guarded c rest pieces alone more ih =>
    refine .guarded ?_ ih
    cases rest with
    | cons d rest => exact alone
    | nil =>
      intro d hd
      have hblank : Text.isBlank d = true := hback d (List.mem_of_mem_head? hd)
      by_contra hdigits
      obtain ⟨b, hb⟩ := Option.ne_none_iff_exists'.mp hdigits
      obtain ⟨_, l, -, hlow, -⟩ := ofHex?_eq_some_iff.mp hb
      rw [Text.not_isBlank_of_hexDigit hlow] at hblank
      cases hblank

theorem Denote.length_le {value : String} (h : Denote pieces value) :
    (value.toList.flatMap String.utf8EncodeChar).length ≤ (pieces.flatMap bytes).length := by
  obtain ⟨-, -, -, hbytes⟩ := h
  simp only [List.flatMap_append, List.length_append, ← hbytes]
  omega

end Piece

/-- No white space can be put back behind a component that is spelled without it. -/
theorem Component.Written.back_eq_nil {field back : List Char} {c : Component} {indent : Nat}
    (h : c.Written field) (hback : ∀ a ∈ back, Text.isBlank a = true) (regular : c.Regular)
    (hprinted : field ++ back = (c.printed indent).chars) : back = [] := by
  have hfree := (regular.spells indent).free
  obtain ⟨free, -, spelled, denoted⟩ := h
  rename_i key written pieces value
  have hvalue : written ++ back = (printedValue value).chars := by
    -- both texts are cut at their first equals sign
    have hread := congrArg readKey hprinted
    rw [List.append_assoc, List.cons_append, readKey_of_free free, SpelledComponent.chars,
      readKey_of_free hfree] at hread
    simpa [printed] using (Prod.mk.inj (Except.ok.inj hread)).2
  have hpieces : pieces ++ back.map Piece.plain = (printedValue value).pieces := by
    have hshort := (spelled.append_blank hback).read_eq
    have hlong := ((printedValue value).written .nil).read_eq
    rw [List.append_nil, List.append_nil, ← hvalue, hshort] at hlong
    exact Except.ok.inj hlong
  have hbytes : (pieces ++ back.map Piece.plain).flatMap Piece.bytes =
      value.toList.flatMap String.utf8EncodeChar := by
    rw [hpieces, SpelledValue.bytes, value_printedValue]
  -- the value has all its bytes in front of the white space
  have hlength := denoted.length_le
  rw [← hbytes, List.flatMap_append, List.length_append] at hlength
  have hnone : (back.map Piece.plain).flatMap Piece.bytes = [] :=
    List.length_eq_zero_iff.mp (by omega)
  cases back with
  | nil => rfl
  | cons a back => simp [Piece.bytes, String.utf8EncodeChar_ne_nil] at hnone

/-! ### Names -/

namespace Name

/-- The last component of the level below the root. -/
def outermost? (levels : List Rdn) : Option Component :=
  levels.getLast?.bind (·.components.getLast?)

/-- The components of the levels, one after the other, as the printer and the reader go
through them. -/
theorem levels_induction {motive : List Rdn → Prop} (root : motive [])
    (last : ∀ c, motive [.single c])
    (joined : ∀ c d others above, motive (⟨d, others⟩ :: above) →
      motive (⟨c, d :: others⟩ :: above))
    (level : ∀ c next above, motive (next :: above) → motive (.single c :: next :: above)) :
    ∀ levels, motive levels := by
  intro levels
  induction levels with
  | nil => exact root
  | cons leaf above ih =>
    obtain ⟨c, others⟩ := leaf
    induction others generalizing c with
    | cons d others ihothers => exact joined c d others above (ihothers d)
    | nil =>
      cases above with
      | nil => exact last c
      | cons next above => exact level c next above ih

variable (c d : Component) (others : List Component) (next : Rdn) (above : List Rdn)

theorem chars_last : Name.chars ⟨[.single c]⟩ = c.chars := by
  simp [Name.chars, Rdn.chars, Rdn.components, Rdn.single]

theorem chars_joined : Name.chars ⟨⟨c, d :: others⟩ :: above⟩ =
    c.chars ++ '+' :: Name.chars ⟨⟨d, others⟩ :: above⟩ := by
  cases above <;> simp [Name.chars, Rdn.chars, Rdn.components]

theorem chars_level : Name.chars ⟨.single c :: next :: above⟩ =
    c.chars ++ ',' :: ' ' :: Name.chars ⟨next :: above⟩ := by
  simp [Name.chars, Rdn.chars, Rdn.components, Rdn.single]

theorem outermost?_joined :
    outermost? (⟨c, d :: others⟩ :: above) = outermost? (⟨d, others⟩ :: above) := by
  cases above with
  | nil => rfl
  | cons next above => simp [outermost?]

theorem outermost?_level :
    outermost? (.single c :: next :: above) = outermost? (next :: above) := by
  simp [outermost?]

theorem exists_outermost? {levels : List Rdn} (h : levels ≠ []) :
    ∃ c, outermost? levels = some c := by
  induction levels using levels_induction with
  | root => exact absurd rfl h
  | last c => exact ⟨c, rfl⟩
  | joined c d others above ih =>
    rw [outermost?_joined]
    exact ih (by simp)
  | level c next above ih =>
    rw [outermost?_level]
    exact ih (by simp)

/-- Every component of the levels is regular. -/
def Regular (levels : List Rdn) : Prop := ∀ level ∈ levels, ∀ c ∈ level.components, c.Regular

variable {levels : List Rdn} {text back : List Char} {c d others next above}

theorem Regular.typed (h : Regular levels) : Typed levels :=
  fun level hlevel c hc => (h level hlevel c hc).named

/-- What is said of all components is said of the first one and of the others. -/
theorem forall_single {P : Component → Prop} :
    (∀ level ∈ .single c :: above, ∀ e ∈ level.components, P e) ↔
      P c ∧ ∀ level ∈ above, ∀ e ∈ level.components, P e := by
  simp [Rdn.components, Rdn.single]

theorem forall_joined {P : Component → Prop} :
    (∀ level ∈ ⟨c, d :: others⟩ :: above, ∀ e ∈ level.components, P e) ↔
      P c ∧ ∀ level ∈ ⟨d, others⟩ :: above, ∀ e ∈ level.components, P e := by
  simp [Rdn.components, and_assoc]

theorem regular_single : Regular (.single c :: above) ↔ c.Regular ∧ Regular above := forall_single

theorem regular_joined :
    Regular (⟨c, d :: others⟩ :: above) ↔ c.Regular ∧ Regular (⟨d, others⟩ :: above) :=
  forall_joined

/-- **The printer writes one of the spellings**, if nothing is lost at the end. -/
theorem spelled_chars (regular : Regular levels) (hne : levels ≠ [])
    (hkept : ∀ c ∈ outermost? levels, c.Kept) (indent : Nat) :
    Spelled levels (List.replicate indent ' ' ++ chars ⟨levels⟩) := by
  induction levels using levels_induction generalizing indent with
  | root => exact absurd rfl hne
  | last c =>
    obtain ⟨hc, -⟩ := regular_single.mp regular
    rw [chars_last, ← Component.chars_printed]
    exact .last (hc.spells indent) (Component.solid_printedValue (hkept c rfl))
  | joined c d others above ih =>
    obtain ⟨hc, hmore⟩ := regular_joined.mp regular
    rw [outermost?_joined] at hkept
    rw [chars_joined, ← List.append_assoc, ← Component.chars_printed]
    exact .joined (hc.spells indent) (ih hmore (by simp) hkept 0)
  | level c next above ih =>
    obtain ⟨hc, hmore⟩ := regular_single.mp regular
    rw [outermost?_level] at hkept
    rw [chars_level, ← List.append_assoc, ← Component.chars_printed]
    exact .level (Or.inl rfl) (hc.spells indent) (ih hmore (by simp) hkept 1)

/-- No white space can be put back behind a name that is spelled without it. -/
theorem Written.back_eq_nil (h : Written text levels) (regular : Regular levels)
    (hback : ∀ a ∈ back, Text.isBlank a = true) (indent : Nat)
    (hprinted : text ++ back = List.replicate indent ' ' ++ chars ⟨levels⟩) : back = [] := by
  induction h generalizing indent with
  | last written =>
    rw [chars_last, ← Component.chars_printed] at hprinted
    exact written.back_eq_nil hback (regular_single.mp regular).1 hprinted
  | joined written more ih =>
    obtain ⟨hc, hmore⟩ := regular_joined.mp regular
    have hwhole := ((hc.spells indent).written hc.named).whole
    rw [chars_joined, ← List.append_assoc (List.replicate indent ' '), ← Component.chars_printed,
      List.append_assoc, List.cons_append] at hprinted
    obtain ⟨-, -, hrest⟩ := written.whole.append_inj hwhole (by decide) (by decide) hprinted
    exact ih hmore 0 hrest
  | @level field rest c above separator ends written more ih =>
    obtain ⟨hc, hmore⟩ := regular_single.mp regular
    have hwhole := ((hc.spells indent).written hc.named).whole
    have hs : isSeparator separator = true := isSeparator_iff.mpr (ends.imp_right Or.inl)
    cases above with
    | nil => cases more
    | cons next above =>
      rw [chars_level, ← List.append_assoc (List.replicate indent ' '), ← Component.chars_printed,
        List.append_assoc, List.cons_append] at hprinted
      obtain ⟨-, -, hrest⟩ := written.whole.append_inj hwhole hs (by decide) hprinted
      exact ih hmore 1 hrest

/-- The last character that is printed is the last one of the last value. -/
theorem chars_getLast? (h : outermost? levels = some c) :
    ∀ a ∈ c.value.toList.getLast?, (chars ⟨levels⟩).getLast? = some a := by
  intro a ha
  induction levels using levels_induction with
  | root => cases h
  | last e =>
    cases h
    rw [chars_last]
    exact Component.chars_getLast? a ha
  | joined e d others above ih =>
    rw [outermost?_joined] at h
    rw [chars_joined, List.getLast?_append, List.getLast?_cons, ih h]
    rfl
  | level e next above ih =>
    rw [outermost?_level] at h
    rw [chars_level, List.getLast?_append, List.getLast?_cons, List.getLast?_cons, ih h]
    rfl

end Name

/-! ### What the reader returns -/

theorem Component.Written.regular {field : List Char} {c : Component} (h : c.Written field) :
    c.Regular := by
  obtain ⟨free, named, -, -⟩ := h
  refine ⟨⟨_, _, rfl⟩, ?_, ?_⟩
  · rw [Ne, Text.lower_trim_eq_empty_iff, String.toList_ofList]
    simpa using named
  · intro a ha hmark
    -- a mark is no letter, so it would have been in the text
    have hcode : ∀ a ∈ '=' :: Piece.marks, a.toNat < 0x61 :=
      List.all_iff_forall_prop.mp (by decide)
    have := Text.mem_of_mem_lower_trim ha (hcode a hmark)
    rw [String.toList_ofList] at this
    exact free a this hmark

namespace Name

theorem Written.regular {text : List Char} {levels : List Rdn} (h : Written text levels) :
    Regular levels := by
  induction h with
  | last written => exact regular_single.mpr ⟨written.regular, by simp [Regular]⟩
  | joined written more ih => exact regular_joined.mpr ⟨written.regular, ih⟩
  | level ends written more ih => exact regular_single.mpr ⟨written.regular, ih⟩

theorem regular_of_read {text : String} {n : Name} (h : Name.read text = .ok n) :
    Regular n.levels := by
  obtain ⟨-, rfl⟩ | hwritten := read_eq_ok_iff.mp h
  · simp [Regular, root]
  · exact hwritten.regular

/-! ### Reading what was printed -/

variable {n : Name}

/-- A name whose end is kept is read back. -/
theorem read_text_of_kept (regular : Regular n.levels) (hne : n.levels ≠ [])
    (hkept : ∀ c ∈ outermost? n.levels, c.Kept) : Name.read n.text = .ok n := by
  have hspelled : Spelled n.levels n.chars := spelled_chars regular hne hkept 0
  have hwritten := (hspelled.trimChars regular.typed).written regular.typed
  rw [← String.toList_ofList (l := n.chars)] at hwritten
  exact read_eq_ok_iff.mpr (Or.inr hwritten)

/-- The text of a name begins with a type. -/
theorem chars_head? (regular : Regular n.levels) (hne : n.levels ≠ []) :
    ∀ a ∈ n.chars.head?, Text.isBlank a = false := by
  obtain ⟨levels⟩ := n
  cases levels using levels_induction with
  | root => exact absurd rfl hne
  | last c =>
    rw [chars_last, ← List.append_nil c.chars]
    exact (regular_single.mp regular).1.chars_head? []
  | joined c d others above =>
    rw [chars_joined]
    exact (regular_joined.mp regular).1.chars_head? _
  | level c next above =>
    rw [chars_level]
    exact (regular_single.mp regular).1.chars_head? _

/-- The end of a name that is read back is kept. -/
theorem kept_of_read_text (regular : Regular n.levels) {c : Component}
    (hc : outermost? n.levels = some c) (h : Name.read n.text = .ok n) : c.Kept := by
  have hne : n.levels ≠ [] := by
    intro hnil
    rw [hnil] at hc
    cases hc
  have hwritten : Written (Text.trimEnds Text.isBlank n.chars) n.levels := by
    rw [read_eq_ok_iff, Name.text, String.toList_ofList] at h
    obtain ⟨-, hroot⟩ | hwritten := h
    · exact absurd (congrArg levels hroot) hne
    · exact hwritten
  obtain ⟨front, back, hchars, hfront, hback⟩ := Text.exists_append_trimEnds Text.isBlank n.chars
  have hfront : front = [] := by
    cases front with
    | nil => rfl
    | cons a front =>
      have hblank := hfront a List.mem_cons_self
      rw [chars_head? regular hne a (by rw [hchars]; rfl)] at hblank
      cases hblank
  rw [hfront, List.nil_append] at hchars
  have hback : back = [] := hwritten.back_eq_nil regular hback 0 hchars.symm
  rw [hback, List.append_nil] at hchars
  have hbare := Text.bare_trimEnds Text.isBlank n.chars
  rw [← hchars] at hbare
  intro a ha
  exact hbare.last a (chars_getLast? hc a ha)

/--
**A name is read back from its text unless the text ends with white space.**  This holds of
every name that the reader returns, and of every name whose types could have been read,
whatever its values are.  The text is also the form in which the name is stored.
-/
theorem read_text_eq_ok_iff (n : Name) (h : (∃ text, Name.read text = .ok n) ∨ Regular n.levels) :
    (Name.read n.text = .ok n ↔ n = .root ∨ ∃ c, outermost? n.levels = some c ∧ c.Kept) ∧
    (Name.deserialize n.serialize = .ok n ↔ Name.read n.text = .ok n) := by
  have regular : Regular n.levels := by
    obtain ⟨text, hread⟩ | regular := h
    · exact regular_of_read hread
    · exact regular
  constructor
  · by_cases hne : n.levels = []
    · have hroot : n = .root := congrArg Name.mk hne
      rw [hroot]
      exact ⟨fun _ => Or.inl rfl, fun _ => read_eq_ok_iff.mpr (Or.inl ⟨by decide, rfl⟩)⟩
    · obtain ⟨c, hc⟩ := exists_outermost? hne
      constructor
      · intro hread
        exact Or.inr ⟨c, hc, kept_of_read_text regular hc hread⟩
      · intro hkept
        refine read_text_of_kept regular hne ?_
        obtain hroot | hkept := hkept
        · exact absurd (congrArg levels hroot) hne
        · intro d hd
          obtain ⟨e, he, hkept⟩ := hkept
          rw [he] at hd
          cases hd
          exact hkept
  · unfold Name.deserialize Name.serialize
    cases Name.read n.text <;> simp [Except.mapError]

/-- Escapes and white space within a name are kept, and a tabulator at its end is lost. -/
theorem read_text_padded :
    let kept : Name := ⟨[⟨⟨"cn", " a,\t"⟩, [⟨"sn", "#"⟩]⟩, .single ⟨"o", "b\\ é"⟩]⟩
    let lost : Name := ⟨[.single ⟨"cn", "b\t"⟩]⟩
    kept.text = "cn=\\ a\\,\t+sn=\\#, o=b\\\\ é" ∧ Regular kept.levels ∧
      Name.read kept.text = .ok kept ∧
      lost.text = "cn=b\t" ∧ (∃ text, Name.read text = .ok lost) ∧
      Name.read lost.text ≠ .ok lost := by
  intro kept lost
  have hcn : Component.Regular ⟨"cn", " a,\t"⟩ :=
    ⟨⟨"cn", " a,\t", by decide +kernel⟩, by decide, List.all_iff_forall_prop.mp (by decide)⟩
  have hsn : Component.Regular ⟨"sn", "#"⟩ :=
    ⟨⟨"sn", "#", by decide +kernel⟩, by decide, List.all_iff_forall_prop.mp (by decide)⟩
  have ho : Component.Regular ⟨"o", "b\\ é"⟩ :=
    ⟨⟨"o", "b\\ é", by decide +kernel⟩, by decide, List.all_iff_forall_prop.mp (by decide)⟩
  have regular : Regular kept.levels :=
    regular_joined.mpr ⟨hcn, regular_single.mpr ⟨hsn, regular_single.mpr ⟨ho, by simp [Regular]⟩⟩⟩
  have written : Name.read "cn=b\\09" = .ok lost := by rfl
  have hkept : Component.Kept ⟨"o", "b\\ é"⟩ := by
    have hlast : "b\\ é".toList.getLast? = some 'é' := by decide
    intro a ha
    obtain rfl : 'é' = a := Option.some.inj (hlast.symm.trans ha)
    decide
  have hlost : ¬ Component.Kept ⟨"cn", "b\t"⟩ := by
    intro hkept
    exact absurd (hkept '\t' (by decide)) (by decide)
  refine ⟨by decide +kernel, regular, ?_, by decide +kernel, ⟨_, written⟩, ?_⟩
  · exact (read_text_eq_ok_iff kept (Or.inr regular)).1.mpr (Or.inr ⟨_, rfl, hkept⟩)
  · rw [Ne, (read_text_eq_ok_iff lost (Or.inl ⟨_, written⟩)).1]
    intro h
    obtain hroot | ⟨c, hc, hc'⟩ := h
    · exact absurd hroot (by decide)
    · cases hc
      exact hlost hc'

end Name

end DirectorySaga
