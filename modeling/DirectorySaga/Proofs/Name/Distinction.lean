/-
Different names are never printed alike.

Not every name is read back from its text, since the end of a text is trimmed before it is read.
So that two names print differently cannot be left to the reader of names.  It follows from how
a text is put together.  In the text of a component nothing stands unprotected that the reader
would cut at, so a text falls into the same components however it came about
(`Whole.append_inj_of_ends`); what follows a component says by its first character whether the
level goes on, another one begins, or nothing follows at all (`behind`); and the text of a
component tells its type and its value, for a value is printed as one of its spellings.

The types must not hold a sign that the printer puts between the parts of a name, because types
are printed as they are.  The values may hold anything.
-/
import DirectorySaga.Proofs.Name.Printing

namespace DirectorySaga

/-! ### Components -/

namespace Component

/-- The type holds no equals sign, no separator and no backslash. -/
def Clear (c : Component) : Prop := ∀ a ∈ c.key.toList, a ∉ '=' :: Piece.marks

variable {c d : Component}

/-- What the reader makes of a printed value. -/
theorem read_escapeValue (value : String) :
    Piece.read (escapeValue value.toList) = .ok (printedValue value).pieces := by
  have hread := ((printedValue value).written .nil).read_eq
  rwa [List.append_nil, List.append_nil, chars_printedValue] at hread

theorem value?_printedValue (value : String) :
    Piece.value? (printedValue value).pieces = some value := by
  have hdenoted : Piece.Denote ([] ++ (printedValue value).pieces ++ []) value :=
    .intro (by simp) (by simp) (printedValue value).bare (by
      rw [SpelledValue.bytes, value_printedValue])
  rw [List.nil_append, List.append_nil] at hdenoted
  exact Piece.value?_eq_some_iff.mpr hdenoted

/-- Different values are printed differently. -/
theorem escapeValue_inj {v w : String} (h : escapeValue v.toList = escapeValue w.toList) :
    v = w := by
  have hpieces : (printedValue v).pieces = (printedValue w).pieces := by
    have hread := read_escapeValue v
    rw [h, read_escapeValue w] at hread
    exact (Except.ok.inj hread).symm
  have hvalue := value?_printedValue v
  rw [hpieces, value?_printedValue w] at hvalue
  exact (Option.some.inj hvalue).symm

/-- Different components are printed differently. -/
theorem Clear.chars_inj (hc : c.Clear) (hd : d.Clear) (h : c.chars = d.chars) : c = d := by
  have hread := congrArg readKey h
  rw [chars, chars, readKey_of_free hc, readKey_of_free hd] at hread
  obtain ⟨hkey, hvalue⟩ := Prod.mk.inj (Except.ok.inj hread)
  obtain ⟨key, value⟩ := c
  obtain ⟨key', value'⟩ := d
  exact congrArg₂ mk (String.toList_injective hkey) (escapeValue_inj hvalue)

theorem Clear.whole (h : c.Clear) : Name.Whole c.chars := by
  have hkey : Name.Whole c.key.toList :=
    .of_free fun a ha => fun hmark => h a ha (List.mem_cons_of_mem '=' hmark)
  have hequals : Name.Whole ['='] := .plain (by decide)
  have hvalue : Name.Whole (escapeValue c.value.toList) := by
    have hwritten := (printedValue c.value).written .nil
    rw [List.append_nil, chars_printedValue] at hwritten
    exact hwritten.whole
  exact hkey.append (hequals.append hvalue)

theorem chars_ne_nil (c : Component) : c.chars ≠ [] := by
  simp [chars]

end Component

/-! ### Cutting a text at a component -/

namespace Name

/-- The text is at its end, or a component ends here. -/
def Ends (text : List Char) : Prop := ∀ c ∈ text.head?, isSeparator c = true

variable {a b x y : List Char}

theorem Whole.fst_splitFields (ha : Whole a) (hx : Ends x) : (splitFields (a ++ x)).1 = a := by
  cases x with
  | nil => rw [List.append_nil, ha.splitFields_eq]
  | cons separator rest => rw [ha.splitFields_append (hx separator rfl)]

/-- A text begins with one component only. -/
theorem Whole.append_inj_of_ends (ha : Whole a) (hb : Whole b) (hx : Ends x) (hy : Ends y)
    (h : a ++ x = b ++ y) : a = b ∧ x = y := by
  have hfield : a = b := by
    rw [← ha.fst_splitFields hx, h, hb.fst_splitFields hy]
  rw [hfield] at h
  exact ⟨hfield, List.append_cancel_left h⟩

/-! ### Names -/

/-- What is printed behind the first component of a level, of which `others` are left, and of
the levels above it. -/
def behind : List Component → List Rdn → List Char
  | [], [] => []
  | [], next :: above => ',' :: ' ' :: chars ⟨next :: above⟩
  | d :: others, above => '+' :: chars ⟨⟨d, others⟩ :: above⟩

theorem chars_cons (c : Component) (others : List Component) (above : List Rdn) :
    chars ⟨⟨c, others⟩ :: above⟩ = c.chars ++ behind others above := by
  cases others with
  | cons d others => exact chars_joined c d others above
  | nil =>
    cases above with
    | nil =>
      rw [behind, List.append_nil]
      exact chars_last c
    | cons next above => exact chars_level c next above

theorem ends_behind (others : List Component) (above : List Rdn) : Ends (behind others above) := by
  intro c hc
  cases others with
  | cons d others =>
    cases hc
    decide
  | nil =>
    cases above with
    | nil => cases hc
    | cons next above =>
      cases hc
      decide

/-- Every component of the levels has a clear type. -/
def Clear (levels : List Rdn) : Prop := ∀ level ∈ levels, ∀ c ∈ level.components, c.Clear

variable {c c' d : Component} {others others' : List Component} {above above' levels : List Rdn}

theorem Clear.first (h : Clear (⟨c, others⟩ :: above)) : c.Clear :=
  h ⟨c, others⟩ List.mem_cons_self c List.mem_cons_self

theorem Clear.upper (h : Clear (⟨c, others⟩ :: above)) : Clear above :=
  fun level hlevel => h level (List.mem_cons_of_mem _ hlevel)

theorem Clear.joined (h : Clear (⟨c, d :: others⟩ :: above)) : Clear (⟨d, others⟩ :: above) :=
  (forall_joined.mp h).2

/-- The first component can be told from a text, and so can what is behind it. -/
theorem Clear.chars_inj (h : Clear (⟨c, others⟩ :: above)) (h' : Clear (⟨c', others'⟩ :: above'))
    (hchars : chars ⟨⟨c, others⟩ :: above⟩ = chars ⟨⟨c', others'⟩ :: above'⟩) :
    c = c' ∧ behind others above = behind others' above' := by
  rw [chars_cons, chars_cons] at hchars
  obtain ⟨hfirst, hbehind⟩ := h.first.whole.append_inj_of_ends h'.first.whole
    (ends_behind others above) (ends_behind others' above') hchars
  exact ⟨h.first.chars_inj h'.first hfirst, hbehind⟩

theorem chars_eq_nil_iff : chars ⟨levels⟩ = [] ↔ levels = [] := by
  cases levels with
  | nil => exact iff_of_true rfl rfl
  | cons leaf above =>
    obtain ⟨c, others⟩ := leaf
    simp [chars_cons, c.chars_ne_nil]

/-! The first character behind a component says how a name goes on. -/

theorem behind_eq_nil_iff : behind others above = [] ↔ others = [] ∧ above = [] := by
  unfold behind
  split <;> simp

theorem behind_eq_plus_iff :
    behind others above = '+' :: x ↔
      ∃ d more, others = d :: more ∧ chars ⟨⟨d, more⟩ :: above⟩ = x := by
  unfold behind
  split <;> simp

theorem behind_eq_comma_iff :
    behind others above = ',' :: ' ' :: x ↔
      others = [] ∧ ∃ next more, above = next :: more ∧ chars ⟨next :: more⟩ = x := by
  unfold behind
  split <;> simp

/-- The levels of a name can be told from its characters. -/
theorem Clear.levels_inj : ∀ {levels levels' : List Rdn}, Clear levels → Clear levels' →
    chars ⟨levels⟩ = chars ⟨levels'⟩ → levels = levels' := by
  intro levels
  -- component by component, as the text is printed
  induction levels using levels_induction with
  | root =>
    intro levels' _ _ hchars
    exact (chars_eq_nil_iff.mp hchars.symm).symm
  | last c =>
    intro levels' h h' hchars
    rcases levels' with _ | ⟨⟨c', others'⟩, above'⟩
    · exact chars_eq_nil_iff.mp hchars
    · obtain ⟨rfl, hbehind⟩ := h.chars_inj h' hchars
      obtain ⟨rfl, rfl⟩ := behind_eq_nil_iff.mp hbehind.symm
      rfl
  | joined c d others above ih =>
    intro levels' h h' hchars
    rcases levels' with _ | ⟨⟨c', others'⟩, above'⟩
    · exact chars_eq_nil_iff.mp hchars
    · obtain ⟨rfl, hbehind⟩ := h.chars_inj h' hchars
      obtain ⟨d', more', rfl, hmore⟩ := behind_eq_plus_iff.mp hbehind.symm
      have hrest : (⟨d, others⟩ :: above : List Rdn) = ⟨d', more'⟩ :: above' :=
        ih h.joined h'.joined hmore.symm
      cases hrest
      rfl
  | level c next above ih =>
    intro levels' h h' hchars
    rcases levels' with _ | ⟨⟨c', others'⟩, above'⟩
    · exact chars_eq_nil_iff.mp hchars
    · obtain ⟨rfl, hbehind⟩ := h.chars_inj h' hchars
      obtain ⟨rfl, next', more', rfl, hmore⟩ := behind_eq_comma_iff.mp hbehind.symm
      rw [ih h.upper h'.upper hmore.symm]
      rfl

/--
**Different names are never printed alike**, if no type holds an equals sign, a separator or a
backslash.  The values may be any texts: from the text of a name follow its levels, the
components of each, and their types and values.
-/
theorem text_inj {n m : Name} (hn : Clear n.levels) (hm : Clear m.levels) :
    n.text = m.text ↔ n = m := by
  constructor
  · intro h
    exact congrArg Name.mk (hn.levels_inj hm (String.ofList_injective h))
  · intro h
    rw [h]

/-- One component that reads like two is told from two components of one level and from two
levels. -/
theorem text_inj_boundaries :
    let whole : Name := ⟨[.single ⟨"cn", "a, ou=b "⟩]⟩
    let joined : Name := ⟨[⟨⟨"cn", "a"⟩, [⟨"ou", "b "⟩]⟩]⟩
    let apart : Name := ⟨[.single ⟨"cn", "a"⟩, .single ⟨"ou", "b "⟩]⟩
    Clear whole.levels ∧ Clear joined.levels ∧ Clear apart.levels ∧
      whole.text ≠ joined.text ∧ whole.text ≠ apart.text ∧ joined.text ≠ apart.text := by
  intro whole joined apart
  have hclear : ∀ key ∈ ["cn", "ou"], ∀ a ∈ key.toList, a ∉ '=' :: Piece.marks := by
    simp [Piece.marks]
  have hcn : ∀ value, Component.Clear ⟨"cn", value⟩ := fun _ => hclear "cn" (by simp)
  have hou : ∀ value, Component.Clear ⟨"ou", value⟩ := fun _ => hclear "ou" (by simp)
  have hwhole : Clear whole.levels := by
    simp [Clear, whole, Rdn.components, Rdn.single, hcn]
  have hjoined : Clear joined.levels := by
    simp [Clear, joined, Rdn.components, hcn, hou]
  have hapart : Clear apart.levels := by
    simp [Clear, apart, Rdn.components, Rdn.single, hcn, hou]
  refine ⟨hwhole, hjoined, hapart, ?_, ?_, ?_⟩
  · rw [Ne, text_inj hwhole hjoined]
    decide
  · rw [Ne, text_inj hwhole hapart]
    decide
  · rw [Ne, text_inj hjoined hapart]
    decide

end Name

end DirectorySaga
