/-
The attributes of an entry.

An attribute has an id and a list of values.  Ids are matched without regard to case:
the folded id, in small letters, is what counts, and the spelling is only kept.  An
attribute set holds at most one attribute of each folded id, which its type says, in
the order in which they arrived; a new attribute of a known id takes the place of the
old one.  Two sets are equal when they hold equal attributes, in whatever order.
-/
import DirectorySaga.Text.Lower

namespace DirectorySaga

/-! ### Attributes -/

/-- A named list of values. -/
structure Attribute where
  id : String
  values : List String

namespace Attribute

/-- The attribute without values. -/
def named (id : String) : Attribute := ⟨id, []⟩

/-- The id in small letters, by which attributes are matched. -/
def foldedId (a : Attribute) : String := Text.lower a.id

/-- Attributes are equal when their folded ids and their value lists are. -/
instance : BEq Attribute := ⟨fun a b => a.foldedId == b.foldedId && a.values == b.values⟩

theorem beq_iff {a b : Attribute} :
    (a == b) = true ↔ a.foldedId = b.foldedId ∧ a.values = b.values := by
  change (a.foldedId == b.foldedId && a.values == b.values) = true ↔ _
  simp

end Attribute

/-! ### Putting and erasing in a list -/

namespace Attributes

/-- The list with `a` in the place of the attribute of its folded id, or else at the end. -/
def putIn (a : Attribute) : List Attribute → List Attribute
  | [] => [a]
  | b :: rest => if b.foldedId = a.foldedId then a :: rest else b :: putIn a rest

theorem mem_map_foldedId_putIn {a : Attribute} {list : List Attribute} {key : String} :
    key ∈ (putIn a list).map Attribute.foldedId ↔
      key = a.foldedId ∨ key ∈ list.map Attribute.foldedId := by
  induction list with
  | nil => simp [putIn]
  | cons b rest ih =>
    by_cases h : b.foldedId = a.foldedId
    · simp [putIn, h]
    · simp only [putIn, h, if_false, List.map_cons, List.mem_cons, ih]
      grind

theorem nodup_putIn {a : Attribute} {list : List Attribute}
    (h : (list.map Attribute.foldedId).Nodup) :
    ((putIn a list).map Attribute.foldedId).Nodup := by
  induction list with
  | nil => simp [putIn]
  | cons b rest ih =>
    rw [List.map_cons, List.nodup_cons] at h
    by_cases hb : b.foldedId = a.foldedId
    · simp only [putIn, hb, if_true, List.map_cons, List.nodup_cons]
      exact ⟨hb ▸ h.1, h.2⟩
    · simp only [putIn, hb, if_false, List.map_cons, List.nodup_cons]
      refine ⟨?_, ih h.2⟩
      rw [mem_map_foldedId_putIn]
      exact fun hk => hk.elim hb h.1

theorem find?_putIn (a : Attribute) (key : String) (list : List Attribute) :
    (putIn a list).find? (·.foldedId == key) =
      if a.foldedId = key then some a else list.find? (·.foldedId == key) := by
  induction list with
  | nil => by_cases h : a.foldedId = key <;> simp [putIn, h]
  | cons b rest ih =>
    by_cases hb : b.foldedId = a.foldedId
    · by_cases h : a.foldedId = key <;> simp [putIn, hb, h]
    · by_cases hk : b.foldedId = key
      · have h : a.foldedId ≠ key := fun h => hb (hk.trans h.symm)
        simp [putIn, hk, h, Ne.symm h]
      · simp [putIn, hb, hk, ih]

theorem nodup_filter_foldedId {list : List Attribute} (keep : Attribute → Bool)
    (h : (list.map Attribute.foldedId).Nodup) :
    ((list.filter keep).map Attribute.foldedId).Nodup :=
  h.sublist (List.filter_sublist.map _)

/-- The list with `a` put in, behind the attribute that was in its place, if there was one. -/
def exchangeIn (a : Attribute) : List Attribute → Option Attribute × List Attribute
  | [] => (none, [a])
  | b :: rest =>
    if b.foldedId = a.foldedId then (some b, a :: rest)
    else
      let (previous, rest) := exchangeIn a rest
      (previous, b :: rest)

/-- The list without the attribute of a folded id, behind that attribute, if there was one. -/
def extractIn (key : String) : List Attribute → Option Attribute × List Attribute
  | [] => (none, [])
  | b :: rest =>
    if b.foldedId = key then (some b, rest)
    else
      let (previous, rest) := extractIn key rest
      (previous, b :: rest)

theorem exchangeIn_eq (a : Attribute) (list : List Attribute) :
    exchangeIn a list = (list.find? (·.foldedId == a.foldedId), putIn a list) := by
  induction list with
  | nil => rfl
  | cons b rest ih =>
    by_cases h : b.foldedId = a.foldedId
    · simp [exchangeIn, putIn, h]
    · simp [exchangeIn, putIn, h, ih]

theorem extractIn_eq {list : List Attribute} (key : String)
    (h : (list.map Attribute.foldedId).Nodup) :
    extractIn key list = (list.find? (·.foldedId == key), list.filter (·.foldedId != key)) := by
  induction list with
  | nil => rfl
  | cons b rest ih =>
    rw [List.map_cons, List.nodup_cons] at h
    by_cases hb : b.foldedId = key
    · have hrest : rest.filter (·.foldedId != key) = rest := by
        refine List.filter_eq_self.mpr fun c hc => bne_iff_ne.mpr fun hkey => h.1 ?_
        rw [hb, ← hkey]
        exact List.mem_map_of_mem hc
      simp [extractIn, hb, hrest]
    · simp [extractIn, hb, ih h.2]

theorem nodup_exchangeIn {a : Attribute} {list : List Attribute}
    (h : (list.map Attribute.foldedId).Nodup) :
    ((exchangeIn a list).2.map Attribute.foldedId).Nodup := by
  rw [exchangeIn_eq]
  exact nodup_putIn h

theorem nodup_extractIn {key : String} {list : List Attribute}
    (h : (list.map Attribute.foldedId).Nodup) :
    ((extractIn key list).2.map Attribute.foldedId).Nodup := by
  rw [extractIn_eq key h]
  exact nodup_filter_foldedId _ h

end Attributes

/-! ### Attribute sets -/

/-- Attributes of distinct folded ids, in the order in which they arrived. -/
structure Attributes where
  list : List Attribute
  distinct : (list.map Attribute.foldedId).Nodup

namespace Attributes

/-- The set without attributes. -/
def empty : Attributes := ⟨[], .nil⟩

instance : Inhabited Attributes := ⟨empty⟩

/-- The number of attributes. -/
def size (s : Attributes) : Nat := s.list.length

/-- Whether the set has no attribute. -/
def isEmpty (s : Attributes) : Bool := s.list.isEmpty

/-- The attribute of an id, however the id is spelled. -/
def get? (s : Attributes) (id : String) : Option Attribute :=
  s.list.find? (·.foldedId == Text.lower id)

/-- Whether the set has an attribute of this id. -/
def contains (s : Attributes) (id : String) : Bool := (s.get? id).isSome

/-- The set with `a` in the place of the attribute of its id, or else at the end. -/
def put (s : Attributes) (a : Attribute) : Attributes :=
  ⟨putIn a s.list, nodup_putIn s.distinct⟩

/-- The set without the attribute of this id. -/
def erase (s : Attributes) (id : String) : Attributes :=
  ⟨s.list.filter (·.foldedId != Text.lower id), nodup_filter_foldedId _ s.distinct⟩

/-- Puts an attribute and answers with the one that was in its place, if there was one. -/
def exchange (s : Attributes) (a : Attribute) : Option Attribute × Attributes :=
  let exchanged := exchangeIn a s.list
  (exchanged.1, ⟨exchanged.2, nodup_exchangeIn s.distinct⟩)

/-- Takes the attribute of this id away and answers with it, if there was one. -/
def extract (s : Attributes) (id : String) : Option Attribute × Attributes :=
  let extracted := extractIn (Text.lower id) s.list
  (extracted.1, ⟨extracted.2, nodup_extractIn s.distinct⟩)

/-- The set in which the attribute of this id is what is given. -/
def set (s : Attributes) (id : String) : Option Attribute → Attributes
  | none => s.erase id
  | some a => s.put a

/-- Putting an attribute changes what is found under its id only. -/
theorem get?_put (s : Attributes) (a : Attribute) (id : String) :
    (s.put a).get? id = if a.foldedId = Text.lower id then some a else s.get? id :=
  find?_putIn a (Text.lower id) s.list

/-- Erasing an id changes what is found under that id only. -/
theorem get?_erase (s : Attributes) (id other : String) :
    (s.erase id).get? other = if Text.lower id = Text.lower other then none else s.get? other := by
  simp only [get?, erase, List.find?_filter]
  split
  · next h => simp [h]
  · next h =>
    congr 1
    funext a
    by_cases ha : a.foldedId = Text.lower other
    · simp [ha, Ne.symm h]
    · simp [ha]

/-- What the place held is what was found under the id, and the set is that of `put`. -/
theorem exchange_eq (s : Attributes) (a : Attribute) : s.exchange a = (s.get? a.id, s.put a) := by
  simp only [exchange, exchangeIn_eq, get?, put, Attribute.foldedId]

/-- What was taken away is what was found under the id, and the set is that of `erase`. -/
theorem extract_eq (s : Attributes) (id : String) : s.extract id = (s.get? id, s.erase id) := by
  simp only [extract, extractIn_eq (Text.lower id) s.distinct, get?, erase]

/-- The set of these attributes, each put in turn. -/
def ofList (list : List Attribute) : Attributes := list.foldl put empty

/-- Sets are equal when each attribute of the one has an equal in the other. -/
instance : BEq Attributes :=
  ⟨fun s t => s.size == t.size && s.list.all fun a => t.get? a.id == some a⟩

end Attributes

end DirectorySaga
