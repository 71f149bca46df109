/-
When numbered names coincide.

The numbers of one sequence run on through all requests that share it and start again at zero
behind the largest word.  A request for the root draws none.  So the number of a request is told
by how many before it were for other entries, whatever the sequence started with, and fewer than
2^64 of these have different numbers.

Two requests that are given the same name nevertheless must make up for the difference of their
numbers in the values of their leaves.  What the one leaf has more than the other is the front
of a number, and therefore consists of digits.  Leaves that are equal, or differ in anything
else, are safe.
-/
import DirectorySaga.Proofs.Transaction.Numbering

namespace DirectorySaga

/-! ### Digits -/

theorem isDigit_of_mem_repr {n : Nat} {c : Char} (h : c ∈ n.repr.toList) : c.isDigit = true := by
  rw [Nat.toList_repr] at h
  exact Nat.isDigit_of_mem_toDigits (by decide) (by decide) h

namespace Rdn

variable {leaf leaf' : Rdn} {digits : String}

/-- Of the values of the first components one is the other with decimal digits behind it; in all
else the relative names agree. -/
structure DifferByDigits (leaf leaf' : Rdn) : Prop where
  key : leaf.first.key = leaf'.first.key
  rest : leaf.rest = leaf'.rest
  value : ∃ digits : String, digits ≠ "" ∧ (∀ c ∈ digits.toList, c.isDigit = true) ∧
    (leaf.first.value = leaf'.first.value ++ digits ∨
      leaf'.first.value = leaf.first.value ++ digits)

theorem DifferByDigits.symm (h : leaf.DifferByDigits leaf') : leaf'.DifferByDigits leaf where
  key := h.key.symm
  rest := h.rest.symm
  value := by
    obtain ⟨digits, hne, hdigits, hvalue⟩ := h.value
    exact ⟨digits, hne, hdigits, hvalue.symm⟩

theorem differByDigits_withSuffix (hne : digits ≠ "")
    (hdigits : ∀ c ∈ digits.toList, c.isDigit = true) :
    (leaf.withSuffix digits).DifferByDigits leaf where
  key := rfl
  rest := rfl
  value := ⟨digits, hne, hdigits, Or.inl rfl⟩

theorem DifferByDigits.ne (h : leaf.DifferByDigits leaf') : leaf ≠ leaf' := by
  rintro rfl
  obtain ⟨digits, hne, -, hvalue⟩ := h.value
  have hlonger : leaf.first.value = leaf.first.value ++ digits := hvalue.elim id id
  exact hne (String.append_right_inj leaf.first.value |>.mp
    (hlonger.symm.trans (String.append_empty).symm))

end Rdn

namespace Request

variable {a b r : Request} {requests : List Request} {id : SequenceId} {s : Sequences}
  {i j m n : Nat} {name : Name}

/-! ### Numbers -/

/-- A request that draws a number is counted before every later one. -/
theorem countP_take_lt (hij : i < j) (ha : requests[i]? = some a) (hdraws : a.draws = true) :
    (requests.take i).countP draws < (requests.take j).countP draws := by
  have hnext : (requests.take (i + 1)).countP draws = (requests.take i).countP draws + 1 := by
    rw [List.take_add_one, ha, List.countP_append, Option.toList_some, List.countP_singleton,
      if_pos hdraws]
  have hsub : (requests.take (i + 1)).Sublist (requests.take j) :=
    (List.take_prefix_take_left hij).sublist
  have hle := hsub.countP_le (p := draws)
  omega

/-- The number that request `i` is given if it draws one. -/
def numberAt (id : SequenceId) (s : Sequences) (requests : List Request) (i : Nat) : Nat :=
  s.number id ((requests.take i).countP draws)

theorem numberAt_ne (few : requests.countP draws < UInt64.size) (hij : i < j)
    (ha : requests[i]? = some a) (hdraws : a.draws = true) :
    numberAt id s requests i ≠ numberAt id s requests j := by
  have hle : (requests.take j).countP draws ≤ requests.countP draws :=
    (List.take_sublist j requests).countP_le
  exact Sequences.number_ne (countP_take_lt hij ha hdraws) (Nat.lt_of_le_of_lt hle few)

/-! ### Names -/

theorem draws_of_answer (h : r.answer n = .ok name) : r.draws = true := by
  rw [draws_iff]
  unfold answer at h
  cases hleaf : r.original.leaf? with
  | none =>
    rw [hleaf] at h
    cases h
  | some leaf => exact ⟨leaf, rfl⟩

/-- Requests collide only if their leaves differ by digits. -/
theorem Collide.differByDigits (h : Collide a b m n) :
    a.node = b.node ∧ ∃ leaf leaf', a.original.leaf? = some leaf ∧
      b.original.leaf? = some leaf' ∧ leaf.DifferByDigits leaf' := by
  obtain ⟨hnode, leaf, leaf', text, hleaf, hleaf', hne, hlonger⟩ := h
  have hfront : ∀ {k l : Nat}, k.repr = text ++ l.repr →
      ∀ c ∈ text.toList, c.isDigit = true := by
    intro k l hrepr c hc
    refine isDigit_of_mem_repr (n := k) ?_
    rw [hrepr, String.toList_append]
    exact List.mem_append_left _ hc
  refine ⟨hnode, leaf, leaf', hleaf, hleaf', ?_⟩
  rcases hlonger with ⟨rfl, hrepr⟩ | ⟨rfl, hrepr⟩
  · exact Rdn.differByDigits_withSuffix hne (hfront hrepr)
  · exact (Rdn.differByDigits_withSuffix hne (hfront hrepr)).symm

/--
**When numbered names coincide.**  A request for an entry other than the root is answered with
its leaf below the node, with the number of such requests before it appended, counted from the
next number of the sequence on and within 64 bits; a request for the root is refused, and draws
none.  If among fewer than 2^64 requests that draw a number two are given the same name, they
were made for the same node, and their leaves differ by decimal digits at the end of the first
value and by nothing else; so they do differ.
-/
theorem coinciding_names (id : SequenceId) (s : Sequences) (requests : List Request) :
    (∀ (i : Nat) (r : Request), requests[i]? = some r → r.original = .root →
      (answers id requests s)[i]? = some (.error (.invalidName "" .rootHasNoLeaf))) ∧
    (∀ (i : Nat) (r : Request) (leaf : Rdn), requests[i]? = some r →
      r.original.leaf? = some leaf →
      let earlier := (requests.take i).countP draws
      let number := ((s.upcoming id).toNat + earlier) % UInt64.size
      (answers id requests s)[i]? = some (.ok (r.node.child (leaf.withSuffix number.repr)))) ∧
    (requests.countP draws < UInt64.size →
      ∀ (i j : Nat) (a b : Request) (name : Name), i < j →
        requests[i]? = some a → requests[j]? = some b →
        (answers id requests s)[i]? = some (.ok name) →
        (answers id requests s)[j]? = some (.ok name) →
        a.node = b.node ∧ ∃ leaf leaf', a.original.leaf? = some leaf ∧
          b.original.leaf? = some leaf' ∧ leaf ≠ leaf' ∧ leaf.DifferByDigits leaf') := by
  have hget : ∀ {i : Nat} {r : Request}, requests[i]? = some r →
      (answers id requests s)[i]? = some (r.answer (numberAt id s requests i)) := by
    intro i r hr
    rw [getElem?_answers, hr, Option.map_some, numberAt]
  refine ⟨?_, ?_, ?_⟩
  · intro i r hr hroot
    rw [hget hr, answer, hroot]
    rfl
  · intro i r leaf hr hleaf earlier number
    rw [hget hr, answer, hleaf]
    rfl
  · intro few i j a b name hij ha hb hname hname'
    rw [hget ha, Option.some.injEq] at hname
    rw [hget hb, Option.some.injEq] at hname'
    have hdraws : a.draws = true := draws_of_answer hname
    have hne : numberAt id s requests i ≠ numberAt id s requests j :=
      numberAt_ne few hij ha hdraws
    have hcollide := (answer_eq_iff hdraws (draws_of_answer hname') hne).mp
      (hname.trans hname'.symm)
    obtain ⟨hnode, leaf, leaf', hleaf, hleaf', hdiffer⟩ := hcollide.differByDigits
    exact ⟨hnode, leaf, leaf', hleaf, hleaf', hdiffer.ne, hdiffer⟩

/-- The sequence starts with its last number, so the second request that draws is given zero.
What the last leaf has more is the front of the first number. -/
theorem coinciding_names_attic :
    let attic := Name.unit "attic"
    let people := Name.unit "people"
    let requests : List Request :=
      ⟨attic, people.member "a"⟩ :: ⟨attic, .root⟩ ::
        List.replicate 5 ⟨attic, people.member "b"⟩ ++
        [⟨attic, people.member "a1844674407370955161"⟩]
    let s := Sequences.initial.set 0 18446744073709551615
    let name := attic.member "a18446744073709551615"
    requests.countP draws < UInt64.size ∧
      (answers 0 requests s)[0]? = some (.ok name) ∧
      (answers 0 requests s)[7]? = some (.ok name) ∧
      ∃ leaf leaf', (people.member "a").leaf? = some leaf ∧
        (people.member "a1844674407370955161").leaf? = some leaf' ∧ leaf ≠ leaf' ∧
        leaf.DifferByDigits leaf' := by
  intro attic people requests s name
  have few : requests.countP draws < UInt64.size := by decide +kernel
  have hfirst : (answers 0 requests s)[0]? = some (.ok name) := by decide +kernel
  have hlast : (answers 0 requests s)[7]? = some (.ok name) := by decide +kernel
  exact ⟨few, hfirst, hlast, ((coinciding_names 0 s requests).2.2 few 0 7 _ _ name
    (by decide) rfl rfl hfirst hlast).2⟩

end Request

end DirectorySaga
