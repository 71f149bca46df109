/-
Temporary names numbered from one sequence.

Under a node of its own an entry is parked with the next number of a sequence appended
to the value of its leaf.  The numbers are all different until the sequence has run
through its 64-bit words.  The names need not be: the number is appended without
anything in between, so a value that ends in digits can take over the front of another
entry's number.  `a1` with the number 1 and `a` with the number 11 are both `a11`.

`names_nodup_iff` says exactly when this happens.  Of the two leaves one is the other
with some text appended to its first value, and this text followed by the number of the
longer one is the number of the shorter one.
-/
import Std.Data.String.ToNat
import DirectorySaga.Proofs.Name.Subtree
import DirectorySaga.Transaction.Parking

namespace DirectorySaga

/-! ### Appending to a leaf -/

/-- Two texts with something appended are equal when what the one has more in front, the other
has more behind. -/
private theorem append_eq_append_iff {x y m n : String} :
    x ++ m = y ++ n ↔ (∃ z, x = y ++ z ∧ n = z ++ m) ∨ ∃ z, y = x ++ z ∧ m = z ++ n := by
  constructor
  · intro h
    have hlist : x.toList ++ m.toList = y.toList ++ n.toList := by
      rw [← String.toList_append, h, String.toList_append]
    rcases List.append_eq_append_iff.mp hlist with ⟨z, hy, hm⟩ | ⟨z, hx, hn⟩
    · refine Or.inr ⟨String.ofList z, String.toList_inj.mp ?_, String.toList_inj.mp ?_⟩
      · rw [hy, String.toList_append, String.toList_ofList]
      · rw [hm, String.toList_append, String.toList_ofList]
    · refine Or.inl ⟨String.ofList z, String.toList_inj.mp ?_, String.toList_inj.mp ?_⟩
      · rw [hx, String.toList_append, String.toList_ofList]
      · rw [hn, String.toList_append, String.toList_ofList]
  · rintro (⟨z, rfl, rfl⟩ | ⟨z, rfl, rfl⟩)
    · rw [String.append_assoc]
    · rw [String.append_assoc]

namespace Rdn

variable {leaf leaf' : Rdn} {m n z : String}

theorem withSuffix_withSuffix (leaf : Rdn) (z m : String) :
    (leaf.withSuffix z).withSuffix m = leaf.withSuffix (z ++ m) := by
  simp only [withSuffix, Component.withValue, String.append_assoc]

/-- Two leaves with suffixes are equal when one of the leaves is the other with some text
appended, and this text is what its suffix is short of. -/
theorem withSuffix_eq_iff :
    leaf.withSuffix m = leaf'.withSuffix n ↔
      (∃ z, leaf = leaf'.withSuffix z ∧ n = z ++ m) ∨
        ∃ z, leaf' = leaf.withSuffix z ∧ m = z ++ n := by
  constructor
  · obtain ⟨⟨key, value⟩, rest⟩ := leaf
    obtain ⟨⟨key', value'⟩, rest'⟩ := leaf'
    simp only [withSuffix, Component.withValue, mk.injEq, Component.mk.injEq]
    rintro ⟨⟨rfl, hvalue⟩, rfl⟩
    rcases append_eq_append_iff.mp hvalue with ⟨z, hz, hn⟩ | ⟨z, hz, hm⟩
    · exact Or.inl ⟨z, ⟨⟨rfl, hz⟩, rfl⟩, hn⟩
    · exact Or.inr ⟨z, ⟨⟨rfl, hz⟩, rfl⟩, hm⟩
  · rintro (⟨z, rfl, rfl⟩ | ⟨z, rfl, rfl⟩)
    · rw [withSuffix_withSuffix]
    · rw [withSuffix_withSuffix]

end Rdn

/-! ### The numbers of a sequence -/

namespace Sequences

variable {s : Sequences} {id : SequenceId}

/-- The number that is drawn after `k` others. -/
def number (s : Sequences) (id : SequenceId) (k : Nat) : Nat :=
  ((s.upcoming id).toNat + k) % UInt64.size

theorem number_zero (s : Sequences) (id : SequenceId) :
    s.number id 0 = (s.upcoming id).toNat :=
  Nat.mod_eq_of_lt (s.upcoming id).toNat_lt

theorem number_draw (s : Sequences) (id : SequenceId) (k : Nat) :
    (s.draw id).2.number id k = s.number id (k + 1) := by
  have hnext : (s.draw id).2.upcoming id = s.upcoming id + 1 := if_pos rfl
  have hsum : (s.upcoming id + 1).toNat = ((s.upcoming id).toNat + 1) % UInt64.size :=
    UInt64.toNat_add (s.upcoming id) 1
  unfold number
  rw [hnext, hsum, Nat.mod_add_mod, Nat.add_assoc, Nat.add_comm 1 k]

/-- A number comes again only after all others. -/
theorem number_ne {i j : Nat} (hij : i < j) (hj : j < UInt64.size) :
    s.number id i ≠ s.number id j := by
  unfold number
  unfold UInt64.size at hj ⊢
  omega

end Sequences

/-! ### Asking for temporary names -/

/-- Answers can be compared when values and errors can. -/
instance decidableEqAnswer {ε α : Type} [DecidableEq ε] [DecidableEq α] :
    DecidableEq (Except ε α)
  | .ok a, .ok b => decidable_of_iff (a = b) ⟨congrArg Except.ok, Except.ok.inj⟩
  | .error e, .error f => decidable_of_iff (e = f) ⟨congrArg Except.error, Except.error.inj⟩
  | .ok _, .error _ => isFalse nofun
  | .error _, .ok _ => isFalse nofun

/-- An entry for which a temporary name below a node is asked. -/
structure Request where
  node : Name
  original : Name

namespace Request

/-- Whether a number is drawn for it. -/
def draws (r : Request) : Bool := !r.original.isRoot

/-- The answer when it is given this number. -/
def answer (r : Request) (number : Nat) : Except DirectoryError Name :=
  match r.original.leaf? with
  | none => .error (.invalidName "" .rootHasNoLeaf)
  | some leaf => .ok (r.node.child (leaf.withSuffix number.repr))

theorem temporaryName_subtree (r : Request) (id : SequenceId) (s : Sequences) :
    (Parking.subtree r.node id).temporaryName r.original s =
      (r.answer (s.number id 0), if r.draws then (s.draw id).2 else s) := by
  obtain ⟨node, levels⟩ := r
  cases levels with
  | mk levels =>
    cases levels with
    | nil => rfl
    | cons leaf above =>
      rw [Sequences.number_zero]
      rfl

/-- The answers to requests that share a sequence, in the order in which they are made. -/
def answers (id : SequenceId) : List Request → Sequences → List (Except DirectoryError Name)
  | [], _ => []
  | r :: more, s =>
    let (answer, s) := (Parking.subtree r.node id).temporaryName r.original s
    answer :: answers id more s

/-- **Each request is answered with the number of those before it that drew one.** -/
theorem getElem?_answers (id : SequenceId) : ∀ (requests : List Request) (s : Sequences) (k : Nat),
    (answers id requests s)[k]? =
      requests[k]?.map fun r => r.answer (s.number id ((requests.take k).countP draws)) := by
  intro requests
  induction requests with
  | nil =>
    intro s k
    rfl
  | cons r more ih =>
    intro s k
    rw [answers, temporaryName_subtree]
    cases k with
    | zero => rfl
    | succ k =>
      rw [List.getElem?_cons_succ, List.getElem?_cons_succ, List.take_succ_cons,
        List.countP_cons, ih]
      by_cases hdraws : r.draws = true
      · rw [if_pos hdraws, if_pos hdraws]
        simp only [Sequences.number_draw]
      · rw [if_neg hdraws, if_neg hdraws]
        rfl

theorem length_answers (id : SequenceId) : ∀ (requests : List Request) (s : Sequences),
    (answers id requests s).length = requests.length := by
  intro requests
  induction requests with
  | nil =>
    intro s
    rfl
  | cons r more ih =>
    intro s
    exact congrArg (· + 1) (ih _)

theorem draws_iff {r : Request} : r.draws = true ↔ ∃ leaf, r.original.leaf? = some leaf := by
  obtain ⟨node, ⟨levels⟩⟩ := r
  cases levels with
  | nil => simp [draws, Name.isRoot, Name.leaf?]
  | cons leaf above => simp [draws, Name.isRoot, Name.leaf?]

theorem draws_of_ne_root {r : Request} (h : r.original ≠ .root) : r.draws = true := by
  rw [draws, Bool.not_eq_true', ← Bool.not_eq_true, Name.isRoot_iff]
  exact h

/-- If every request draws, each gets the number at its own position. -/
theorem getElem_answers {id : SequenceId} {requests : List Request} {s : Sequences} {k : Nat}
    (hdraws : ∀ r ∈ requests, r.draws = true) (hk : k < requests.length)
    (hk' : k < (answers id requests s).length) :
    (answers id requests s)[k] = requests[k].answer (s.number id k) := by
  have hcount : (requests.take k).countP draws = k := by
    rw [List.countP_eq_length.mpr fun r hr => hdraws r (List.mem_of_mem_take hr),
      List.length_take_of_le (Nat.le_of_lt hk)]
  have hget := getElem?_answers id requests s k
  rw [List.getElem?_eq_getElem hk', List.getElem?_eq_getElem hk, hcount] at hget
  exact Option.some.inj hget

/-! ### Collisions -/

/-- The requests are for the same node, one leaf is the other with some text appended, and this
text with the number of the longer leaf behind it is the number of the shorter one. -/
def Collide (a b : Request) (m n : Nat) : Prop :=
  a.node = b.node ∧ ∃ leaf leaf' text,
    a.original.leaf? = some leaf ∧ b.original.leaf? = some leaf' ∧ text ≠ "" ∧
      (leaf = leaf'.withSuffix text ∧ n.repr = text ++ m.repr ∨
        leaf' = leaf.withSuffix text ∧ m.repr = text ++ n.repr)

/-- Different numbers give different names unless the requests collide. -/
theorem answer_eq_iff {a b : Request} {m n : Nat} (ha : a.draws = true) (hb : b.draws = true)
    (hmn : m ≠ n) : a.answer m = b.answer n ↔ Collide a b m n := by
  obtain ⟨leaf, hleaf⟩ := draws_iff.mp ha
  obtain ⟨leaf', hleaf'⟩ := draws_iff.mp hb
  have hnames : a.answer m = b.answer n ↔
      leaf.withSuffix m.repr = leaf'.withSuffix n.repr ∧ a.node = b.node := by
    rw [answer, answer, hleaf, hleaf', ← Name.child_inj]
    exact ⟨Except.ok.inj, congrArg Except.ok⟩
  have hrepr : m.repr ≠ n.repr := fun h => hmn (Nat.repr_injective h)
  rw [hnames, Rdn.withSuffix_eq_iff]
  constructor
  · rintro ⟨hsuffix, hnode⟩
    refine ⟨hnode, leaf, leaf', ?_⟩
    rcases hsuffix with ⟨text, hlong, hrest⟩ | ⟨text, hlong, hrest⟩
    · refine ⟨text, hleaf, hleaf', ?_, Or.inl ⟨hlong, hrest⟩⟩
      rintro rfl
      exact hrepr (by rw [hrest, String.empty_append])
    · refine ⟨text, hleaf, hleaf', ?_, Or.inr ⟨hlong, hrest⟩⟩
      rintro rfl
      exact hrepr (by rw [hrest, String.empty_append])
  · rintro ⟨hnode, k, k', text, hk, hk', -, hsuffix⟩
    obtain rfl := Option.some.inj (hleaf.symm.trans hk)
    obtain rfl := Option.some.inj (hleaf'.symm.trans hk')
    exact ⟨hsuffix.imp (fun h => ⟨text, h⟩) fun h => ⟨text, h⟩, hnode⟩

/--
**When temporary names collide.**  Let temporary names be asked for entries other than the
root, fewer times than there are numbers, in whatever order and below whatever nodes, all
with the numbers of one sequence.  Each request is answered with a name, and the names are
different exactly if no two of the requests collide with their numbers.
-/
theorem names_nodup_iff (id : SequenceId) (s : Sequences) (requests : List Request)
    (named : ∀ r ∈ requests, r.original ≠ .root) (few : requests.length < UInt64.size) :
    (∀ answer ∈ answers id requests s, ∃ name, answer = .ok name) ∧
      ((answers id requests s).Nodup ↔
        ∀ (i j : Nat) (hij : i < j) (hj : j < requests.length),
          ¬ Collide requests[i] requests[j] (s.number id i) (s.number id j)) := by
  have hdraws : ∀ r ∈ requests, r.draws = true := fun r hr => draws_of_ne_root (named r hr)
  have hlength : (answers id requests s).length = requests.length := length_answers id requests s
  refine ⟨fun answer hanswer => ?_, ?_⟩
  · obtain ⟨k, hk, rfl⟩ := List.getElem_of_mem hanswer
    have hk' : k < requests.length := hlength ▸ hk
    obtain ⟨leaf, hleaf⟩ := draws_iff.mp (hdraws requests[k] (List.getElem_mem hk'))
    rw [getElem_answers hdraws hk' hk, Request.answer, hleaf]
    exact ⟨_, rfl⟩
  · rw [List.nodup_iff_pairwise_ne, List.pairwise_iff_getElem]
    have hpair : ∀ (i j : Nat) (hij : i < j) (hj : j < requests.length)
        (hi' : i < (answers id requests s).length) (hj' : j < (answers id requests s).length),
        (answers id requests s)[i] = (answers id requests s)[j] ↔
          Collide requests[i] requests[j] (s.number id i) (s.number id j) := by
      intro i j hij hj hi' hj'
      rw [getElem_answers hdraws (Nat.lt_trans hij hj) hi', getElem_answers hdraws hj hj']
      exact answer_eq_iff (hdraws _ (List.getElem_mem _)) (hdraws _ (List.getElem_mem _))
        (Sequences.number_ne hij (Nat.lt_trans hj few))
    constructor
    · intro h i j hij hj
      have hi' : i < (answers id requests s).length := hlength ▸ Nat.lt_trans hij hj
      have hj' : j < (answers id requests s).length := hlength ▸ hj
      exact mt (hpair i j hij hj hi' hj').mpr (h i j hi' hj' hij)
    · intro h i j hi' hj' hij
      exact mt (hpair i j hij (hlength ▸ hj') hi' hj').mp (h i j hij (hlength ▸ hj'))

/-- Three requests that do not collide, two of them for equal leaves. -/
theorem names_nodup_attic :
    let attic := Name.unit "attic"
    let requests : List Request :=
      [⟨attic, (Name.unit "people").member "a1"⟩, ⟨.unit "cellar", (Name.unit "people").member "a"⟩,
        ⟨attic, (Name.unit "staff").member "a1"⟩]
    (∀ r ∈ requests, r.original ≠ .root) ∧ requests.length < UInt64.size ∧
      (answers 0 requests .initial).Nodup ∧
      ∀ (i j : Nat) (hij : i < j) (hj : j < requests.length), ¬ Collide requests[i] requests[j]
        (Sequences.initial.number 0 i) (Sequences.initial.number 0 j) := by
  intro attic requests
  have named : ∀ r ∈ requests, r.original ≠ .root := by decide
  have few : requests.length < UInt64.size := by decide
  have hnodup : (answers 0 requests .initial).Nodup := by decide +kernel
  exact ⟨named, few, hnodup, (names_nodup_iff 0 .initial requests named few).2.mp hnodup⟩

/-- **Names from one sequence can collide.**  The first request appends 1 to `a1`, the eleventh
appends 11 to `a`. -/
theorem names_collide :
    let attic := Name.unit "attic"
    let people := Name.unit "people"
    let requests : List Request := ⟨attic, people.member "a1"⟩ ::
      List.replicate 9 ⟨attic, people.member "b"⟩ ++ [⟨attic, people.member "a"⟩]
    (∀ r ∈ requests, r.original ≠ .root) ∧ requests.length < UInt64.size ∧
      (answers 0 requests .initial)[0]? = some (.ok (attic.member "a11")) ∧
      (answers 0 requests .initial)[10]? = some (.ok (attic.member "a11")) ∧
      ¬ (answers 0 requests .initial).Nodup := by
  decide +kernel

end Request

end DirectorySaga
