/-
What a TOML document says.

A document is a table: keys with values, where a value is a scalar, an array or a table
again.  A table remembers how it came about, because that decides what later lines of
the document may still add to it, and so does an array, because only one that was
begun by a header in double brackets can be continued.

The entries of a table are kept in the order of their keys, and a key occurs once.
-/
namespace DirectorySaga.Toml

/-- A finite number in decimal notation, without its sign: `digits` times ten to the
`exponent`. -/
structure Decimal where
  digits : Nat
  exponent : Int

/-- A value without parts. -/
inductive Scalar
  | string (text : String)
  | integer (number : Int)
  /-- What passes for an integer and spells none, such as `0x` or `1_f`.  It may be
  written, but there is no number that it stands for. -/
  | misspelt
  | float (magnitude : Decimal)
  /-- An infinity, or no number at all. -/
  | nonFinite
  | boolean (truth : Bool)
  | dateTime (text : String)

/-- How a table came about. -/
inductive Origin
  /-- The document itself, or a header. -/
  | header
  /-- The header of a table further down. -/
  | above
  /-- The front of a dotted key. -/
  | dotted
  /-- Braces. -/
  | inline
deriving DecidableEq

/-- A value. -/
inductive Value
  | scalar (s : Scalar)
  /-- Its elements; `growing` if headers in double brackets add to them. -/
  | array (growing : Bool) (items : List Value)
  | table (origin : Origin) (entries : List (String × Value))

/-! ### Ranges -/

/-- The least number that rounds beyond the largest binary number with a significand of 53
bits and an exponent of eleven. -/
def overflowBound : Nat := Nat.pow 2 1024 - Nat.pow 2 970

/-- Whether the number reaches the bound.  The count of its places decides unless it is
close. -/
def Decimal.overflows (d : Decimal) : Bool :=
  let places : Int := d.exponent + d.digits.repr.length
  if d.digits = 0 || places < 300 then false
  else if places > 400 then true
  else if d.exponent ≥ 0 then overflowBound ≤ d.digits * Nat.pow 10 d.exponent.toNat
  else overflowBound * Nat.pow 10 (-d.exponent).toNat ≤ d.digits

/-- Whether the scalar can be represented, an integer in the given number of bits with
or without a sign. -/
def Scalar.fits (bits : Nat) : Scalar → Bool
  | integer n => -(Nat.pow 2 (bits - 1) : Int) ≤ n && n < Nat.pow 2 bits
  | misspelt => false
  | float magnitude => !magnitude.overflows
  | _ => true

/-! ### Looking through a value -/

mutual

/-- Whether all scalars in the value satisfy `p`. -/
def Value.all (p : Scalar → Bool) : Value → Bool
  | .scalar s => p s
  | .array _ items => Value.allItems p items
  | .table _ entries => Value.allEntries p entries

/-- Whether all scalars in the elements satisfy `p`. -/
def Value.allItems (p : Scalar → Bool) : List Value → Bool
  | [] => true
  | v :: more => v.all p && Value.allItems p more

/-- Whether all scalars in the entries satisfy `p`. -/
def Value.allEntries (p : Scalar → Bool) : List (String × Value) → Bool
  | [] => true
  | (_, v) :: more => v.all p && Value.allEntries p more

end

/-! ### Entries -/

/-- The entries with `v` as the value of `key`. -/
def setEntry (key : String) (v : Value) : List (String × Value) → List (String × Value)
  | [] => [(key, v)]
  | (k, w) :: more =>
    if key = k then (key, v) :: more
    else if key < k then (key, v) :: (k, w) :: more
    else (k, w) :: setEntry key v more

/-- A table. -/
structure Table where
  origin : Origin
  entries : List (String × Value)

namespace Table

/-- The value that is this table. -/
def toValue (t : Table) : Value := .table t.origin t.entries

/-- The value of a key. -/
def get? (t : Table) (key : String) : Option Value := t.entries.lookup key

/-- The table with `v` as the value of `key`. -/
def set (t : Table) (key : String) (v : Value) : Table :=
  { t with entries := setEntry key v t.entries }

end Table

end DirectorySaga.Toml
