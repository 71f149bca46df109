/-
Numbers, truth values and moments in time.

A scalar that is no string is written as one word.  Each kind of scalar is read from the
whole word or not at all, and no word can be read as two kinds.  A word that begins as an
integer does, and whose underscores all stand between digits, passes for an integer even
if it spells none, because that is found out only where its value is asked for.
-/
import DirectorySaga.Text.Digits
import DirectorySaga.Toml.Value

namespace DirectorySaga.Toml

/-! ### Numbers -/

/-- The values of digits to the base, where single underscores may stand between two. -/
def digits? (base : Nat) : List Char → Option (List Nat)
  | [] => none
  | [c] => (Text.digit? base c).map ([·])
  | c :: '_' :: rest => do return (← Text.digit? base c) :: (← digits? base rest)
  | c :: rest => do return (← Text.digit? base c) :: (← digits? base rest)

/-- The number of decimal digits without an idle zero in front. -/
def decimal? (cs : List Char) : Option Nat := do
  let digits ← digits? 10 cs
  guard (digits.length = 1 || digits.head? != some 0)
  return Text.ofDigits 10 digits

/-- Whether there is a minus sign, and what follows the sign, if there is one. -/
def splitSign : List Char → Bool × List Char
  | '-' :: rest => (true, rest)
  | '+' :: rest => (false, rest)
  | cs => (false, cs)

/-- The signed number. -/
def signed (negative : Bool) (n : Nat) : Int := if negative then -(n : Int) else n

/-- An integer, decimal or, without a sign, to one of three other bases. -/
def integer? : List Char → Option Int
  | '0' :: 'x' :: rest => (digits? 16 rest).map fun ds => Text.ofDigits 16 ds
  | '0' :: 'o' :: rest => (digits? 8 rest).map fun ds => Text.ofDigits 8 ds
  | '0' :: 'b' :: rest => (digits? 2 rest).map fun ds => Text.ofDigits 2 ds
  | cs =>
    let (negative, cs) := splitSign cs
    (decimal? cs).map (signed negative)

/-- The text before the first character that satisfies `p`, and what follows it, if there
is one. -/
def splitAt (p : Char → Bool) (cs : List Char) : List Char × Option (List Char) :=
  let front := cs.takeWhile (!p ·)
  (front, if front.length < cs.length then some (cs.drop (front.length + 1)) else none)

/-- The exponent behind an `e`; without one it is zero. -/
def exponent? : Option (List Char) → Option Int
  | none => some 0
  | some cs =>
    let (negative, cs) := splitSign cs
    (digits? 10 cs).map fun ds => signed negative (Text.ofDigits 10 ds)

/-- The digits behind a point; without a point there are none. -/
def fraction? : Option (List Char) → Option (List Nat)
  | none => some []
  | some cs => digits? 10 cs

/-- A number with a point, an exponent or both. -/
def float? (cs : List Char) : Option Decimal := do
  let (significand, power) := splitAt (fun c => c = 'e' || c = 'E') (splitSign cs).2
  let (whole, point) := splitAt (· = '.') significand
  guard (power.isSome || point.isSome)
  let whole ← decimal? whole
  let fraction ← fraction? point
  let power ← exponent? power
  let scale := Nat.pow 10 fraction.length
  return ⟨whole * scale + Text.ofDigits 10 fraction, power - fraction.length⟩

/-- Whether every underscore stands between two hexadecimal digits. -/
def joinsDigits : List Char → Bool
  | [] => true
  | '_' :: _ => false
  | c :: '_' :: d :: rest =>
    (Text.hexDigit? c).isSome && (Text.hexDigit? d).isSome && joinsDigits (d :: rest)
  | _ :: rest => joinsDigits rest

/-- Whether the word passes for an integer: the mark of a base, or decimal digits without an
idle zero in front and, from an underscore on, anything but a space and the marks of a
float. -/
def passesForInteger (cs : List Char) : Bool :=
  let (digits, behind) := splitAt (· = '_') (splitSign cs).2
  cs = ['0', 'x'] || cs = ['0', 'o'] || cs = ['0', 'b'] ||
    (digits.all Char.isDigit && digits.head?.any (· ≠ '0') && behind.isSome && joinsDigits cs &&
      cs.all fun c => c ≠ ' ' && c ≠ '.' && c ≠ 'e' && c ≠ 'E')

/-- An infinity or no number, with or without a sign. -/
def isNonFinite (cs : List Char) : Bool :=
  let word := (splitSign cs).2
  word = ['i', 'n', 'f'] || word = ['n', 'a', 'n']

/-! ### Moments -/

/-- A number of exactly `count` decimal digits, and what follows. -/
def fixedDigits? (count : Nat) (cs : List Char) : Option (Nat × List Char) := do
  let digits ← (cs.take count).mapM (Text.digit? 10)
  guard (digits.length = count)
  return (Text.ofDigits 10 digits, cs.drop count)

/-- The number of days of a month. -/
def daysIn (year month : Nat) : Nat :=
  if month = 2 then
    if year % 4 = 0 ∧ (year % 100 ≠ 0 ∨ year % 400 = 0) then 29 else 28
  else if month = 4 ∨ month = 6 ∨ month = 9 ∨ month = 11 then 30
  else 31

/-- What follows `c`. -/
def after? (c : Char) : List Char → Option (List Char)
  | [] => none
  | d :: rest => if c = d then some rest else none

/-- What follows a date of the calendar. -/
def afterDate? (cs : List Char) : Option (List Char) := do
  let (year, cs) ← fixedDigits? 4 cs
  let (month, cs) ← fixedDigits? 2 (← after? '-' cs)
  let (day, cs) ← fixedDigits? 2 (← after? '-' cs)
  guard (1 ≤ month && month ≤ 12 && 1 ≤ day && day ≤ daysIn year month)
  return cs

/-- What follows the digits behind a point, if there is a point. -/
def afterFraction? : List Char → Option (List Char)
  | '.' :: c :: rest => do
    guard c.isDigit
    return rest.dropWhile Char.isDigit
  | '.' :: [] => none
  | cs => some cs

/-- What follows the seconds, if there are any.  A leap second is admitted. -/
def afterSeconds? : List Char → Option (List Char)
  | ':' :: rest => do
    let (second, rest) ← fixedDigits? 2 rest
    guard (second ≤ 60)
    afterFraction? rest
  | cs => some cs

/-- What follows a time of day. -/
def afterTime? (cs : List Char) : Option (List Char) := do
  let (hour, cs) ← fixedDigits? 2 cs
  let (minute, cs) ← fixedDigits? 2 (← after? ':' cs)
  guard (hour ≤ 23 && minute ≤ 59)
  afterSeconds? cs

/-- Whether the text is nothing or a distance from universal time, of less than a day. -/
def isOffset : List Char → Bool
  | [] | ['Z'] | ['z'] => true
  | sign :: rest => (sign = '+' || sign = '-') && (do
      let (hours, rest) ← fixedDigits? 2 rest
      let (minutes, rest) ← fixedDigits? 2 (← after? ':' rest)
      guard (hours ≤ 23 && minutes ≤ 59 && rest.isEmpty)).isSome

/-- Whether the text is a date, a time, or a date and a time with or without an offset. -/
def isDateTime (cs : List Char) : Bool :=
  match afterDate? cs with
  | some [] => true
  | some (c :: rest) =>
    (c = 'T' || c = 't' || c = ' ') && ((afterTime? rest).map isOffset).getD false
  | none => afterTime? cs == some []

/-! ### Words -/

/-- The scalar that a word spells. -/
def scalarOfWord? (word : List Char) : Option Scalar :=
  if word = ['t', 'r', 'u', 'e'] then some (.boolean true)
  else if word = ['f', 'a', 'l', 's', 'e'] then some (.boolean false)
  else if isNonFinite word then some .nonFinite
  else if isDateTime word then some (.dateTime (String.ofList word))
  else match integer? word, float? word with
    | some n, _ => some (.integer n)
    | none, some magnitude => some (.float magnitude)
    | none, none => if passesForInteger word then some .misspelt else none

end DirectorySaga.Toml
