/-
Reading a name from text.

White space around the text is dropped, and text without anything else names the root.
Otherwise commas, semicolons and plus signs that no backslash protects cut the text
into fields, and each field is one component: a type up to the first equals sign, and
behind it the pieces of a value.  A piece is a plain character, a byte in two
hexadecimal digits behind a backslash, or any other character behind a backslash.  Plain
spaces around the value are dropped, and what remains must be UTF-8.  A plus sign
continues a relative name; a comma or a semicolon starts the next one.

Every function here recurses on the text or on what was read from it.  Fields are read
from left to right, so the fault that is reported is the leftmost one.
-/
import DirectorySaga.Name.Basic
import DirectorySaga.Name.Fault
import DirectorySaga.Text.Digits

namespace DirectorySaga

/-! ### Pieces of a value -/

/-- A piece of a written value. -/
inductive Piece
  /-- A character that stands for itself. -/
  | plain (c : Char)
  /-- A character behind a backslash. -/
  | guarded (c : Char)
  /-- Two hexadecimal digits behind a backslash. -/
  | byte (b : UInt8)
deriving DecidableEq

namespace Piece

/-- The bytes that the piece stands for. -/
def bytes : Piece → List UInt8
  | plain c | guarded c => String.utf8EncodeChar c
  | byte b => [b]

/-- The byte of two hexadecimal digits. -/
def ofHex? (high low : Char) : Option UInt8 :=
  match Text.hexDigit? high, Text.hexDigit? low with
  | some h, some l => some (UInt8.ofNat (16 * h + l))
  | _, _ => none

/-- The pieces of a written value.  Behind a backslash, two hexadecimal digits are taken
together whenever there are two. -/
def read : List Char → Except NameFault (List Piece)
  | [] => .ok []
  | ['\\'] => .error .trailingEscape
  | ['\\', c] => .ok [.guarded c]
  | '\\' :: c :: d :: rest =>
    match ofHex? c d with
    | some b => do return .byte b :: (← read rest)
    | none => do return .guarded c :: (← read (d :: rest))
  | c :: rest => do return .plain c :: (← read rest)

/-- The pieces without the plain spaces at either end. -/
def dropSpaces (pieces : List Piece) : List Piece :=
  Text.dropWhileEnd (· = .plain ' ') (pieces.dropWhile (· = .plain ' '))

/-- The value that the pieces spell, unless their bytes are no UTF-8. -/
def value? (pieces : List Piece) : Option String :=
  String.fromUTF8? ((dropSpaces pieces).flatMap bytes).toByteArray

end Piece

/-! ### Components -/

namespace Component

/-- The type of a component, and the text behind its equals sign. -/
def readKey : List Char → Except NameFault (List Char × List Char)
  | [] => .error .missingEquals
  | c :: rest =>
    if c = '=' then .ok ([], rest)
    else if c = '\\' then .error .escapeOutsideValue
    else do
      let (key, value) ← readKey rest
      return (c :: key, value)

/-- The component written in a field. -/
def ofField (field : List Char) : Except NameFault Component := do
  let (key, written) ← readKey field
  let pieces ← Piece.read written
  if (Text.trimChars key).isEmpty then throw .emptyType
  match Piece.value? pieces with
  | some value => return .of (String.ofList key) value
  | none => throw .valueNotUtf8

end Component

/-! ### Names -/

namespace Name

/-- Whether `c` ends a component. -/
def isSeparator (c : Char) : Bool := c = ',' || c = ';' || c = '+'

/-- The text up to the first unprotected separator, and the fields behind it, each with
the separator before it. -/
def splitFields : List Char → List Char × List (Char × List Char)
  | [] => ([], [])
  | '\\' :: c :: rest =>
    let (field, more) := splitFields rest
    ('\\' :: c :: field, more)
  | c :: rest =>
    let (field, more) := splitFields rest
    if isSeparator c then ([], (c, field) :: more) else (c :: field, more)

/-- The levels of a first component and of the components behind it, each with the
separator before it. -/
def groupLevels : Component → List (Char × Component) → Rdn × List Rdn
  | c, [] => (.single c, [])
  | c, (separator, d) :: more =>
    let (next, above) := groupLevels d more
    if separator = '+' then (⟨c, next.components⟩, above) else (.single c, next :: above)

/-- The name written in the characters. -/
def ofChars (cs : List Char) : Except NameFault Name := do
  let text := Text.trimChars cs
  if text.isEmpty then return .root
  let (field, fields) := splitFields text
  let first ← Component.ofField field
  let others ← fields.mapM fun (separator, field) => return (separator, ← Component.ofField field)
  let (leaf, above) := groupLevels first others
  return ⟨leaf :: above⟩

/-- The name written in the text. -/
def parse (text : String) : Except NameFault Name := ofChars text.toList

end Name

end DirectorySaga
