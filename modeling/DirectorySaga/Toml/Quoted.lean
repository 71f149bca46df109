/-
Strings in quotes.

A string stands between single quotes, where every character means itself, or between
double quotes, where a backslash begins an escape; and between three quotes of a kind it
may run over several lines.  The end of a string is found first, then its escapes
are resolved.  A line end directly behind three opening quotes does not count, and up to
two quotes may stand directly before three closing ones.
-/
import DirectorySaga.Text.Digits

namespace DirectorySaga.Toml

/-! ### Line ends -/

/-- The text without a line end at its front. -/
def dropLineEnd : List Char → List Char
  | '\r' :: '\n' :: rest => rest
  | '\n' :: rest => rest
  | cs => cs

/-- Whether the text is at a line end. -/
def atLineEnd : List Char → Bool
  | '\r' :: '\n' :: _ => true
  | '\n' :: _ => true
  | _ => false

/-- Whether `c` is a space or a tab. -/
def isSpace (c : Char) : Bool := c = ' ' || c = '\t'

/-- Whether `c` is a space, a tab or part of a line end. -/
def isSpaceOrLineEnd (c : Char) : Bool := isSpace c || c = '\n' || c = '\r'

/-- Whether `c` is a control character other than a tab. -/
def isControl (c : Char) : Bool := (c < ' ' && c ≠ '\t') || c = '\x7F'

/-! ### The end of a string -/

/-- The text up to the quote on the same line, and what follows.  With `escapes`, a
character behind a backslash ends nothing. -/
def splitQuoted (quote : Char) (escapes : Bool) : List Char → Option (List Char × List Char)
  | [] => none
  | c :: rest =>
    if c = quote then some ([], rest)
    else if c = '\n' then none
    else if escapes && c = '\\' then
      match rest with
      | [] => none
      | d :: rest =>
        if d = '\n' then none
        else (splitQuoted quote escapes rest).map fun (raw, after) => (c :: d :: raw, after)
    else (splitQuoted quote escapes rest).map fun (raw, after) => (c :: raw, after)

/-- The text up to three quotes, and what follows. -/
def splitTripleQuoted (quote : Char) (escapes : Bool) : List Char → Option (List Char × List Char)
  | [] => none
  | c :: rest =>
    if rest.take 2 = [quote, quote] && c = quote then
      let extra := ((rest.drop 2).take 2).takeWhile (· = quote)
      some (extra, rest.drop (2 + extra.length))
    else if escapes && c = '\\' then
      match rest with
      | [] => none
      | d :: rest =>
        (splitTripleQuoted quote escapes rest).map fun (raw, after) => (c :: d :: raw, after)
    else (splitTripleQuoted quote escapes rest).map fun (raw, after) => (c :: raw, after)

/-! ### Escapes -/

/-- The character with the code that the hexadecimal digits spell. -/
def charOfHex? (digits : List Char) : Option Char := do
  let code := Text.ofDigits 16 (← digits.mapM Text.hexDigit?)
  if h : code.isValidChar then some (Char.ofNatAux code h) else none

/-- The character that a letter behind a backslash stands for. -/
def charOfLetter? : Char → Option Char
  | 'b' => some '\x08'
  | 't' => some '\t'
  | 'n' => some '\n'
  | 'f' => some '\x0C'
  | 'r' => some '\r'
  | 'e' => some '\x1B'
  | '"' => some '"'
  | '\\' => some '\\'
  | _ => none

/-- Resolves the escapes.  With `multiline`, a backslash at the end of a line skips, as
`skipping` says, to the next character that is neither a space nor a line end. -/
def unescape (multiline : Bool) : Bool → List Char → Option (List Char)
  | _, [] => some []
  | _, '\\' :: rest =>
    if multiline && atLineEnd (rest.dropWhile isSpace) then unescape multiline true rest
    else
      match rest with
      | 'x' :: a :: b :: rest => do
        return (← charOfHex? [a, b]) :: (← unescape multiline false rest)
      | 'u' :: a :: b :: c :: d :: rest => do
        return (← charOfHex? [a, b, c, d]) :: (← unescape multiline false rest)
      | 'U' :: a :: b :: c :: d :: e :: f :: g :: h :: rest => do
        return (← charOfHex? [a, b, c, d, e, f, g, h]) :: (← unescape multiline false rest)
      | letter :: rest => do
        return (← charOfLetter? letter) :: (← unescape multiline false rest)
      | [] => none
  | skipping, c :: rest =>
    if skipping && isSpaceOrLineEnd c then unescape multiline true rest
    else (unescape multiline false rest).map (c :: ·)

/-! ### Strings -/

/-- A string on one line, and what follows. -/
def quoted? : List Char → Option (String × List Char)
  | '"' :: rest => do
    let (raw, rest) ← splitQuoted '"' true rest
    guard !(raw.any isControl)
    return (String.ofList (← unescape false false raw), rest)
  | '\'' :: rest => do
    let (raw, rest) ← splitQuoted '\'' false rest
    guard !(raw.any isControl)
    return (String.ofList raw, rest)
  | _ => none

/-- Whether `c` may stand between three quotes, where line ends may. -/
def mayStandInLines (c : Char) : Bool := c = '\n' || c = '\r' || !isControl c

/-- A string on one line or between three quotes, and what follows. -/
def string? : List Char → Option (String × List Char)
  | '"' :: '"' :: '"' :: rest => do
    let (raw, rest) ← splitTripleQuoted '"' true (dropLineEnd rest)
    guard (raw.all mayStandInLines)
    return (String.ofList (← unescape true false raw), rest)
  | '\'' :: '\'' :: '\'' :: rest => do
    let (raw, rest) ← splitTripleQuoted '\'' false (dropLineEnd rest)
    guard (raw.all mayStandInLines)
    return (String.ofList raw, rest)
  | cs => quoted? cs

end DirectorySaga.Toml
