/-
Reading a TOML document.

A document is a list of lines: headers, which say what table the lines below them belong
to, and keys with values.  Arrays and tables in braces may run over several lines, with
comments in between, and may end in a comma; within braces a line may even end on either
side of an equals sign, though not inside a key.  Arrays and tables in braces nest to a
depth of eighty, and a key has at most as many parts.

Each reader takes the front of the text and returns what it has read with the rest.  The
readers of lists recurse on a bound for the number of elements, for which the length of
the text is always enough, since every element takes at least one character.
-/
import DirectorySaga.Toml.Quoted
import DirectorySaga.Toml.Scalar
import DirectorySaga.Toml.Table

namespace DirectorySaga.Toml

/-! ### Between the words -/

/-- Whether every carriage return is part of a line end. -/
def returnsEndLines : List Char → Bool
  | [] => true
  | '\r' :: '\n' :: rest => returnsEndLines rest
  | c :: rest => c ≠ '\r' && returnsEndLines rest

/-- The text without spaces at its front. -/
def skipSpaces (cs : List Char) : List Char := cs.dropWhile isSpace

/-- Whether `c` is not the beginning of a line end. -/
def isOnLine (c : Char) : Bool := c ≠ '\r' && c ≠ '\n'

/-- Whether what is left of the line may be a comment.  One with a control character may
not; it is left standing where it is, and nothing else that is read begins as it does. -/
def mayBeComment (cs : List Char) : Bool := !((cs.takeWhile isOnLine).any isControl)

/-- The text without a comment at its front. -/
def skipComment : List Char → List Char
  | '#' :: rest => if mayBeComment rest then rest.dropWhile isOnLine else '#' :: rest
  | cs => cs

/-- The text without spaces, line ends and comments at its front; `comment` says whether it
begins within one. -/
def skipBlank (comment : Bool) : List Char → List Char
  | [] => []
  | c :: rest =>
    if c = '\n' then skipBlank false rest
    else if comment then skipBlank true rest
    else if c = '#' && mayBeComment rest then skipBlank true rest
    else if isSpaceOrLineEnd c then skipBlank false rest
    else c :: rest

/-- The text behind the rest of a line on which nothing more than a comment may stand. -/
def endLine? (cs : List Char) : Option (List Char) :=
  let cs := skipComment (skipSpaces cs)
  if cs.isEmpty then some []
  else if atLineEnd cs then some (dropLineEnd cs)
  else none

/-! ### Keys -/

/-- Whether `c` may stand in a key without quotes. -/
def isBare (c : Char) : Bool := c.isAlphanum || c = '-' || c = '_'

/-- One part of a key. -/
def keyPart? (cs : List Char) : Option (String × List Char) :=
  match cs with
  | '"' :: _ | '\'' :: _ => quoted? cs
  | _ => do
    let word := cs.takeWhile isBare
    guard !word.isEmpty
    return (String.ofList word, cs.drop word.length)

/-- A key of at most `bound` parts: the parts before the last, and the last. -/
def dottedKey? : Nat → List Char → Option ((List String × String) × List Char)
  | 0, _ => none
  | bound + 1, cs => do
    let (part, cs) ← keyPart? cs
    match skipSpaces cs with
    | '.' :: rest => do
      let ((path, key), rest) ← dottedKey? bound (skipSpaces rest)
      return ((part :: path, key), rest)
    | _ => return (([], part), cs)

/-- How deep arrays and tables in braces may nest, and how many parts a key may have. -/
def maxDepth : Nat := 80

/-- A key: the parts before the last, and the last. -/
def key? (cs : List Char) : Option ((List String × String) × List Char) :=
  dottedKey? maxDepth cs

/-! ### Values -/

/-- A value with its key. -/
structure Assignment where
  path : List String
  key : String
  value : Value

/-- The table in braces that holds these values. -/
def inlineTable? (assignments : List Assignment) : Option Table :=
  assignments.foldlM (fun table a => table.assign a.path a.key a.value) ⟨.inline, []⟩

/-- A key, an equals sign and a value; `skip` passes over what may stand around the sign. -/
def assignment? (skip : List Char → List Char)
    (value? : List Char → Option (Value × List Char)) (cs : List Char) :
    Option (Assignment × List Char) := do
  let ((path, key), cs) ← key? cs
  let cs ← after? '=' (skip cs)
  let (value, cs) ← value? (skip cs)
  return (⟨path, key, value⟩, cs)

/-- Elements with commas between them, up to the closing bracket. -/
def elements? {α : Type} (element? : List Char → Option (α × List Char)) (closing : Char) :
    Nat → List Char → Option (List α × List Char)
  | 0, _ => none
  | bound + 1, cs =>
    match skipBlank false cs with
    | [] => none
    | c :: rest =>
      if c = closing then some ([], rest)
      else do
        let (a, cs) ← element? (c :: rest)
        match skipBlank false cs with
        | [] => none
        | c :: rest =>
          if c = closing then some ([a], rest)
          else do
            guard (c = ',')
            let (more, rest) ← elements? element? closing bound rest
            return (a :: more, rest)

/-- Whether `c` may stand in a word. -/
def isWordChar (c : Char) : Bool :=
  !(isSpaceOrLineEnd c || c = '=' || c = ',' || c = '#' ||
    c = '[' || c = ']' || c = '{' || c = '}')

/-- Whether `c` may stand in a word behind a space. -/
def isWordStart (c : Char) : Bool := isWordChar c && c ≠ '"' && c ≠ '\''

/-- The word at the front of the text, and what follows it.  Spaces belong to a word that
goes on behind them. -/
def splitWord : List Char → List Char × List Char
  | [] => ([], [])
  | c :: rest =>
    if isWordChar c || (isSpace c && (skipSpaces rest).head?.any isWordStart) then
      let (word, after) := splitWord rest
      (c :: word, after)
    else ([], c :: rest)

/-- A scalar that is no string. -/
def word? (cs : List Char) : Option (Value × List Char) := do
  let (word, rest) := splitWord cs
  let s ← scalarOfWord? word
  return (.scalar s, rest)

/-- A value in which arrays and tables nest to the depth. -/
def value? : Nat → List Char → Option (Value × List Char)
  | depth, cs =>
    match cs with
    | '"' :: _ | '\'' :: _ => (string? cs).map fun (text, rest) => (.scalar (.string text), rest)
    | '[' :: rest =>
      match depth with
      | 0 => none
      | depth + 1 => do
        let (items, rest) ← elements? (value? depth) ']' (rest.length + 1) rest
        return (.array false items, rest)
    | '{' :: rest =>
      match depth with
      | 0 => none
      | depth + 1 => do
        let read := assignment? (skipBlank false) (value? depth)
        let (assignments, rest) ← elements? read '}' (rest.length + 1) rest
        return ((← inlineTable? assignments).toValue, rest)
    | _ => word? cs

/-! ### Lines -/

/-- The document as read so far, and the path of the table that lines are added to. -/
structure Draft where
  root : Table
  current : List String

/-- The document before its first line. -/
def Draft.empty : Draft := ⟨⟨.header, []⟩, []⟩

/-- A header in double brackets, behind them. -/
def arrayHeader? (draft : Draft) (cs : List Char) : Option (Draft × List Char) := do
  let ((path, key), cs) ← key? (skipSpaces cs)
  let cs ← after? ']' (skipSpaces cs)
  let cs ← after? ']' cs
  return (⟨← draft.root.extend path key, path ++ [key]⟩, cs)

/-- A header in single brackets, behind the opening one. -/
def tableHeader? (draft : Draft) (cs : List Char) : Option (Draft × List Char) := do
  let ((path, key), cs) ← key? (skipSpaces cs)
  let cs ← after? ']' (skipSpaces cs)
  return (⟨← draft.root.define path key, path ++ [key]⟩, cs)

/-- A key with its value. -/
def entry? (draft : Draft) (cs : List Char) : Option (Draft × List Char) := do
  let (a, cs) ← assignment? skipSpaces (value? maxDepth) cs
  let root ← draft.root.update .above (·.assign a.path a.key a.value) draft.current
  return ({ draft with root }, cs)

/-- What stands on a line, if it is neither empty nor a comment. -/
def statement? (draft : Draft) : List Char → Option (Draft × List Char)
  | '[' :: '[' :: rest => arrayHeader? draft rest
  | '[' :: rest => tableHeader? draft rest
  | cs => entry? draft cs

/-- All lines, of which there are at most `bound`. -/
def lines? : Nat → Draft → List Char → Option Draft
  | 0, _, _ => none
  | bound + 1, draft, cs =>
    match skipBlank false cs with
    | [] => some draft
    | cs => do
      let (draft, cs) ← statement? draft cs
      lines? bound draft (← endLine? cs)

/-- The text without a byte order mark at its front. -/
def dropMark : List Char → List Char
  | '\uFEFF' :: rest => rest
  | cs => cs

/-- The table that the document is, or nothing if the text is no TOML. -/
def document? (text : String) : Option Table := do
  let cs := dropMark text.toList
  guard (returnsEndLines cs)
  return (← lines? (cs.length + 1) .empty cs).root

end DirectorySaga.Toml
