/-
The configuration in a TOML document.

A configuration is the `transaction` table of a document, and the only thing in it is
`renaming-strategy`, which names one of two kinds by `kind` and gives what the kind
needs.  Whatever is left out has a default, and keys that mean nothing are passed over.

A table of fixed keys may also be written as an array of their values in order.  For
`transaction` surplus values are passed over, for `renaming-strategy` they are refused.

Even what is passed over must be representable: integers in 128 bits, and within the
strategy in 64.
-/
import DirectorySaga.Configuration.Basic
import DirectorySaga.Configuration.Error
import DirectorySaga.Toml.Parser

namespace DirectorySaga.Configuration

open Toml (Value)

/-- What is read, or no reason but that the document is wrong, or the error of a name. -/
abbrev Reading (α : Type) : Type := Except (Option DirectoryError) α

/-- Fails without a reason. -/
def refused {α : Type} : Reading α := .error none

/-- A value that must be a string. -/
def readString : Value → Reading String
  | .scalar (.string text) => .ok text
  | _ => refused

/-- A value that must be the text of a name. -/
def readName (v : Value) : Reading Name := do
  let text ← readString v
  (Name.read text).mapError some

/-- The choice of a kind, from the values of its keys. -/
def readKind (kind : Value) (suffix node : Option Value) : Reading ParkingChoice := do
  match ← readString kind, suffix, node with
  | "default", none, _ => return .default
  | "default", some v, _ => return .suffix (← readString v)
  | "different-subtree", _, some v => return .subtree (← readName v)
  | _, _, _ => refused

/-- A renaming strategy. -/
def readStrategy (v : Value) : Reading ParkingChoice := do
  unless v.all (·.fits 64) do refused
  match v with
  | .table _ entries =>
    match entries.lookup "kind" with
    | some kind => readKind kind (entries.lookup "temp-suffix") (entries.lookup "subtree-node")
    | none => refused
  | .array _ (kind :: fields) =>
    let choice ← readKind kind fields.head? fields.head?
    if fields.tail.isEmpty then return choice else refused
  | _ => refused

/-- Reads the value of `key` among entries, where `read` succeeds, and passes over the
others. -/
def readEntry {α : Type} (key : String) (read : Value → Reading α) (absent : α) :
    List (String × Value) → Reading α
  | [] => .ok absent
  | (k, v) :: more => do
    if k = key then
      let a ← read v
      readEntry key read a more
    else if v.all (·.fits 128) then readEntry key read absent more
    else refused

/-- The section on transactions.  A date is a table of one key that means nothing. -/
def readSection : Value → Reading ParkingChoice
  | .table _ entries => readEntry "renaming-strategy" readStrategy .default entries
  | .array _ [] | .scalar (.dateTime _) => .ok .default
  | .array _ (strategy :: _) => readStrategy strategy
  | .scalar _ => refused

/-- The configuration in the text of a document. -/
def ofText (text : String) : Except ConfigurationError Configuration :=
  match Toml.document? text with
  | none => .error (.malformed none)
  | some document =>
    match readEntry "transaction" readSection .default document.entries with
    | .ok choice => .ok ⟨choice⟩
    | .error cause => .error (.malformed cause)

/-- The configuration in the file at the path, given the bytes of the file if there is
one. -/
def ofFile (path : String) (content : Option ByteArray) : Except ConfigurationError Configuration :=
  match content.bind String.fromUTF8? with
  | some text => ofText text
  | none => .error (.unreadable path)

end DirectorySaga.Configuration
