/-
Building the tables of a document line by line.

A header or a dotted key names a table by a path.  What is missing on the path is added;
what is there must be a table that may still grow, or an array of tables, of which the
last one is meant.  A table in braces never grows.  A dotted key moreover cannot reach
into a table that a header has defined, and cannot add to one that exists only on the
path to another header.
-/
import DirectorySaga.Toml.Value

namespace DirectorySaga.Toml

/-- Whether a path of the kind that adds tables of origin `via` may pass through a table. -/
def Origin.admits (origin via : Origin) : Bool :=
  match origin with
  | .inline => false
  | .header => via != .dotted
  | .above | .dotted => true

namespace Table

/-- Changes the table at the end of the path, adding tables of origin `via` on the way. -/
def update (via : Origin) (change : Table → Option Table) : List String → Table → Option Table
  | [], t => change t
  | key :: path, t =>
    match t.get? key with
    | none => do
      let below ← update via change path ⟨via, []⟩
      return t.set key below.toValue
    | some (.table origin entries) => do
      guard (origin.admits via)
      let below ← update via change path ⟨origin, entries⟩
      return t.set key below.toValue
    | some (.array true items) =>
      match items.getLast? with
      | some (.table origin entries) => do
        let below ← update via change path ⟨origin, entries⟩
        return t.set key (.array true (items.dropLast ++ [below.toValue]))
      | _ => none
    | some _ => none

/-- Gives a value to a dotted key, whose last part is `key`. -/
def assign (path : List String) (key : String) (v : Value) (t : Table) : Option Table :=
  t.update .dotted (fun parent => do
    guard ((parent.origin == .dotted) != path.isEmpty)
    guard (parent.get? key).isNone
    return parent.set key v) path

/-- Begins the table `key` below the path; a table that exists only on the path to others
becomes one of its own. -/
def define (path : List String) (key : String) (t : Table) : Option Table :=
  t.update .above (fun parent =>
    match parent.get? key with
    | none => some (parent.set key (.table .header []))
    | some (.table .above entries) => some (parent.set key (.table .header entries))
    | some _ => none) path

/-- Begins the next table of the array `key` below the path. -/
def extend (path : List String) (key : String) (t : Table) : Option Table :=
  t.update .above (fun parent =>
    match parent.get? key with
    | none => some (parent.set key (.array true [.table .header []]))
    | some (.array true items) => some (parent.set key (.array true (items ++ [.table .header []])))
    | some _ => none) path

end Table

end DirectorySaga.Toml
