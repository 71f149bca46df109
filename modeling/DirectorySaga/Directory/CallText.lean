/-
The text of a directory call, as a log shows it.

A call is written as its word and its names; the items of a modification follow as a
JSON array, in which every item is an array of its own: what is done, the id, and the
array of values.
-/
import DirectorySaga.Directory.Watched
import DirectorySaga.Text.Json

namespace DirectorySaga

/-- The word for what an item does. -/
def ModificationOp.name : ModificationOp → String
  | add => "add"
  | replace => "replace"
  | remove => "remove"

/-- The text of an item. -/
def Modification.text (item : Modification) : String :=
  Text.jsonArray
    [Text.jsonString item.op.name, Text.jsonString item.attr.id,
      Text.jsonArray (item.attr.values.map Text.jsonString)]

/-- The text of a call. -/
def DirectoryCall.text : DirectoryCall → String
  | lookup name => s!"lookup {name.text}"
  | hasChildren name => s!"has_children {name.text}"
  | write (.bind name _) => s!"bind {name.text}"
  | write (.rebind name _) => s!"rebind {name.text}"
  | write (.rename old new) => s!"rename {old.text} -> {new.text}"
  | write (.unbind name) => s!"unbind {name.text}"
  | write (.modifyAttributes name items) =>
    s!"modify {name.text} " ++ Text.jsonArray (items.map Modification.text)

end DirectorySaga
