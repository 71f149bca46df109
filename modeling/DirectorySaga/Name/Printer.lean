/-
The text of a name.

Levels are separated by a comma and a space, components by a plus sign, and type and
value by an equals sign.  In a value a backslash protects whatever could be mistaken
for such a sign, and also a number sign or a space at the front and a space at the end.
Types are written as they are.

The text is built as a list of characters, so that it can be compared with what the
reader takes apart.
-/
import DirectorySaga.Name.Basic

namespace DirectorySaga

/-! ### Components -/

namespace Component

/-- Whether `c` needs a backslash wherever it stands in a value. -/
def isReserved (c : Char) : Bool := [',', '+', '"', '\\', '<', '>', ';', '='].contains c

/-- The character, behind a backslash if `guarded`. -/
def writeChar (guarded : Bool) (c : Char) : List Char := if guarded then ['\\', c] else [c]

/-- The written form of the part of a value behind its first character. -/
def escapeTail : List Char → List Char
  | [] => []
  | [c] => writeChar (isReserved c || c = ' ') c
  | c :: d :: rest => writeChar (isReserved c) c ++ escapeTail (d :: rest)

/-- The written form of a value. -/
def escapeValue : List Char → List Char
  | [] => []
  | c :: rest => writeChar (isReserved c || c = '#' || c = ' ') c ++ escapeTail rest

/-- The characters of `type=value`. -/
def chars (c : Component) : List Char := c.key.toList ++ '=' :: escapeValue c.value.toList

/-- The text of the component. -/
def text (c : Component) : String := String.ofList c.chars

end Component

/-! ### Names -/

/-- The characters of the components, joined by plus signs. -/
def Rdn.chars (r : Rdn) : List Char := ['+'].intercalate (r.components.map Component.chars)

/-- The text of the relative name. -/
def Rdn.text (r : Rdn) : String := String.ofList r.chars

/-- The characters of the levels, leaf first. -/
def Name.chars (n : Name) : List Char := [',', ' '].intercalate (n.levels.map Rdn.chars)

/-- The text of the name. -/
def Name.text (n : Name) : String := String.ofList n.chars

end DirectorySaga
