/-
What a directory answers when it refuses.
-/
import DirectorySaga.Name.Fault
import DirectorySaga.Name.Parser
import DirectorySaga.Name.Printer

namespace DirectorySaga

/-- Why a directory call fails. -/
inductive DirectoryError
  /-- The text or name cannot be used as a name. -/
  | invalidName (input : String) (fault : NameFault)
  /-- An entry is bound at the name already. -/
  | nameAlreadyBound (name : Name)
  /-- No entry is bound at the name. -/
  | nameNotFound (name : Name)
  /-- Entries are bound below the name. -/
  | notEmpty (name : Name)
  /-- The entry lacks an attribute, or one of its values, that was to be removed. -/
  | noSuchAttribute (name : Name) (id : String)
  /-- The directory cannot be reached. -/
  | unavailable (message : String)
deriving DecidableEq

/-- The error in words. -/
def DirectoryError.message : DirectoryError → String
  | invalidName input fault => s!"invalid distinguished name '{input}': {fault.message}"
  | nameAlreadyBound name => s!"entry '{name.text}' already exists"
  | nameNotFound name => s!"no such entry '{name.text}'"
  | notEmpty name => s!"entry '{name.text}' has subordinate entries"
  | noSuchAttribute name id => s!"entry '{name.text}' has no attribute '{id}'"
  | unavailable message => s!"directory unavailable: {message}"

/-- The name written in the text, or the error that quotes the text. -/
def Name.read (text : String) : Except DirectoryError Name :=
  (Name.parse text).mapError (.invalidName text)

/-- The form in which a name is stored. -/
def Name.serialize (n : Name) : String := n.text

/-- The name that was stored in this form, or the error in words. -/
def Name.deserialize (stored : String) : Except String Name :=
  (Name.read stored).mapError DirectoryError.message

/-- The relative name of these components; without any it is refused. -/
def Rdn.ofComponents (components : List Component) : Except DirectoryError Rdn :=
  match Rdn.ofComponents? components with
  | some rdn => .ok rdn
  | none => .error (.invalidName "" .emptyRelativeName)

end DirectorySaga
