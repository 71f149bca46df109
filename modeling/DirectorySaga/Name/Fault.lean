/-
What can be wrong with a name.

The first five faults are found while a name is read from text; the others arise when
a well-formed name is used where it makes no sense.
-/
namespace DirectorySaga

/-- Why a name is refused. -/
inductive NameFault
  /-- A backslash stands in the type of a component. -/
  | escapeOutsideValue
  /-- A component has no equals sign. -/
  | missingEquals
  /-- A component has nothing, or only white space, before its equals sign. -/
  | emptyType
  /-- The bytes of a value are no UTF-8. -/
  | valueNotUtf8
  /-- The text ends in a backslash. -/
  | trailingEscape
  /-- A relative name has no component. -/
  | emptyRelativeName
  /-- The root would be bound. -/
  | rootBound
  /-- An entry would be moved into its own subtree. -/
  | movedBelowItself
  /-- The root has no leaf that could be changed. -/
  | rootHasNoLeaf
deriving DecidableEq

/-- The fault in words. -/
def NameFault.message : NameFault → String
  | escapeOutsideValue => "escape outside attribute value"
  | missingEquals => "missing '='"
  | emptyType => "empty attribute type"
  | valueNotUtf8 => "attribute value is not valid UTF-8"
  | trailingEscape => "trailing escape"
  | emptyRelativeName => "empty relative name"
  | rootBound => "the root cannot be bound"
  | movedBelowItself => "an entry cannot be moved below itself"
  | rootHasNoLeaf => "the root has no leaf to rename"

end DirectorySaga
