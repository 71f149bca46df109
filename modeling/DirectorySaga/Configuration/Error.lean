/-
Why a transaction manager cannot be set up.
-/
import DirectorySaga.Error

namespace DirectorySaga

/-- Why a configuration is refused. -/
inductive ConfigurationError
  /-- There is no text at the path. -/
  | unreadable (path : String)
  /-- The text is no configuration; if only a name in it is wrong, that error is kept. -/
  | malformed (cause : Option DirectoryError)
  /-- The directory is accessed anonymously and for reading only. -/
  | anonymousReadOnly
deriving DecidableEq

/-- The error in words. -/
def ConfigurationError.message : ConfigurationError → String
  | unreadable path => s!"failed to read transaction configuration '{path}'"
  | malformed _ => "failed to parse transaction configuration"
  | anonymousReadOnly =>
    "compensating transactions cannot be used with an anonymous read-only directory"

end DirectorySaga
