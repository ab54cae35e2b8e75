import Stylesheet.Document.Node

/-!
# What can be wrong with a YAML text
-/

namespace Stylesheet.Yaml

/-- Why the value of a scalar, or a character of it, cannot be made. -/
inductive Unreadable where
  /-- An escape names a code beyond the last character. -/
  | escapeOutOfRange
  /-- An escape names a code of more than 31 bits. -/
  | escapeTooLong
  /-- A number of the version has too many digits. -/
  | versionTooLong
  /-- Nothing is left of a number without its sign and separators. -/
  | noDigits
  | notANumber
  /-- A place of a number in base sixty is beyond all doubles. -/
  | placeTooLarge
  | notATruthValue
  | notATimestamp
  /-- A timestamp names a date or a time that does not exist. -/
  | noSuchTime
deriving DecidableEq, Repr

/-- What is wrong with the YAML of a text. -/
inductive Fault where
  /-- The text is no YAML document, or none that is read safely. -/
  | malformed
  | unreadable (why : Unreadable)
  /-- Collections are nested beyond the limit. -/
  | tooDeep

/-- Why a text is not read as a document. -/
inductive Error where
  /-- The text is not even opened: a character of it is forbidden. -/
  | forbiddenCharacter
  | fault (f : Fault)
  /-- A collection contains itself. -/
  | recursiveAlias
  /-- Two keys of a mapping are the same scalar. -/
  | duplicateKey (key : Scalar)

/-- The message of an error that is one of the document, not of a single scalar. -/
def Error.message? : Error → Option String
  | fault .malformed => some "Invalid YAML"
  | recursiveAlias => some "Recursive alias in document."
  | duplicateKey key => if key.isShowable then some s!"Duplicate key '{key.display}'." else none
  | forbiddenCharacter | fault _ => none

end Stylesheet.Yaml
