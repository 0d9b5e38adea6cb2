import Mathlib.Data.String.Basic

/-! # PV identifiers

`sanitizePVName` splits a URI `protocol://name.field` with the regular expression
`^(pva?|ca)://([a-zA-Z0-9-_]+(?::[a-zA-Z0-9-_]+)*)(\.([a-zA-Z0-9-_]+(?:\.[a-zA-Z0-9_]+)*))?$`. -/

namespace K2eg

/-- `PV`: the parts of an accepted identifier. -/
structure PV where
  protocol : String
  name : String
  fieldName : String
  deriving DecidableEq, Repr

/-- `[a-zA-Z0-9_]`. -/
def isFieldChar (c : Char) : Bool := c.isAlphanum || c == '_'

/-- `[a-zA-Z0-9-_]`. -/
def isNameChar (c : Char) : Bool := isFieldChar c || c == '-'

/-- The parts of a text between the occurrences of a separator. -/
def segments (separator : Char) : List Char → List (List Char)
  | [] => [[]]
  | c :: rest =>
    if c = separator then [] :: segments separator rest
    else
      match segments separator rest with
      | [] => [[c]]
      | first :: others => (c :: first) :: others

def isSegment (allowed : Char → Bool) (segment : List Char) : Bool :=
  !segment.isEmpty && segment.all allowed

/-- `[a-zA-Z0-9-_]+(?::[a-zA-Z0-9-_]+)*`. -/
def isBaseName (text : List Char) : Bool :=
  (segments ':' text).all (isSegment isNameChar)

/-- `[a-zA-Z0-9-_]+(?:\.[a-zA-Z0-9_]+)*`; only the first part may contain a dash. -/
def isFieldName (text : List Char) : Bool :=
  match segments '.' text with
  | [] => false
  | first :: others => isSegment isNameChar first && others.all (isSegment isFieldChar)

/-- `(pva?|ca)://` and what follows. -/
def splitProtocol : List Char → Option (String × List Char)
  | 'p' :: 'v' :: 'a' :: ':' :: '/' :: '/' :: rest => some ("pva", rest)
  | 'p' :: 'v' :: ':' :: '/' :: '/' :: rest => some ("pv", rest)
  | 'c' :: 'a' :: ':' :: '/' :: '/' :: rest => some ("ca", rest)
  | _ => none

/-- `EpicsServiceManager::sanitizePVName`. No character of the base name is a dot, so the
first dot starts the field. -/
def sanitizePVName (uri : String) : Option PV :=
  match splitProtocol uri.toList with
  | none => none
  | some (protocol, rest) =>
    let base := rest.takeWhile (· != '.')
    if isBaseName base then
      match rest.dropWhile (· != '.') with
      | [] => some { protocol, name := String.ofList base, fieldName := "value" }
      | _ :: field =>
        if isFieldName field then
          some { protocol, name := String.ofList base, fieldName := String.ofList field }
        else none
    else none

example : sanitizePVName "ca://ioc:beam.EGU" = some ⟨"ca", "ioc:beam", "EGU"⟩ := by decide

end K2eg
