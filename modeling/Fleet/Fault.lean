import Fleet.Json.Literal

/-!
# Faults of access

A reply may have any shape, and asking it for something that its shape does not have is a fault:
the program stops that call with the fault and goes on to what is laid down for unexpected
trouble.  Each fault says what was asked of what kind of value.  One fault comes before any access:
a body may be nested so deep that the program cannot get through it.
-/

namespace Fleet

/-- What went wrong in taking a value apart. -/
inductive Fault where
  /-- a value of this kind has no operation of this name -/
  | noOperation (kind : Json.Kind) (operation : String)
  /-- an object has no member of this name, or a table no entry under this key -/
  | missingKey (key : Json)
  /-- a value of this kind has no parts that can be picked -/
  | noParts (kind : Json.Kind)
  /-- the parts of a value of this kind are not picked by name -/
  | notByName (kind : Json.Kind)
  /-- a value of this kind has no part at that place -/
  | noSuchPlace (kind : Json.Kind)
  /-- a value of this kind cannot be gone through -/
  | notASequence (kind : Json.Kind)
  /-- nothing can be contained in a value of this kind -/
  | noMembership (kind : Json.Kind)
  /-- a value of this kind cannot be a key -/
  | notAKey (kind : Json.Kind)
  /-- a text was needed and a value of this kind came -/
  | notText (kind : Json.Kind)
  /-- a text of ASCII characters was needed and a value of this kind came -/
  | notEncodedText (kind : Json.Kind)
  /-- a text holds a character outside ASCII -/
  | notAscii
  /-- a value of this kind cannot be filled up to a width -/
  | noWidth (kind : Json.Kind)
  /-- a value is none of those that are allowed -/
  | notAllowed (value : Json)
  /-- too few or too many arguments -/
  | wrongArguments
  /-- a value was set on a closed stream -/
  | closedStream
  /-- an array or object stands too deep in a text for it to be read -/
  | nestedTooDeep (container : Json.Container)
deriving Inhabited

namespace Fault

/-- The families of faults that callers tell apart. -/
inductive Family where
  | attribute | key | type | index | value | state
deriving DecidableEq, Repr

/-- The family of a fault. -/
def family : Fault → Family
  | noOperation .. => .attribute
  | missingKey .. => .key
  | noSuchPlace .. => .index
  | notAscii | notAllowed .. => .value
  | closedStream | nestedTooDeep _ => .state
  | _ => .type

/-- The wording of a fault. -/
def message : Fault → String
  | noOperation kind operation => s!"'{kind.word}' object has no attribute '{operation}'"
  | missingKey key => key.literal
  | noParts kind => s!"'{kind.word}' object is not subscriptable"
  | notByName .str => "string indices must be integers, not 'str'"
  | notByName kind => s!"{kind.word} indices must be integers or slices, not str"
  | noSuchPlace .str => "string index out of range"
  | noSuchPlace kind => s!"{kind.word} index out of range"
  | notASequence kind => s!"'{kind.word}' object is not iterable"
  | noMembership kind => s!"argument of type '{kind.word}' is not iterable"
  | notAKey kind => s!"unhashable type: '{kind.word}'"
  | notText kind => s!"expected string or bytes-like object, got '{kind.word}'"
  | notEncodedText kind =>
    s!"argument should be a bytes-like object or ASCII string, not '{kind.word}'"
  | notAscii => "string argument should contain only ASCII characters"
  | noWidth kind => s!"unsupported format string passed to {kind.word}.__format__"
  | notAllowed value => s!"{value.literal} is not allowed"
  | wrongArguments => "wrong number of arguments"
  | closedStream => "Cannot set a value on a closed stream"
  | nestedTooDeep container =>
    s!"maximum recursion depth exceeded while decoding a JSON {container.word} from a unicode string"

end Fault

end Fleet
