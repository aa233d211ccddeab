/-!
# Flaws of a JSON text

The ways in which a text fails to be JSON.
-/

namespace FlowArtifact.Json

inductive Flaw where
  | endInValue
  | endInList
  | endInObject
  | endInString
  | expectedColon
  | expectedListCommaOrEnd
  | expectedObjectCommaOrEnd
  | expectedIdent
  | expectedValue
  | invalidEscape
  | invalidNumber
  | numberOutOfRange
  | controlCharacter
  | keyMustBeText
  | loneSurrogate
  | trailingComma
  | trailingCharacters
  | endOfHexEscape
deriving DecidableEq

namespace Flaw

def message : Flaw → String
  | endInValue => "EOF while parsing a value"
  | endInList => "EOF while parsing a list"
  | endInObject => "EOF while parsing an object"
  | endInString => "EOF while parsing a string"
  | expectedColon => "expected `:`"
  | expectedListCommaOrEnd => "expected `,` or `]`"
  | expectedObjectCommaOrEnd => "expected `,` or `\x7d`"
  | expectedIdent => "expected ident"
  | expectedValue => "expected value"
  | invalidEscape => "invalid escape"
  | invalidNumber => "invalid number"
  | numberOutOfRange => "number out of range"
  | controlCharacter => "control character (\\u0000-\\u001F) found while parsing a string"
  | keyMustBeText => "key must be a string"
  | loneSurrogate => "lone leading surrogate in hex escape"
  | trailingComma => "trailing comma"
  | trailingCharacters => "trailing characters"
  | endOfHexEscape => "unexpected end of hex escape"

end Flaw

end FlowArtifact.Json
