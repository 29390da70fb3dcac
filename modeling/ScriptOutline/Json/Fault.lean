/-!
What may be wrong with a text as JSON.
-/

set_option autoImplicit false

namespace ScriptOutline.Json

/-- What makes a text no JSON. -/
inductive Fault where
  | endInArray | endInObject | endInText | endInValue
  | noColon | noArraySeparator | noObjectSeparator | noWord | noValue | noKey
  | badEscape | badNumber | numberTooLarge | unpairedSurrogate | endOfSurrogates
  | controlCharacter | trailingComma | trailingCharacters | tooDeep
  deriving DecidableEq, Repr

namespace Fault

/-- Whether the text ends too early, rather than going wrong. -/
def isEnd : Fault → Bool
  | endInArray | endInObject | endInText | endInValue => true
  | _ => false

def message : Fault → String
  | endInArray => "EOF while parsing a list"
  | endInObject => "EOF while parsing an object"
  | endInText => "EOF while parsing a string"
  | endInValue => "EOF while parsing a value"
  | noColon => "expected `:`"
  | noArraySeparator => "expected `,` or `]`"
  | noObjectSeparator => "expected `,` or `\x7d`"
  | noWord => "expected ident"
  | noValue => "expected value"
  | noKey => "key must be a string"
  | badEscape => "invalid escape"
  | badNumber => "invalid number"
  | numberTooLarge => "number out of range"
  | unpairedSurrogate => "lone leading surrogate in hex escape"
  | endOfSurrogates => "unexpected end of hex escape"
  | controlCharacter => "control character (\\u0000-\\u001F) found while parsing a string"
  | trailingComma => "trailing comma"
  | trailingCharacters => "trailing characters"
  | tooDeep => "recursion limit exceeded"

end Fault

end ScriptOutline.Json
