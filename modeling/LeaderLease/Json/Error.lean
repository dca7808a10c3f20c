import LeaderLease.Json.Number
import LeaderLease.Duration.Seconds
import LeaderLease.Text.Quoted
import LeaderLease.Text.Utf8
import LeaderLease.Time.Reading

/-!
Everything that can be wrong with a JSON text, and the words for it. Where in the text it is wrong is told by a locator,
which is left open here.
-/

namespace LeaderLease.Json

inductive Found where
  | null
  | boolean (b : Bool)
  | number (n : Number)
  | text (s : String)
  | sequence
  | map
  deriving DecidableEq

def Found.describe : Found → String
  | null => "null"
  | boolean b => "boolean `" ++ toString b ++ "`"
  | number (.natural n) => "integer `" ++ toString n ++ "`"
  | number (.negative n) => "integer `-" ++ toString n ++ "`"
  | number (.real isNegative magnitude) =>
    "floating point `" ++ .ofList (Number.writeReal isNegative magnitude) ++ "`"
  | text s => "string " ++ quoted s
  | sequence => "sequence"
  | map => "map"

inductive Expected where
  | text
  | real
  | word32
  | word64
  | unit
  | timestamp
  | shape (name : String)
  deriving DecidableEq

def Expected.describe : Expected → String
  | text => "a string"
  | real => "f64"
  | word32 => "u32"
  | word64 => "u64"
  | unit => "unit"
  | timestamp => "an RFC 3339 formatted date and time string"
  | shape name => "struct " ++ name

inductive Error where
  | endInValue
  | endInText
  | endInList
  | endInObject
  | expectedValue
  | expectedWord
  | expectedColon
  | expectedCommaOrEndOfObject
  | expectedCommaOrEndOfList
  | keyIsNoText
  | trailingComma
  | trailingCharacters
  | invalidNumber
  | numberOutOfRange
  | invalidEscape
  | controlCharacter
  | loneSurrogate
  | unfinishedSurrogatePair
  | notUnicode
  | wrongType (found : Found) (expected : Expected)
  | wrongValue (found : Found) (expected : Expected)
  | wrongLength (length : Nat) (shapeName : String) (members : Nat)
  | unknownVariant (name first second : String)
  | missingMember (key : String)
  | repeatedMember (key : String)
  | noDuration (reason : Duration.SecondsError)
  | noTimestamp (reason : Timestamp.ReadError)
  deriving DecidableEq

/-- The grammar is broken, a value is not the one that is wanted, or the text ends too early. -/
inductive Category where
  | grammar
  | data
  | ended
  deriving DecidableEq

namespace Error

def category : Error → Category
  | endInValue | endInText | endInList | endInObject => .ended
  | wrongType .. | wrongValue .. | wrongLength .. | unknownVariant .. | missingMember _ | repeatedMember _
  | noDuration _ | noTimestamp _ => .data
  | _ => .grammar

/-- The words for it, without the place. -/
def message : Error → String
  | endInValue => "EOF while parsing a value"
  | endInText => "EOF while parsing a string"
  | endInList => "EOF while parsing a list"
  | endInObject => "EOF while parsing an object"
  | expectedValue => "expected value"
  | expectedWord => "expected ident"
  | expectedColon => "expected `:`"
  | expectedCommaOrEndOfObject => "expected `,` or `\x7d`"
  | expectedCommaOrEndOfList => "expected `,` or `]`"
  | keyIsNoText => "key must be a string"
  | trailingComma => "trailing comma"
  | trailingCharacters => "trailing characters"
  | invalidNumber => "invalid number"
  | numberOutOfRange => "number out of range"
  | invalidEscape => "invalid escape"
  | controlCharacter => "control character (\\u0000-\\u001F) found while parsing a string"
  | loneSurrogate => "lone leading surrogate in hex escape"
  | unfinishedSurrogatePair => "unexpected end of hex escape"
  | notUnicode => "invalid unicode code point"
  | wrongType found expected => "invalid type: " ++ found.describe ++ ", expected " ++ expected.describe
  | wrongValue found expected => "invalid value: " ++ found.describe ++ ", expected " ++ expected.describe
  | wrongLength length shapeName members =>
    "invalid length " ++ toString length ++ ", expected struct " ++ shapeName ++ " with " ++ toString members ++
      " elements"
  | unknownVariant name first second =>
    "unknown variant `" ++ name ++ "`, expected `" ++ first ++ "` or `" ++ second ++ "`"
  | missingMember key => "missing field `" ++ key ++ "`"
  | repeatedMember key => "duplicate field `" ++ key ++ "`"
  | noDuration reason => reason.message
  | noTimestamp reason => reason.message

end Error

/-- A line and a column of a text. The lines are counted from one, and line zero stands for no place. -/
structure Place where
  line : Nat
  column : Nat
  deriving DecidableEq

def Place.none : Place := ⟨0, 0⟩

/-- How far a reader has come in a text when it gives up with an error. -/
abbrev Locator := Bytes → Error → Place

structure LocatedError where
  error : Error
  place : Place
  deriving DecidableEq

namespace LocatedError

instance : Coe Error LocatedError := ⟨fun error => ⟨error, .none⟩⟩

def message (e : LocatedError) : String :=
  if e.place.line = 0 then e.error.message
  else e.error.message ++ " at line " ++ toString e.place.line ++ " column " ++ toString e.place.column

end LocatedError

end LeaderLease.Json
