/-!
# Failures of reading JSON

Why a text is no JSON and where reading stopped. The place is counted in bytes, and a failure keeps
how many bytes follow it, so that it can be raised without knowing what came before.
-/
namespace SiteManifest.Json

inductive Fault where
  | endInValue
  | endInList
  | endInObject
  | endInString
  | expectedValue
  | expectedIdent
  | expectedColon
  | expectedCommaOrBracket
  | expectedCommaOrBrace
  | keyNotString
  | trailingComma
  | trailingCharacters
  | invalidNumber
  | numberOutOfRange
  | invalidEscape
  | unpairedSurrogate
  | unfinishedSurrogatePair
  | controlCharacter
  | tooDeep
  deriving DecidableEq, Repr

def Fault.message : Fault → String
  | .endInValue => "EOF while parsing a value"
  | .endInList => "EOF while parsing a list"
  | .endInObject => "EOF while parsing an object"
  | .endInString => "EOF while parsing a string"
  | .expectedValue => "expected value"
  | .expectedIdent => "expected ident"
  | .expectedColon => "expected `:`"
  | .expectedCommaOrBracket => "expected `,` or `]`"
  | .expectedCommaOrBrace => "expected `,` or `\x7d`"
  | .keyNotString => "key must be a string"
  | .trailingComma => "trailing comma"
  | .trailingCharacters => "trailing characters"
  | .invalidNumber => "invalid number"
  | .numberOutOfRange => "number out of range"
  | .invalidEscape => "invalid escape"
  | .unpairedSurrogate => "lone leading surrogate in hex escape"
  | .unfinishedSurrogatePair => "unexpected end of hex escape"
  | .controlCharacter => "control character (\\u0000-\\u001F) found while parsing a string"
  | .tooDeep => "recursion limit exceeded"

structure Failure where
  fault : Fault
  /-- The number of bytes after the last one that was read. -/
  left : Nat
  deriving DecidableEq, Repr

/-- The size of a text in UTF-8. -/
def byteCount : List Char → Nat
  | [] => 0
  | c :: cs => c.utf8Size + byteCount cs

/-- A failure once everything before `rest` has been read. -/
def Failure.here (fault : Fault) (rest : List Char) : Failure := ⟨fault, byteCount rest⟩

/-- A failure at the next byte of `rest`, which counts as read; at the end nothing more is read. -/
def Failure.onNext (fault : Fault) (rest : List Char) : Failure := ⟨fault, byteCount rest - 1⟩

/-- The line of the byte before `offset` and the number of its bytes up to there. A line end
belongs to the line that it starts, as its byte zero. -/
def position (line column : Nat) : (cs : List Char) → (offset : Nat) → Nat × Nat
  | [], _ => (line, column)
  | c :: cs, offset =>
    if offset < c.utf8Size then (line, column + offset)
    else if c = '\n' then position (line + 1) 0 cs (offset - 1)
    else position line (column + c.utf8Size) cs (offset - c.utf8Size)

def Failure.message (failure : Failure) (text : String) : String :=
  let (line, column) := position 1 0 text.toList (byteCount text.toList - failure.left)
  failure.fault.message ++ " at line " ++ toString line ++ " column " ++ toString column

end SiteManifest.Json
