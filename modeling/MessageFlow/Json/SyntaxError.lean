import MessageFlow.Json.Shape

/-! What can be wrong with JSON text, and where. A position counts lines from one and, within the line,
    the bytes consumed when the fault is seen. -/

namespace MessageFlow
namespace Json

/-- A place in a text: the line, and the bytes of it consumed so far. -/
structure Position where
  line : Nat
  column : Nat
deriving DecidableEq, Repr

namespace Position

def start : Position := ⟨1, 0⟩

/-- Behind a character. -/
def after (p : Position) (c : Char) : Position :=
  if c = '\n' then ⟨p.line + 1, 0⟩ else ⟨p.line, p.column + c.utf8Size⟩

/-- Behind the first byte of a character. -/
def afterByte (p : Position) (c : Char) : Position :=
  if c = '\n' then ⟨p.line + 1, 0⟩ else ⟨p.line, p.column + 1⟩

/-- Behind as many characters of one byte each, none of them a line break. -/
def skip (p : Position) (count : Nat) : Position := ⟨p.line, p.column + count⟩

/-- Behind the given number of bytes; `none` if fewer follow. -/
def skipBytes? (p : Position) : Nat → List Char → Option Position
  | 0, _ => some p
  | _ + 1, [] => none
  | n + 1, c :: rest =>
    if c.utf8Size ≤ n + 1 then (p.after c).skipBytes? (n + 1 - c.utf8Size) rest
    else some ⟨p.line, p.column + (n + 1)⟩

def atEnd (p : Position) (rest : List Char) : Position := rest.foldl after p

end Position

/-- A fault of JSON text. -/
inductive Fault where
  | endInValue
  | endInList
  | endInObject
  | endInString
  | notALiteral
  | valueExpected
  | listEndExpected
  | objectEndExpected
  | colonExpected
  | trailingComma
  | keyNotAString
  | trailingText
  | invalidNumber
  | numberOutOfRange
  | invalidEscape
  | loneSurrogate
  | surrogateExpected
  | controlCharacter
  | tooDeep
  | notAList (found : Shape)
deriving DecidableEq

def Fault.describe : Fault → String
  | .endInValue => "EOF while parsing a value"
  | .endInList => "EOF while parsing a list"
  | .endInObject => "EOF while parsing an object"
  | .endInString => "EOF while parsing a string"
  | .notALiteral => "expected ident"
  | .valueExpected => "expected value"
  | .listEndExpected => "expected `,` or `]`"
  | .objectEndExpected => "expected `,` or `\x7d`"
  | .colonExpected => "expected `:`"
  | .trailingComma => "trailing comma"
  | .keyNotAString => "key must be a string"
  | .trailingText => "trailing characters"
  | .invalidNumber => "invalid number"
  | .numberOutOfRange => "number out of range"
  | .invalidEscape => "invalid escape"
  | .loneSurrogate => "lone leading surrogate in hex escape"
  | .surrogateExpected => "unexpected end of hex escape"
  | .controlCharacter => "control character (\\u0000-\\u001F) found while parsing a string"
  | .tooDeep => "recursion limit exceeded"
  | .notAList found => "invalid type: " ++ found.describe ++ ", expected a sequence"

/-- A fault and the place where it was seen. -/
structure SyntaxError where
  fault : Fault
  position : Position
deriving DecidableEq

def SyntaxError.message (e : SyntaxError) : String :=
  e.fault.describe ++ " at line " ++ Text.decimal e.position.line ++ " column " ++ Text.decimal e.position.column

end Json
end MessageFlow
