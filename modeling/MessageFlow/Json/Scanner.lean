import MessageFlow.Json.SyntaxError

/-! The scalars of JSON text. A scanner starts behind the first character of its scalar and answers with
    the value, the place behind it and the text that is left, which is no longer than what it was given. -/

namespace MessageFlow

-- Powers are those of core, whatever is imported beside.
attribute [local instance (high)] instPowNat

namespace Json

/-- What a scanner found, with at most `bound` characters left behind it. -/
structure Scan (α : Type) (bound : Nat) where
  value : α
  position : Position
  rest : List Char
  bounded : rest.length ≤ bound

/-- The outcome of a scanner. -/
abbrev Scanned (α : Type) (bound : Nat) := Except SyntaxError (Scan α bound)

/-- Blanks between the parts of a text: space, tab, line feed and carriage return. -/
def isGap (c : Char) : Bool := c == ' ' || c == '\n' || c == '\t' || c == '\r'

/-- Passes over blanks. -/
def skipGaps (p : Position) : List Char → Position × List Char
  | [] => (p, [])
  | c :: rest => if isGap c then skipGaps (p.after c) rest else (p, c :: rest)

theorem length_skipGaps_le (p : Position) (cs : List Char) :
    (skipGaps p cs).2.length ≤ cs.length := by
  induction cs generalizing p with
  | nil => simp [skipGaps]
  | cons c rest ih =>
    simp only [skipGaps]
    split
    · exact Nat.le_succ_of_le (ih _)
    · exact Nat.le_refl _

theorem lt_of_skipGaps {p q : Position} {cs rest : List Char} {c : Char}
    (h : skipGaps p cs = (q, c :: rest)) : rest.length < cs.length := by
  have hle := length_skipGaps_le p cs
  rw [h] at hle
  exact hle

/-! ### Literals -/

/-- Passes over the given letters of a literal. -/
def scanLetters {α : Type} (bound : Nat) (value : α) (p : Position) :
    (letters cs : List Char) → cs.length ≤ bound → Scanned α bound
  | [], cs, h => .ok ⟨value, p, cs, h⟩
  | _ :: _, [], _ => .error ⟨.endInValue, p⟩
  | l :: letters, c :: cs, h =>
    if c = l then scanLetters bound value (p.after c) letters cs (Nat.le_of_succ_le h)
    else .error ⟨.notALiteral, p.afterByte c⟩

/-! ### Strings -/

/-- The value of a hexadecimal digit. -/
def hexDigit? (c : Char) : Option Nat :=
  if c.isDigit then some (c.toNat - '0'.toNat)
  else if 'a' ≤ c ∧ c ≤ 'f' then some (c.toNat - 'a'.toNat + 10)
  else if 'A' ≤ c ∧ c ≤ 'F' then some (c.toNat - 'A'.toNat + 10)
  else none

/-- The value of four hexadecimal digits. -/
def hexGroup? (a b c d : Char) : Option Nat :=
  match hexDigit? a, hexDigit? b, hexDigit? c, hexDigit? d with
  | some a, some b, some c, some d => some (((a * 16 + b) * 16 + c) * 16 + d)
  | _, _, _, _ => none

/-- Reads four hexadecimal digits. The four bytes are looked at together. -/
def scanHexGroup (p : Position) (cs : List Char) : Scanned Nat cs.length :=
  let invalid : SyntaxError :=
    match p.skipBytes? 4 cs with
    | some q => ⟨.invalidEscape, q⟩
    | none => ⟨.endInString, p.atEnd cs⟩
  match cs with
  | a :: b :: c :: d :: rest =>
    match hexGroup? a b c d with
    | some n => .ok ⟨n, p.skip 4, rest, by simp only [List.length_cons]; omega⟩
    | none => .error invalid
  | _ => .error invalid

/-- The character of a code point above the first plane, from its two surrogates. -/
def joinSurrogates (high low : Nat) : Char :=
  Char.ofNat (0x10000 + (high - 0xD800) * 0x400 + (low - 0xDC00))

/-- The second surrogate of a pair, with its escape. -/
def scanLowSurrogate (high : Nat) (p : Position) (cs : List Char) : Scanned Char cs.length :=
  match cs with
  | [] => .error ⟨.endInString, p⟩
  | '\\' :: cs =>
    match cs with
    | [] => .error ⟨.endInString, p.after '\\'⟩
    | 'u' :: cs =>
      match scanHexGroup ((p.after '\\').after 'u') cs with
      | .error e => .error e
      | .ok ⟨low, q, rest, h⟩ =>
        if 0xDC00 ≤ low ∧ low ≤ 0xDFFF then
          .ok ⟨joinSurrogates high low, q, rest, by simp only [List.length_cons]; omega⟩
        else .error ⟨.loneSurrogate, q⟩
    | c :: _ => .error ⟨.surrogateExpected, (p.after '\\').afterByte c⟩
  | c :: _ => .error ⟨.surrogateExpected, p.afterByte c⟩

/-- A character given by one or two code units, behind its `\u`. -/
def scanCodeUnits (p : Position) (cs : List Char) : Scanned Char cs.length :=
  match scanHexGroup p cs with
  | .error e => .error e
  | .ok ⟨n, q, rest, h⟩ =>
    if 0xDC00 ≤ n ∧ n ≤ 0xDFFF then .error ⟨.loneSurrogate, q⟩
    else if 0xD800 ≤ n ∧ n ≤ 0xDBFF then
      match scanLowSurrogate n q rest with
      | .error e => .error e
      | .ok ⟨c, q, rest', h'⟩ => .ok ⟨c, q, rest', Nat.le_trans h' h⟩
    else .ok ⟨Char.ofNat n, q, rest, h⟩

/-- An escape, behind its backslash. -/
def scanEscape (p : Position) (cs : List Char) : Scanned Char cs.length :=
  match cs with
  | [] => .error ⟨.endInString, p⟩
  | 'u' :: cs =>
    match scanCodeUnits (p.after 'u') cs with
    | .error e => .error e
    | .ok ⟨c, q, rest, h⟩ => .ok ⟨c, q, rest, Nat.le_succ_of_le h⟩
  | c :: cs =>
    let found (d : Char) : Scanned Char (cs.length + 1) := .ok ⟨d, p.after c, cs, Nat.le_succ _⟩
    match c with
    | '"' => found '"'
    | '\\' => found '\\'
    | '/' => found '/'
    | 'b' => found '\x08'
    | 'f' => found '\x0c'
    | 'n' => found '\n'
    | 'r' => found '\r'
    | 't' => found '\t'
    | _ => .error ⟨.invalidEscape, p.afterByte c⟩

/-- The rest of a string, behind its opening quote; `read` holds what came before, last first. -/
def scanString (bound : Nat) (read : List Char) (p : Position) (cs : List Char)
    (h : cs.length ≤ bound) : Scanned String bound :=
  match cs with
  | [] => .error ⟨.endInString, p⟩
  | c :: cs =>
    if c = '"' then .ok ⟨String.ofList read.reverse, p.after c, cs, Nat.le_of_succ_le h⟩
    else if c = '\\' then
      match scanEscape (p.after c) cs with
      | .error e => .error e
      | .ok ⟨d, q, rest, hr⟩ =>
        scanString bound (d :: read) q rest (Nat.le_trans hr (Nat.le_of_succ_le h))
    else if c.toNat < 0x20 then .error ⟨.controlCharacter, p.afterByte c⟩
    else scanString bound (c :: read) (p.after c) cs (Nat.le_of_succ_le h)
termination_by cs.length
decreasing_by all_goals simp only [List.length_cons]; omega

/-! ### Numbers -/

/-- The value of decimal digits. -/
def decimalValue (digits : List Char) : Nat :=
  digits.foldl (fun n c => n * 10 + (c.toNat - '0'.toNat)) 0

/-- The greatest exponent that is looked at. -/
def exponentLimit : Nat := 2 ^ (31 : Nat) - 1

/-- How many digits it takes to pass the greatest exponent. -/
def digitsPastLimit? (value count : Nat) : List Char → Option Nat
  | [] => none
  | c :: rest =>
    let value := value * 10 + (c.toNat - '0'.toNat)
    if exponentLimit < value then some (count + 1) else digitsPastLimit? value (count + 1) rest

/-- A literal with a point or an exponent: its digits without the point, the number of places behind
    the point, and the sign and digits of the exponent. An exponent past the limit stands for zero or
    for a number out of range. -/
def scaledNumber (negative : Bool) (digits : List Char) (places : Nat) (negativeExponent : Bool)
    (exponent : List Char) (p : Position) : Except SyntaxError Number :=
  let significand := decimalValue digits
  match digitsPastLimit? 0 0 exponent with
  | some count =>
    if significand = 0 ∨ negativeExponent then
      match Double.ofMagnitude? negative 0 with
      | some x => .ok (.double x)
      | none => .error ⟨.numberOutOfRange, p⟩
    else .error ⟨.numberOutOfRange, p.skip count⟩
  | none =>
    let e : Int := if negativeExponent then -decimalValue exponent else decimalValue exponent
    match Double.ofDecimal? negative significand (e - places) with
    | some x => .ok (.double x)
    | none => .error ⟨.numberOutOfRange, p.skip exponent.length⟩

/-- The exponent of a number, behind its `e`. -/
def scanExponent (bound : Nat) (negative : Bool) (digits : List Char) (places : Nat) (p : Position)
    (cs : List Char) (h : cs.length ≤ bound) : Scanned Number bound :=
  let signed := cs.head? == some '-' || cs.head? == some '+'
  let digitsFrom := if signed then cs.tail else cs
  let q := if signed then p.skip 1 else p
  let exponent := digitsFrom.takeWhile Char.isDigit
  let rest := digitsFrom.dropWhile Char.isDigit
  have hrest : rest.length ≤ bound := by
    have h1 : rest.length ≤ digitsFrom.length := (List.dropWhile_suffix _).length_le
    have h2 : digitsFrom.length ≤ cs.length := by
      simp only [digitsFrom]; split <;> simp
    omega
  if exponent.isEmpty then
    match rest with
    | [] => .error ⟨.endInValue, q⟩
    | c :: _ => .error ⟨.invalidNumber, q.afterByte c⟩
  else
    match scaledNumber negative digits places (cs.head? == some '-') exponent q with
    | .error e => .error e
    | .ok n => .ok ⟨n, q.skip exponent.length, rest, hrest⟩

/-- The part of a number behind its point. -/
def scanFraction (bound : Nat) (negative : Bool) (whole : List Char) (p : Position) (cs : List Char)
    (h : cs.length ≤ bound) : Scanned Number bound :=
  let fraction := cs.takeWhile Char.isDigit
  let rest := cs.dropWhile Char.isDigit
  have hrest : rest.length ≤ bound := Nat.le_trans (List.dropWhile_suffix _).length_le h
  let q := p.skip fraction.length
  if fraction.isEmpty then
    match rest with
    | [] => .error ⟨.endInValue, q⟩
    | c :: _ => .error ⟨.invalidNumber, q.afterByte c⟩
  else
    match rest, hrest with
    | 'e' :: tail, hrest | 'E' :: tail, hrest =>
      scanExponent bound negative (whole ++ fraction) fraction.length (q.skip 1) tail
        (Nat.le_of_succ_le hrest)
    | rest, hrest =>
      match scaledNumber negative (whole ++ fraction) fraction.length false [] q with
      | .error e => .error e
      | .ok n => .ok ⟨n, q, rest, hrest⟩

/-- The rest of a number, behind its first digit. -/
def scanNumber (bound : Nat) (negative : Bool) (first : Char) (p : Position) (cs : List Char)
    (h : cs.length ≤ bound) : Scanned Number bound :=
  let more := cs.takeWhile Char.isDigit
  let rest := cs.dropWhile Char.isDigit
  have hrest : rest.length ≤ bound := Nat.le_trans (List.dropWhile_suffix _).length_le h
  let q := p.skip more.length
  if first = '0' ∧ more ≠ [] then .error ⟨.invalidNumber, p.skip 1⟩
  else
    match rest, hrest with
    | '.' :: tail, hrest =>
      scanFraction bound negative (first :: more) (q.skip 1) tail
        (Nat.le_of_succ_le hrest)
    | 'e' :: tail, hrest | 'E' :: tail, hrest =>
      scanExponent bound negative (first :: more) 0 (q.skip 1) tail
        (Nat.le_of_succ_le hrest)
    | rest, hrest =>
      match Number.ofInteger? negative (decimalValue (first :: more)) with
      | some n => .ok ⟨n, q, rest, hrest⟩
      | none => .error ⟨.numberOutOfRange, q⟩

/-- The rest of a number, behind its minus sign. -/
def scanNegative (bound : Nat) (p : Position) (cs : List Char) (h : cs.length ≤ bound) :
    Scanned Number bound :=
  match cs with
  | [] => .error ⟨.endInValue, p⟩
  | c :: rest =>
    if c.isDigit then scanNumber bound true c (p.after c) rest (Nat.le_of_succ_le h)
    else .error ⟨.invalidNumber, p.afterByte c⟩

end Json
end MessageFlow
