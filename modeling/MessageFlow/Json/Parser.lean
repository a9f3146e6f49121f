import MessageFlow.Json.Scanner

/-! Reading JSON text. The reader keeps the containers that are open around it on a stack, so one step
    is either to read the value that is due or to hand a finished value to the innermost container.
    Every step consumes text. Of several fields under one key the last counts. -/

namespace MessageFlow
namespace Json

/-- A container that is open: what was read of it, last first, and for an object the key whose value is
    due. -/
inductive Frame where
  | list (done : List Json)
  | object (done : List (String × Json)) (key : String)

/-- A value and the text behind it. -/
structure Reading where
  value : Json
  position : Position
  rest : List Char

/-- How many containers may be open at once. -/
def depthLimit : Nat := 127

mutual

/-- Reads the value that is due. -/
def readValue (limit : Nat) (stack : List Frame) (p : Position) (cs : List Char) :
    Except SyntaxError Reading :=
  match hs : skipGaps p cs with
  | (p, []) => .error ⟨.endInValue, p⟩
  | (p, c :: rest) =>
    have := lt_of_skipGaps hs
    let behind := p.after c
    if c = 'n' then
      match scanLetters rest.length Json.null behind ['u', 'l', 'l'] rest (Nat.le_refl _) with
      | .error e => .error e
      | .ok ⟨v, q, tail, _⟩ => closeValue limit stack v q tail
    else if c = 't' then
      match scanLetters rest.length (Json.bool true) behind ['r', 'u', 'e'] rest (Nat.le_refl _) with
      | .error e => .error e
      | .ok ⟨v, q, tail, _⟩ => closeValue limit stack v q tail
    else if c = 'f' then
      match scanLetters rest.length (Json.bool false) behind ['a', 'l', 's', 'e'] rest
          (Nat.le_refl _) with
      | .error e => .error e
      | .ok ⟨v, q, tail, _⟩ => closeValue limit stack v q tail
    else if c = '"' then
      match scanString rest.length [] behind rest (Nat.le_refl _) with
      | .error e => .error e
      | .ok ⟨s, q, tail, _⟩ => closeValue limit stack (.str s) q tail
    else if c = '-' then
      match scanNegative rest.length behind rest (Nat.le_refl _) with
      | .error e => .error e
      | .ok ⟨n, q, tail, _⟩ => closeValue limit stack (.num n) q tail
    else if c.isDigit then
      match scanNumber rest.length false c behind rest (Nat.le_refl _) with
      | .error e => .error e
      | .ok ⟨n, q, tail, _⟩ => closeValue limit stack (.num n) q tail
    else if c = '[' then
      if stack.length < limit then
        match hi : skipGaps behind rest with
        | (q, []) => .error ⟨.endInList, q⟩
        | (q, d :: tail) =>
          have := lt_of_skipGaps hi
          if d = ']' then closeValue limit stack (.arr []) (q.after d) tail
          else readValue limit (.list [] :: stack) q (d :: tail)
      else .error ⟨.tooDeep, p.afterByte c⟩
    else if c = '\x7b' then
      if stack.length < limit then
        match hi : skipGaps behind rest with
        | (q, []) => .error ⟨.endInObject, q⟩
        | (q, d :: tail) =>
          have := lt_of_skipGaps hi
          if d = '\x7d' then closeValue limit stack (.obj []) (q.after d) tail
          else if d = '"' then readField limit stack [] (q.after d) tail
          else .error ⟨.keyNotAString, q.afterByte d⟩
      else .error ⟨.tooDeep, p.afterByte c⟩
    else .error ⟨.valueExpected, p.afterByte c⟩
termination_by (cs.length, 1)

/-- Reads a field behind the opening quote of its key. -/
def readField (limit : Nat) (stack : List Frame) (done : List (String × Json)) (p : Position)
    (cs : List Char) : Except SyntaxError Reading :=
  match scanString cs.length [] p cs (Nat.le_refl _) with
  | .error e => .error e
  | .ok ⟨key, q, rest, _⟩ =>
    match hs : skipGaps q rest with
    | (q, []) => .error ⟨.endInObject, q⟩
    | (q, c :: tail) =>
      have := lt_of_skipGaps hs
      if c = ':' then readValue limit (.object done key :: stack) (q.after c) tail
      else .error ⟨.colonExpected, q.afterByte c⟩
termination_by (cs.length, 0)

/-- Hands a finished value to the innermost open container. -/
def closeValue (limit : Nat) (stack : List Frame) (v : Json) (p : Position) (cs : List Char) :
    Except SyntaxError Reading :=
  match stack with
  | [] => .ok ⟨v, p, cs⟩
  | .list done :: stack =>
    match hs : skipGaps p cs with
    | (p, []) => .error ⟨.endInList, p⟩
    | (p, c :: rest) =>
      have := lt_of_skipGaps hs
      if c = ',' then
        match hi : skipGaps (p.after c) rest with
        | (q, []) => .error ⟨.endInValue, q⟩
        | (q, d :: tail) =>
          have := lt_of_skipGaps hi
          if d = ']' then .error ⟨.trailingComma, q.afterByte d⟩
          else readValue limit (.list (v :: done) :: stack) q (d :: tail)
      else if c = ']' then closeValue limit stack (.arr (v :: done).reverse) (p.after c) rest
      else .error ⟨.listEndExpected, p.afterByte c⟩
  | .object done key :: stack =>
    match hs : skipGaps p cs with
    | (p, []) => .error ⟨.endInObject, p⟩
    | (p, c :: rest) =>
      have := lt_of_skipGaps hs
      if c = ',' then
        match hi : skipGaps (p.after c) rest with
        | (q, []) => .error ⟨.endInValue, q⟩
        | (q, d :: tail) =>
          have := lt_of_skipGaps hi
          if d = '"' then readField limit stack ((key, v) :: done) (q.after d) tail
          else if d = '\x7d' then .error ⟨.trailingComma, q.afterByte d⟩
          else .error ⟨.keyNotAString, q.afterByte d⟩
      else if c = '\x7d' then
        closeValue limit stack (.obj (Object.ofList ((key, v) :: done).reverse)) (p.after c) rest
      else .error ⟨.objectEndExpected, p.afterByte c⟩
termination_by (cs.length, 0)

end

/-- Only blanks may follow the value. -/
def Reading.finish (r : Reading) : Except SyntaxError Json :=
  match skipGaps r.position r.rest with
  | (_, []) => .ok r.value
  | (p, c :: _) => .error ⟨.trailingText, p.afterByte c⟩

/-- Reads a text that holds one value, with at most `limit` containers open at once. -/
def parse (text : String) (limit : Nat) : Except SyntaxError Json :=
  match readValue limit [] .start text.toList with
  | .error e => .error e
  | .ok r => r.finish

/-- Reads a text that holds a list. A value of another shape is refused before what follows it is looked
    at: an object where it begins, a scalar where it ends. -/
def parseList (text : String) : Except SyntaxError (List Json) :=
  match skipGaps .start text.toList with
  | (p, '\x7b' :: _) => .error ⟨.notAList .object, p⟩
  | (p, cs) =>
    match readValue depthLimit [] p cs with
    | .error e => .error e
    | .ok ⟨.arr items, q, rest⟩ =>
      match Reading.finish ⟨.arr items, q, rest⟩ with
      | .error e => .error e
      | .ok _ => .ok items
    | .ok ⟨v, q, _⟩ => .error ⟨.notAList v.shape, q⟩

end Json
end MessageFlow
