import MessageFlow.Json.Basic
import MessageFlow.Text.Quoted

/-! What a value looks like from outside, as messages describe it: a scalar with its value, a list or an
    object by its kind alone. -/

namespace MessageFlow

/-- A value seen from outside. -/
inductive Json.Shape where
  | null
  | bool (b : Bool)
  | num (n : Json.Number)
  | str (s : String)
  | list
  | object
deriving DecidableEq

def Json.shape : Json → Json.Shape
  | .null => .null
  | .bool b => .bool b
  | .num n => .num n
  | .str s => .str s
  | .arr _ => .list
  | .obj _ => .object

def Json.Shape.describe : Json.Shape → String
  | .null => "null"
  | .bool true => "boolean `true`"
  | .bool false => "boolean `false`"
  | .num (.int n h) => "integer `" ++ String.ofList (Json.Number.int n h).written ++ "`"
  | .num (.double x) => "floating point `" ++ String.ofList (Json.Number.double x).written ++ "`"
  | .str s => "string " ++ Text.quoted s
  | .list => "sequence"
  | .object => "map"

end MessageFlow
