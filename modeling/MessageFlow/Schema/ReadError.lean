import MessageFlow.Json.Shape

/-! Why a JSON value does not read as what is expected of it. -/

namespace MessageFlow

/-- What a reader expects. -/
inductive Expected where
  | text
  | flag
  | number
  | list
  | record (name : String)
deriving DecidableEq

def Expected.describe : Expected → String
  | .text => "a string"
  | .flag => "a boolean"
  | .number => "f64"
  | .list => "a sequence"
  | .record name => "struct " ++ name

/-- Why a value does not read. -/
inductive ReadError where
  /-- A value of another shape than expected. -/
  | wrongShape (found : Json.Shape) (expected : Expected)
  /-- A required field that the object does not have. -/
  | missing (key : String)
  /-- A field given under both of its names. -/
  | repeated (key : String)
  /-- A list that ends before the field of the given index, which is required. -/
  | tooFewItems (count : Nat) (record : String) (fields : Nat)
  /-- A list with more elements than the record has fields. -/
  | tooManyItems (count : Nat)
  /-- A value that reads as none of the alternatives of a type. -/
  | noAlternative (name : String)
deriving DecidableEq

def ReadError.message : ReadError → String
  | .wrongShape found expected =>
    "invalid type: " ++ found.describe ++ ", expected " ++ expected.describe
  | .missing key => "missing field `" ++ key ++ "`"
  | .repeated key => "duplicate field `" ++ key ++ "`"
  | .tooFewItems count record fields =>
    "invalid length " ++ Text.decimal count ++ ", expected struct " ++ record ++ " with " ++
      Text.decimal fields ++ (if fields = 1 then " element" else " elements")
  | .tooManyItems count =>
    "invalid length " ++ Text.decimal count ++ ", expected fewer elements in array"
  | .noAlternative name => "data did not match any variant of untagged enum " ++ name

end MessageFlow
