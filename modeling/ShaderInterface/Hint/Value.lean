/-!
# Hint values

The values that a hint can hold. The fields of an object are a list in increasing order of
their keys, without a repeated key (`Fields.insert`), so that two objects with the same fields are
the same value.
-/

namespace ShaderInterface.Hint

/-- A value in a hint. Integers and floats are different values. -/
inductive Value where
  | null
  | bool (value : Bool)
  | int (value : Int)
  | float (value : Float)
  | str (value : String)
  | array (items : List Value)
  | object (fields : List (String × Value))

/-- What reads a text as one value, or says why the text is none. -/
abbrev Parser := List Char → Except String Value

/-- The fields of an object. -/
abbrev Fields := List (String × Value)

namespace Fields

/-- The value of a key. -/
def get? (key : String) : Fields → Option Value
  | [] => none
  | (k, v) :: rest => if k = key then some v else get? key rest

/-- The fields with the given value for a key, in the order of keys. -/
def insert (key : String) (value : Value) : Fields → Fields
  | [] => [(key, value)]
  | (k, v) :: rest =>
    if k = key then (key, value) :: rest
    else if key < k then (key, value) :: (k, v) :: rest
    else (k, v) :: insert key value rest

/-- The fields of the pairs; of two pairs with one key the later counts. -/
def ofPairs (pairs : List (String × Value)) : Fields :=
  pairs.foldl (fun fields pair => fields.insert pair.1 pair.2) []

theorem get?_insert (key a : String) (value : Value) (fields : Fields) :
    get? a (insert key value fields) = if key = a then some value else get? a fields := by
  fun_induction insert key value fields <;> simp only [get?] <;> grind

end Fields

mutual

/-- How deep arrays and objects nest in a value; a scalar has depth zero. -/
def Value.depth : Value → Nat
  | .array items => 1 + depthOfItems items
  | .object fields => 1 + depthOfFields fields
  | _ => 0

/-- The greatest depth of the items. -/
def depthOfItems : List Value → Nat
  | [] => 0
  | v :: rest => max v.depth (depthOfItems rest)

/-- The greatest depth of the values of the fields. -/
def depthOfFields : List (String × Value) → Nat
  | [] => 0
  | (_, v) :: rest => max v.depth (depthOfFields rest)

end

end ShaderInterface.Hint
