import NotebookKernels.Json.Value

/- JSON as written.

   A `Source` keeps what a value leaves out: the order and repetition of fields.
   A string that names no text (it holds half of a surrogate pair) and a number
   that is too large are kept as `none`: a reader that skips them does not mind.
   `Source.value?` makes the value; `Source.valueWithin?` bounds how deep it nests. -/
namespace NotebookKernels.Json

/-- A JSON text after reading its syntax. -/
inductive Source where
  | null
  | bool (value : Bool)
  | number (value : Option JsonNumber)
  | string (value : Option String)
  | array (items : List Source)
  | object (fields : List (Option String × Source))

namespace Source

mutual
/-- How many arrays and objects nest in the text. -/
def depth : Source → Nat
  | .array items => depthItems items + 1
  | .object fields => depthFields fields + 1
  | _ => 0
def depthItems : List Source → Nat
  | [] => 0
  | s :: r => max (depth s) (depthItems r)
/-- The greatest depth among the values of the fields. -/
def depthFields : List (Option String × Source) → Nat
  | [] => 0
  | (_, s) :: r => max (depth s) (depthFields r)
end

mutual
/-- The value, if all strings and numbers in it have one. -/
def value? : Source → Option Json
  | .null => some .null
  | .bool b => some (.bool b)
  | .number n => n.map .number
  | .string s => s.map .string
  | .array items => (items? items).map .array
  | .object fields => (fields? fields).map Json.ofFields
def items? : List Source → Option (List Json)
  | [] => some []
  | s :: r => do return (← value? s) :: (← items? r)
/-- The names and values of the fields, as written. -/
def fields? : List (Option String × Source) → Option (List (String × Json))
  | [] => some []
  | (name, s) :: r => do return (← name, ← value? s) :: (← fields? r)
end

/-- The value, if it nests at most `room` arrays and objects. -/
def valueWithin? (room : Nat) (s : Source) : Option Json :=
  if s.depth ≤ room then s.value? else none

mutual
def ofValue : Json → Source
  | .null => .null
  | .bool b => .bool b
  | .number n => .number (some n)
  | .string s => .string (some s)
  | .array items => .array (ofItems items)
  | .object fields => .object (ofFields fields)
def ofItems : List Json → List Source
  | [] => []
  | v :: r => ofValue v :: ofItems r
def ofFields : List (String × Json) → List (Option String × Source)
  | [] => []
  | (name, v) :: r => (some name, ofValue v) :: ofFields r
end

end Source

def nestingLimit : Nat := 127

end NotebookKernels.Json
