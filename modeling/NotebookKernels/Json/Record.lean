import NotebookKernels.Json.Source

/- Reading records from JSON.

   A record with declared fields is written as an object or as an array of the
   fields' values in the order of declaration. In an object, fields that are not
   declared are skipped and a declared field stands at most once; in an array,
   fields may be left out at the end only. -/
namespace NotebookKernels.Json

/-- The declared fields of a record that a text gives. -/
structure Record where
  /-- Was the record written as an array? -/
  positional : Bool
  given : List (String × Source)

namespace Record

def required {α : Type} (r : Record) (name : String) (read : Source → Option α) : Option α :=
  (r.given.lookup name).bind read

/-- A field that takes a default where it is left out. -/
def orElse {α : Type} (r : Record) (name : String) (default : α) (read : Source → Option α) :
    Option α :=
  match r.given.lookup name with
  | none => some default
  | some s => read s

/-- A value that may be null. -/
def nullable {α : Type} (read : Source → Option α) : Source → Option (Option α)
  | .null => some none
  | s => (read s).map some

/-- A field that may be null, and that an object may leave out. -/
def optional {α : Type} (r : Record) (name : String) (read : Source → Option α) :
    Option (Option α) :=
  match r.given.lookup name with
  | none => if r.positional then none else some none
  | some s => nullable read s

end Record

namespace Source

/-- The declared fields among those of an object; nothing if one is repeated or a name is no
text. -/
def declared? (names : List String) : List (Option String × Source) → Option (List (String × Source))
  | [] => some []
  | (name?, s) :: r => do
    let name ← name?
    let rest ← declared? names r
    if !names.contains name then some rest
    else if (rest.lookup name).isSome then none
    else some ((name, s) :: rest)

/-- The declared fields of a record, in either form. -/
def record? (names : List String) : Source → Option Record
  | .array items => if items.length ≤ names.length then some ⟨true, names.zip items⟩ else none
  | .object fields => (declared? names fields).map (⟨false, ·⟩)
  | _ => none

def string? : Source → Option String
  | .string s => s
  | _ => none

/-- A truth value. -/
def bool? : Source → Option Bool
  | .bool b => some b
  | _ => none

/-- A natural number of at most 64 bits. -/
def nat? : Source → Option Nat
  | .number (some (.int i)) => if 0 ≤ i ∧ i < Decimal.wordLimit then some i.toNat else none
  | _ => none

/-- An array whose items all read. -/
def list? {α : Type} (read : Source → Option α) : Source → Option (List α)
  | .array items => items.mapM read
  | _ => none

/-- One of several names: a string, or an object whose only field has the name and is null. -/
def choice? {α : Type} (ofName? : String → Option α) : Source → Option α
  | .string (some s) => ofName? s
  | .object [(some s, .null)] => ofName? s
  | _ => none

/-- As `choice?`, inside a record whose form is known only when it has been read: there an empty
object stands for null too. -/
def choiceWithin? {α : Type} (ofName? : String → Option α) : Source → Option α
  | .object [(some s, .object [])] => ofName? s
  | s => s.choice? ofName?

end Source
end NotebookKernels.Json
