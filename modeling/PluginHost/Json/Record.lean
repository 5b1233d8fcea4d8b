import PluginHost.Decimal
import PluginHost.Json.Reader

/-!
# Records in JSON

A `Shape` says how a value of a type is written: it reads a value under a bound on the depth
of nesting, which every array and object on the way uses up by one.  A record is written as
an object, where members of other names are not looked at and none of its own may be
repeated, or as an array of its fields in order.  `Field` tells a field that is given from
one that an object leaves out and from one that lies past the end of such an array: an
optional field may be left out of an object only, a defaulted one of either.
-/

namespace PluginHost.Json

/-- How values of a type are read, under a bound on the depth of nesting. -/
abbrev Shape (α : Type) := Nat → Json → Option α

/-- The greatest depth of nesting of a value that is read. -/
def depthLimit : Nat := 127

/-- The value of a type that a text spells. -/
def decode? {α : Type} (shape : Shape α) (text : String) : Option α :=
  (read? text).bind (shape depthLimit)

/-- A string. -/
def text : Shape String
  | _, .string s => s
  | _, _ => none

/-- A value that may be null. -/
def nullable {α : Type} (shape : Shape α) : Shape (Option α)
  | _, .null => some none
  | n, value => (shape n value).map some

/-- An array of values of one shape. -/
def list {α : Type} (shape : Shape α) : Shape (List α)
  | n + 1, .array items => items.mapM (shape n)
  | _, _ => none

/-- An object of any keys with values of one shape; of equal keys the last counts, and it
stays where the first of them was. -/
def table {α : Type} (shape : Shape α) : Shape (List (String × α))
  | n + 1, .object members => do
    let entries ← members.mapM fun (key, value) => return (← key, ← shape n value)
    return entries.foldl put []
  | _, _ => none
where
  /-- The entries with one put in the place of the entry of its key, or at the end. -/
  put (entries : List (String × α)) (entry : String × α) : List (String × α) :=
    if entries.any (·.1 == entry.1) then
      entries.map fun e => if e.1 == entry.1 then entry else e
    else entries ++ [entry]

/-! ### Fields -/

/-- What is known of a field of a record. -/
inductive Field where
  | given (value : Json)
  | omitted
  | pastEnd

/-- The fields of the given names, in that order, in an object or an array. -/
def fields? (names : List String) : Json → Option (List Field)
  | .object members => do
    let keys ← members.mapM (·.1)
    if names.any fun name => 1 < keys.count name then none
    else return names.map fun name =>
      match members.find? fun m => m.1 == some name with
      | some (_, value) => .given value
      | none => .omitted
  | .array items =>
    if names.length < items.length then none
    else some (items.map .given ++ List.replicate (names.length - items.length) .pastEnd)
  | _ => none

/-- A field that has to be there. -/
def required {α : Type} (shape : Shape α) (n : Nat) : Field → Option α
  | .given value => shape n value
  | _ => none

/-- A field that an object may leave out, and that may be null. -/
def optional {α : Type} (shape : Shape α) (n : Nat) : Field → Option (Option α)
  | .given value => nullable shape n value
  | .omitted => some none
  | .pastEnd => none

/-- A field that has a value when it is not there. -/
def defaulted {α : Type} (default : α) (shape : Shape α) (n : Nat) : Field → Option α
  | .given value => shape n value
  | _ => some default

/-! ### Values of any shape -/

/-- Whether a number has a double near it. -/
def isNumber (digits : String) : Bool :=
  let unsigned := match digits.toList with
    | '-' :: cs => cs
    | cs => cs
  (Decimal.read? unsigned).any Decimal.isFinite

mutual

/-- Whether a value can be read whole: its strings are text, its numbers are not too large,
and it is not nested deeper than the bound. -/
def isReadable : Nat → Json → Bool
  | _, .null => true
  | _, .bool _ => true
  | _, .number digits => isNumber digits
  | _, .string s => s.isSome
  | n, .array items => 0 < n && areReadable (n - 1) items
  | n, .object members => 0 < n && membersReadable (n - 1) members

/-- Whether every item can be read whole. -/
def areReadable : Nat → List Json → Bool
  | _, [] => true
  | n, item :: items => isReadable n item && areReadable n items

/-- Whether every member can be read whole. -/
def membersReadable : Nat → List (Option String × Json) → Bool
  | _, [] => true
  | n, (key, value) :: members =>
    key.isSome && isReadable n value && membersReadable n members

end

/-- A value of any shape. -/
def anything : Shape Json
  | n, value => if isReadable n value then some value else none

end PluginHost.Json
