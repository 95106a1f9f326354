import CestWriter.Json.Value

/-!
# Records in JSON

A record is an object, or an array that gives the fields in their order. In an object the fields
may come in any order; fields that the record does not know are skipped, and a field it knows may
be given only once. In an array fields at the end may be left out.
-/

namespace CestWriter.Json

/-- The fields of a record that are given, by name. -/
abbrev Fields := List (String × Value)

namespace Fields

/-- The known members of an object. `given` are the fields seen before. -/
def ofMembers (names : List String) (given : Fields) :
    List (Option String × Value) → Except Fault Fields
  | [] => .ok given
  | (none, _) :: _ => .error (.mistyped "a field name")
  | (some name, v) :: rest =>
    if name ∈ names then
      if (given.lookup name).isSome then .error (.repeated name)
      else ofMembers names (given ++ [(name, v)]) rest
    else ofMembers names given rest

/-- The fields of a record, where `names` are those it knows, in order. -/
def of (names : List String) : Value → Except Fault Fields
  | .object members => ofMembers names [] members
  | .array items =>
    if items.length ≤ names.length then .ok (names.zip items) else .error .surplus
  | _ => .error (.mistyped "a record")

/-- A field that must be given. -/
def required {α : Type} (fields : Fields) (name : String) (read : Value → Except Fault α) :
    Except Fault α :=
  match fields.lookup name with
  | some v => read v
  | none => .error (.missing name)

/-- A field with a default. -/
def optional {α : Type} (fields : Fields) (name : String) (read : Value → Except Fault α)
    (default : α) : Except Fault α :=
  match fields.lookup name with
  | some v => read v
  | none => .ok default

end Fields

end CestWriter.Json
