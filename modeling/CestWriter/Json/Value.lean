import CestWriter.Json.Token

/-!
# JSON values

Values are read from tokens by a machine that keeps the arrays and objects that are still open.
Objects keep their members in order, repeated keys included, so that a reader of records can refuse
a repetition. Writing uses no spaces.
-/

namespace CestWriter.Json

/-- A JSON value. Strings and keys are absent where the literal denotes no text. -/
inductive Value where
  | null
  | bool (b : Bool)
  /-- A number, as it is written. -/
  | number (digits : String)
  | string (text : Option String)
  | array (items : List Value)
  | object (members : List (Option String × Value))
deriving Repr

/-- A collection that is open around the current position. What it holds so far is in reverse. -/
inductive Frame where
  | array (items : List Value)
  /-- An object in which `key` awaits its value. -/
  | member (members : List (Option String × Value)) (key : Option String)

/-- What may come next, and what has been read. -/
inductive State where
  /-- A value must come. -/
  | value (outer : List Frame)
  /-- Directly after an opening bracket. -/
  | arrayStart (outer : List Frame)
  /-- Directly after an opening brace. -/
  | objectStart (outer : List Frame)
  /-- After a comma in an object. -/
  | key (members : List (Option String × Value)) (outer : List Frame)
  /-- After a key. -/
  | colon (members : List (Option String × Value)) (key : Option String) (outer : List Frame)
  /-- After an item of an array. -/
  | afterItem (items : List Value) (outer : List Frame)
  /-- After a member of an object. -/
  | afterMember (members : List (Option String × Value)) (outer : List Frame)
  /-- After the whole value. -/
  | done (value : Value)

namespace State

/-- Puts a complete value into the collection around it. -/
def complete (v : Value) : List Frame → State
  | [] => .done v
  | .array items :: outer => .afterItem (v :: items) outer
  | .member members name :: outer => .afterMember ((name, v) :: members) outer

/-- Begins a value. -/
def start (outer : List Frame) : Token → Except Fault State
  | .null => .ok (complete .null outer)
  | .bool b => .ok (complete (.bool b) outer)
  | .number digits => .ok (complete (.number digits) outer)
  | .string text => .ok (complete (.string text) outer)
  | .beginArray => .ok (.arrayStart outer)
  | .beginObject => .ok (.objectStart outer)
  | _ => .error .misplaced

/-- Takes one token. -/
def step : State → Token → Except Fault State
  | .value outer, token => start outer token
  | .arrayStart outer, .endArray => .ok (complete (.array []) outer)
  | .arrayStart outer, token => start (.array [] :: outer) token
  | .objectStart outer, .endObject => .ok (complete (.object []) outer)
  | .objectStart outer, .string name => .ok (.colon [] name outer)
  | .key members outer, .string name => .ok (.colon members name outer)
  | .colon members name outer, .colon => .ok (.value (.member members name :: outer))
  | .afterItem items outer, .comma => .ok (.value (.array items :: outer))
  | .afterItem items outer, .endArray => .ok (complete (.array items.reverse) outer)
  | .afterMember members outer, .comma => .ok (.key members outer)
  | .afterMember members outer, .endObject => .ok (complete (.object members.reverse) outer)
  | _, _ => .error .misplaced

end State

namespace Value

/-- Reads a value from all of the tokens. -/
def ofTokens (tokens : List Token) : Except Fault Value := do
  match ← tokens.foldlM State.step (.value []) with
  | .done v => return v
  | _ => throw .incomplete

/-- Reads a value from all of a text. -/
def parse (s : String) : Except Fault Value := do
  ofTokens (← Token.scan s.toList)

/-- A digit below sixteen, in lower case. -/
def hexChar (n : Nat) : Char :=
  Nat.digitChar n

/-- A character inside a string literal: quotes, backslashes and control characters are escaped. -/
def writeChar (c : Char) : List Char :=
  if c = '"' then ['\\', '"']
  else if c = '\\' then ['\\', '\\']
  else if c = '\x08' then ['\\', 'b']
  else if c = '\x0c' then ['\\', 'f']
  else if c = '\n' then ['\\', 'n']
  else if c = '\r' then ['\\', 'r']
  else if c = '\t' then ['\\', 't']
  else if c.toNat < 32 then ['\\', 'u', '0', '0', hexChar (c.toNat / 16), hexChar (c.toNat % 16)]
  else [c]

/-- A string literal. One that denotes no text is written as half of a surrogate pair. -/
def writeString : Option String → String
  | some s => "\"" ++ String.ofList (s.toList.flatMap writeChar) ++ "\""
  | none => "\"\\ud800\""

mutual

/-- A value without any spaces. -/
def write : Value → String
  | .null => "null"
  | .bool true => "true"
  | .bool false => "false"
  | .number digits => digits
  | .string text => writeString text
  | .array items => "[" ++ ",".intercalate (writeItems items) ++ "]"
  | .object members => "\x7b" ++ ",".intercalate (writeMembers members) ++ "\x7d"

/-- The items of an array, one by one. -/
def writeItems : List Value → List String
  | [] => []
  | v :: vs => write v :: writeItems vs

/-- The members of an object, one by one. -/
def writeMembers : List (Option String × Value) → List String
  | [] => []
  | (key, v) :: rest => (writeString key ++ ":" ++ write v) :: writeMembers rest

end

/-- A string value. -/
def ofString (s : String) : Value :=
  .string (some s)

/-- A whole number. -/
def ofNat (n : Nat) : Value :=
  .number n.repr

/-- A string value, or null. -/
def ofString? : Option String → Value
  | some s => ofString s
  | none => .null

/-- A whole number of 64 bits, or null. -/
def ofWord64? : Option UInt64 → Value
  | some n => ofNat n.toNat
  | none => .null

/-- Two texts, as an array. -/
def ofTextPair : String × String → Value
  | (a, b) => .array [ofString a, ofString b]

/-- An object with these fields. -/
def record (fields : List (String × Value)) : Value :=
  .object (fields.map fun (name, v) => (some name, v))

/-- The text of a string. -/
def text : Value → Except Fault String
  | .string (some s) => .ok s
  | _ => .error (.mistyped "a text")

/-- A text or null. -/
def text? : Value → Except Fault (Option String)
  | .null => .ok none
  | v => (text v).map some

/-- A truth value. -/
def truth : Value → Except Fault Bool
  | .bool b => .ok b
  | _ => .error (.mistyped "a truth value")

/-- A whole number of 64 bits, written with digits only. -/
def word64 : Value → Except Fault UInt64
  | .number digits =>
    let cs := digits.toList
    let n := cs.foldl (fun n c => n * 10 + (c.toNat - '0'.toNat)) 0
    if cs.all Char.isDigit && n < Nat.pow 2 64 then .ok (UInt64.ofNat n)
    else .error (.mistyped "a whole number of 64 bits")
  | _ => .error (.mistyped "a whole number of 64 bits")

/-- A whole number of 64 bits, or null. -/
def word64? : Value → Except Fault (Option UInt64)
  | .null => .ok none
  | v => (word64 v).map some

/-- All items of an array, each read by `item`. -/
def list {α : Type} (item : Value → Except Fault α) : Value → Except Fault (List α)
  | .array items => items.mapM item
  | _ => .error (.mistyped "an array")

/-- Two texts, as an array. -/
def textPair : Value → Except Fault (String × String)
  | .array [a, b] => do return (← text a, ← text b)
  | _ => .error (.mistyped "a pair of texts")

end Value

end CestWriter.Json
