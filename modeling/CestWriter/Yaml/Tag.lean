import CestWriter.Yaml.Scalar

/-!
# Types of nodes

A type is written after an exclamation mark: in full, in angle brackets, or shortened, with a handle
in front that stands for how it begins. A line before the document may say what a handle stands
for. In a type a character may be written as its octets, each after a percent sign.
-/

namespace CestWriter.Yaml

/-- Whether a name of a node or of a handle may contain this character. -/
def isNameChar (c : Char) : Bool :=
  c.isAlphanum || c == '_' || c == '-'

namespace Tag

/-- Whether a type may contain this character as it is; where it is written in full, it may contain
`full` more. -/
def isTagChar (full : Bool) (c : Char) : Bool :=
  isNameChar c || ";/?:@&=+$.!~*'()".toList.contains c || (full && ",[]".toList.contains c)

/-- How many octets follow the first one of a character; nothing if no character begins with it. -/
def following? (first : Nat) : Option Nat :=
  if first < 0x80 then some 0
  else if first < 0xC0 then none
  else if first < 0xE0 then some 1
  else if first < 0xF0 then some 2
  else if first < 0xF8 then some 3
  else none

/-- How many octets of a character are missing after an octet, when `missing` were before it. -/
def missingAfter? (missing octet : Nat) : Option Nat :=
  if missing = 0 then following? octet
  else if octet / 0x40 = 2 then some (missing - 1)
  else none

/-- The octets of a type up to the first character that it cannot contain, and what follows them.
An octet after a percent sign is the first one of a character or, while `missing` octets of one are
still to come, a later one. -/
def octets? (full : Bool) (missing : Nat) : List Char → Option (List UInt8 × List Char)
  | '%' :: a :: b :: cs => do
    let octet ← Text.hexValue? [a, b]
    let (octets, rest) ← octets? full (← missingAfter? missing octet) cs
    return (UInt8.ofNat octet :: octets, rest)
  | c :: cs =>
    if missing ≠ 0 || c = '%' then none
    else if isTagChar full c then do
      let (octets, rest) ← octets? full 0 cs
      return (UInt8.ofNat c.toNat :: octets, rest)
    else some ([], c :: cs)
  | [] => if missing ≠ 0 then none else some ([], [])

/-- A type or the beginning of one. A zero among its octets ends it. -/
def ofOctets (octets : List UInt8) : Tag :=
  ⟨octets.takeWhile (· ≠ 0)⟩

/-- The same for at least one octet. -/
def some? (full : Bool) (cs : List Char) : Option (Tag × List Char) :=
  match octets? full 0 cs with
  | some (octet :: octets, rest) => some (ofOctets (octet :: octets), rest)
  | _ => none

/-- A handle of which the first mark has been read: a name and a second mark, and what follows. -/
def handle? (cs : List Char) : Option (String × List Char) :=
  match cs.dropWhile isNameChar with
  | '!' :: rest => some (String.ofList ('!' :: cs.takeWhile isNameChar ++ ['!']), rest)
  | _ => none

/-- What the handles stand for that need not be explained. -/
def standardHandles : List (String × Tag) :=
  [("!", ofName "!"), ("!!", ofName "tag:yaml.org,2002:")]

/-- A shortened type: what its handle stands for, and the rest of it. -/
def expand (handles : List (String × Tag)) (handle : String) (rest : Tag) : Except Fault Tag :=
  match (handles ++ standardHandles).lookup handle with
  | some lead => .ok ⟨lead.octets ++ rest.octets⟩
  | none => .error (.unknownHandle handle)

/-- Reads a type of which the mark has been read, and what follows it. -/
def read (handles : List (String × Tag)) (cs : List Char) : Except Fault (Tag × List Char) :=
  match cs with
  | '<' :: more =>
    match some? true more with
    | some (tag, '>' :: rest) => .ok (tag, rest)
    | _ => .error (.unreadable (String.ofList cs))
  | _ =>
    match handle? cs with
    | some (handle, more) =>
      match some? false more with
      | some (tag, rest) => (expand handles handle tag).map (·, rest)
      | none => .error (.unreadable (String.ofList cs))
    | none =>
      match octets? false 0 cs with
      | some (octets, rest) =>
        -- a mark alone is a type by itself
        if ofOctets octets = ⟨[]⟩ then .ok (ofName "!", rest)
        else (expand handles "!" (ofOctets octets)).map (·, rest)
      | none => .error (.unreadable (String.ofList cs))

end Tag

/-- What a line before the document says. -/
inductive Directive where
  /-- The document is written in a version of the format that can be read. -/
  | version
  /-- What a handle stands for. -/
  | handle (name : String) (lead : Tag)
deriving Repr, DecidableEq

namespace Directive

/-- A number of at most nine digits, without the zeros in front of it, and what follows it. -/
def number? (cs : List Char) : Option (List Char × List Char) :=
  let digits := cs.takeWhile Char.isDigit
  if digits.isEmpty || 9 < digits.length then none
  else some (digits.dropWhile (· == '0'), cs.dropWhile Char.isDigit)

/-- Reads the version, which is 1.1 or 1.2. -/
def version? (cs : List Char) : Option (Directive × List Char) :=
  match number? cs with
  | some (['1'], '.' :: more) =>
    match number? more with
    | some (minor, rest) => if minor = ['1'] || minor = ['2'] then some (.version, rest) else none
    | none => none
  | _ => none

/-- Reads what a handle stands for, given its name and what follows it. -/
def lead? (name : String) (cs : List Char) : Option (Directive × List Char) :=
  if cs.head?.any isBlank then
    match Tag.some? true (cs.dropWhile isBlank) with
    | some (lead, rest) => if atBlank rest then some (.handle name lead, rest) else none
    | none => none
  else none

/-- Reads a handle and what it stands for. -/
def handle? : List Char → Option (Directive × List Char)
  | '!' :: cs =>
    match Tag.handle? cs with
    | some (name, rest) => lead? name rest
    | none => lead? "!" cs
  | _ => none

/-- Reads a line of which the percent sign has been read, and what follows its content. -/
def read? (cs : List Char) : Option (Directive × List Char) :=
  let rest := cs.dropWhile isNameChar
  let name := String.ofList (cs.takeWhile isNameChar)
  if !atBlank rest then none
  else if name = "YAML" then version? (rest.dropWhile isBlank)
  else if name = "TAG" then handle? (rest.dropWhile isBlank)
  else none

end Directive

end CestWriter.Yaml
