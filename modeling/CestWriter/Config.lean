import CestWriter.Text.Shown
import CestWriter.Yaml.Document

/-!
# Configuration

Settings of an export. A configuration document is a mapping that gives some of the settings; the
others keep their defaults, and entries it does not know are skipped.
-/

namespace CestWriter

/-- The settings of an export. -/
structure Config where
  /-- The text of one level of indentation. -/
  indent : String := "    "
  /-- What stands at the end of a class name. -/
  classSuffix : String := "Cest"
  /-- Whether the file begins with a note on where it comes from. -/
  provenance : Bool := true
  /-- Milliseconds to wait for a text. -/
  waitForTextTimeout : UInt64 := 30000
  /-- Milliseconds to wait for a window, unless the command says so itself. -/
  defaultWindowTimeout : UInt64 := 2000
deriving Repr, DecidableEq

namespace Config

open Yaml (Fault Node Tag)

/-- The name of the configuration file next to a project. -/
def fileName : String :=
  ".side-export.yaml"

/-- The number that digits in a base give; at least one digit must stand there. -/
def digitsIn? (base : Nat) (cs : List Char) : Option Nat :=
  if cs.isEmpty then none
  else cs.foldlM (fun n c => do
    let d ← Text.hexDigit? c
    if d < base then some (base * n + d) else none) 0

/-- A whole number: decimal without leading zeros, or with one of the marks for base 16, 8 or 2; a
plus may stand in front. -/
def wholeNumber? (s : String) : Option Nat :=
  match s.toList with
  | '+' :: cs => unsigned? cs
  | cs => unsigned? cs
where
  /-- A whole number without sign. -/
  unsigned? : List Char → Option Nat
    | '0' :: 'x' :: cs => digitsIn? 16 cs
    | '0' :: 'o' :: cs => digitsIn? 8 cs
    | '0' :: 'b' :: cs => digitsIn? 2 cs
    | '0' :: _ :: _ => none
    | cs => digitsIn? 10 cs

/-- The text of any scalar. -/
def readText (field : String) : Node → Except Fault String
  | .scalar s => .ok s.text
  | _ => .error (.mistyped field)

/-- The type of truth values. -/
def truthTag : Tag :=
  .ofName "tag:yaml.org,2002:bool"

/-- The type of whole numbers. -/
def numberTag : Tag :=
  .ofName "tag:yaml.org,2002:int"

/-- A truth value, which is not quoted. -/
def readTruth (field : String) : Node → Except Fault Bool
  | .scalar s =>
    if !s.mayBe truthTag then .error (.mistyped field)
    else if s.text = "true" || s.text = "True" || s.text = "TRUE" then .ok true
    else if s.text = "false" || s.text = "False" || s.text = "FALSE" then .ok false
    else .error (.mistyped field)
  | _ => .error (.mistyped field)

/-- A whole number of 64 bits, which is not quoted. -/
def readWord64 (field : String) : Node → Except Fault UInt64
  | .scalar s =>
    if !s.mayBe numberTag then .error (.mistyped field)
    else
      match wholeNumber? s.text with
      | some n => if n < Nat.pow 2 64 then .ok (UInt64.ofNat n) else .error (.mistyped field)
      | none => .error (.mistyped field)
  | _ => .error (.mistyped field)

/-- The names of the settings in a document. -/
def fieldNames : List String :=
  ["indent", "class_suffix", "provenance", "wait_for_text_timeout", "default_window_timeout"]

/-- Changes the setting of this name; an unknown name changes nothing. -/
def set (c : Config) (field : String) (node : Node) : Except Fault Config :=
  if field = "indent" then (readText field node).map fun s => { c with indent := s }
  else if field = "class_suffix" then
    (readText field node).map fun s => { c with classSuffix := s }
  else if field = "provenance" then
    (readTruth field node).map fun b => { c with provenance := b }
  else if field = "wait_for_text_timeout" then
    (readWord64 field node).map fun n => { c with waitForTextTimeout := n }
  else if field = "default_window_timeout" then
    (readWord64 field node).map fun n => { c with defaultWindowTimeout := n }
  else .ok c

/-- Applies the entries of a document in order, where `given` are the settings changed before. A
setting may be given only once. -/
def setAll (given : List String) (c : Config) : List (Node × Node) → Except Fault Config
  | [] => .ok c
  | (.scalar key, node) :: rest =>
    if key.text ∈ given then .error (.repeated key.text)
    else do
      let changed ← c.set key.text node
      setAll (if key.text ∈ fieldNames then key.text :: given else given) changed rest
  | _ => .error (.mistyped "key")

/-- The configuration that a document gives: a mapping, or nothing at all. -/
def ofNode : Node → Except Fault Config
  | .mapping entries => setAll [] {} entries
  | .scalar s => if s = .empty then .ok {} else .error (.mistyped "document")
  | .sequence _ => .error (.mistyped "document")

/-- Reads a configuration document. -/
def parse (s : String) : Except Fault Config := do
  ofNode (← Yaml.parse s)

/-- The settings as they are shown in a log. -/
def shown (c : Config) : String :=
  String.join [
    "ExportConfig \x7b indent: ", Text.shown c.indent,
    ", class_suffix: ", Text.shown c.classSuffix,
    ", provenance: ", if c.provenance then "true" else "false",
    ", wait_for_text_timeout: ", c.waitForTextTimeout.toNat.repr,
    ", default_window_timeout: ", c.defaultWindowTimeout.toNat.repr, " \x7d"]

end Config

end CestWriter
