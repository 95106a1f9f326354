import CestWriter.Digest.Sha256
import CestWriter.Json.Record
import CestWriter.Recording.Project

/-!
# Recordings as JSON

Commands, tests, suites and projects are records. Writing gives every field, in a fixed order;
reading takes fields in any order and fills in what is left out, except for the name.
-/

namespace CestWriter

open Json (Fault Value Fields)

namespace Command

/-- The fields of a command, in order. -/
def fieldNames : List String :=
  ["id", "comment", "command", "target", "targets", "value", "opensWindow", "windowHandleName",
    "windowTimeout"]

def toJson (c : Command) : Value :=
  .record [
    ("id", .ofString c.id),
    ("comment", .ofString c.comment),
    ("command", .ofString c.name),
    ("target", .ofString? c.target),
    ("targets", .array (c.targets.map Value.ofTextPair)),
    ("value", .ofString? c.value),
    ("opensWindow", .bool c.opensWindow),
    ("windowHandleName", .ofString c.windowHandleName),
    ("windowTimeout", .ofWord64? c.windowTimeout)]

def ofJson (v : Value) : Except Fault Command := do
  let fields ← Fields.of fieldNames v
  return {
    id := ← fields.optional "id" Value.text ""
    comment := ← fields.optional "comment" Value.text ""
    name := ← fields.required "command" Value.text
    target := ← fields.optional "target" Value.text? none
    targets := ← fields.optional "targets" (Value.list Value.textPair) []
    value := ← fields.optional "value" Value.text? none
    opensWindow := ← fields.optional "opensWindow" Value.truth false
    windowHandleName := ← fields.optional "windowHandleName" Value.text ""
    windowTimeout := ← fields.optional "windowTimeout" Value.word64? none }

/-- Reads a command from JSON text. -/
def parse (s : String) : Except Fault Command := do
  ofJson (← Value.parse s)

end Command

namespace Test

/-- The fields of a test, in order. -/
def fieldNames : List String :=
  ["id", "name", "commands"]

def toJson (t : Test) : Value :=
  .record [
    ("id", .ofString t.id),
    ("name", .ofString t.name),
    ("commands", .array (t.commands.map Command.toJson))]

def ofJson (v : Value) : Except Fault Test := do
  let fields ← Fields.of fieldNames v
  return {
    id := ← fields.optional "id" Value.text ""
    name := ← fields.required "name" Value.text
    commands := ← fields.optional "commands" (Value.list Command.ofJson) [] }

end Test

namespace Suite

/-- The fields of a suite, in order. -/
def fieldNames : List String :=
  ["id", "name", "tests"]

def toJson (s : Suite) : Value :=
  .record [
    ("id", .ofString s.id),
    ("name", .ofString s.name),
    ("tests", .array (s.tests.map Value.ofString))]

def ofJson (v : Value) : Except Fault Suite := do
  let fields ← Fields.of fieldNames v
  return {
    id := ← fields.optional "id" Value.text ""
    name := ← fields.required "name" Value.text
    tests := ← fields.optional "tests" (Value.list Value.text) [] }

end Suite

namespace Project

/-- The fields of a project, in order. -/
def fieldNames : List String :=
  ["id", "name", "url", "tests", "suites"]

def toJson (p : Project) : Value :=
  .record [
    ("id", .ofString p.id),
    ("name", .ofString p.name),
    ("url", .ofString p.url),
    ("tests", .array (p.tests.map Test.toJson)),
    ("suites", .array (p.suites.map Suite.toJson))]

def ofJson (v : Value) : Except Fault Project := do
  let fields ← Fields.of fieldNames v
  return {
    id := ← fields.optional "id" Value.text ""
    name := ← fields.required "name" Value.text
    url := ← fields.optional "url" Value.text ""
    tests := ← fields.optional "tests" (Value.list Test.ofJson) []
    suites := ← fields.optional "suites" (Value.list Suite.ofJson) [] }

/-- Reads a project from JSON text. -/
def parse (s : String) : Except Fault Project := do
  ofJson (← Value.parse s)

/-- The JSON text of the recorded tests. -/
def testBytes (p : Project) : List UInt8 :=
  (Value.array (p.tests.map Test.toJson)).write.toUTF8.toList

/-- A short digest of the recorded tests, by which a change of the recording shows: the first eight
bytes of the SHA-256 digest of their JSON text. -/
def digest (p : Project) : String :=
  "sha256:" ++ Sha256.hex ((Sha256.digest p.testBytes).take 8)

end Project

end CestWriter
