import CestWriter.Registry
import CestWriter.Vocabulary.Standard

/-!
# Command tables

A table knows the emitters of commands by name, how locators are resolved, and the configuration.
It begins with the standard vocabulary and can be extended.
-/

namespace CestWriter

/-- Emitters by command name, with what they consult. -/
structure Table where
  emitters : Registry Emitter
  resolver : Resolver
  config : Config

namespace Table

/-- The registry of the standard vocabulary. -/
def standardEmitters : Registry Emitter :=
  Registry.ofList Vocabulary.standard

/-- The table with the standard vocabulary. -/
def standard (config : Config) : Table where
  emitters := standardEmitters
  resolver := .standard
  config := config

/-- The same table with another way to resolve locators. -/
def withResolver (t : Table) (resolver : Resolver) : Table :=
  { t with resolver := resolver }

/-- The table with one more emitter, which replaces one of the same name. -/
def register (t : Table) (name : String) (emitter : Emitter) : Table :=
  { t with emitters := t.emitters.insert name emitter }

/-- Whether there is an emitter of this name. -/
def knows (t : Table) (name : String) : Bool :=
  t.emitters.contains name

/-- The names of all commands that the table knows, in order. -/
def names (t : Table) : List String :=
  t.emitters.names

/-- The emission of a command that stands at a level. -/
def emit (t : Table) (depth : Nat) (c : Command) : Except Error Emission :=
  match t.emitters.get? c.name with
  | none => .error (.unknownCommand c.name)
  | some emitter => do
    let e ← emitter ⟨t.resolver, t.config, depth⟩ c
    return Vocabulary.withWindow c t.config e

end Table

end CestWriter
