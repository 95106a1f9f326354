import CestWriter.Proofs.JsonReading
import CestWriter.Recording.Codec
import Mathlib.Data.List.Basic

/-!
# Recordings are kept by their JSON text

Each kind of field is read back from what is written for it, so a record is, and with it a list of
records. Together with the reading of written values this says that a project is what its own text
is read as.
-/

namespace CestWriter

namespace Json

/-! ## Single fields -/

namespace Value

theorem text?_ofString? (s : Option String) : (ofString? s).text? = .ok s := by
  cases s with
  | none => rfl
  | some s => rfl

/-- The digits of a number, read from the left. -/
theorem foldl_toDigits (n : Nat) :
    (Nat.toDigits 10 n).foldl (fun n c => n * 10 + (c.toNat - '0'.toNat)) 0 = n := by
  have hread := Nat.ofDigitChars_ten_toDigits (n := n)
  rw [Nat.ofDigitChars_eq_foldl] at hread
  simpa only [Nat.mul_comm 10] using hread

theorem word64_ofNat {n : Nat} (hn : n < Nat.pow 2 64) : (ofNat n).word64 = .ok (UInt64.ofNat n) := by
  have hdigits : n.repr.toList = Nat.toDigits 10 n := by
    rw [Nat.repr_eq_ofList_toDigits, String.toList_ofList]
  have hall : (Nat.toDigits 10 n).all Char.isDigit = true :=
    List.all_eq_true.mpr isDigit_of_mem_toDigits
  change (if _ then _ else _) = _
  rw [hdigits, foldl_toDigits, hall]
  exact if_pos (by simpa using hn)

theorem word64?_ofWord64? (n : Option UInt64) : (ofWord64? n).word64? = .ok n := by
  cases n with
  | none => rfl
  | some n =>
    change (ofNat n.toNat).word64.map some = _
    rw [word64_ofNat n.toNat_lt, UInt64.ofNat_toNat]
    rfl

/-- A list is read back if its items are. -/
theorem list_map {α : Type} (read : Value → Except Fault α) (write : α → Value)
    (h : ∀ a, read (write a) = .ok a) (xs : List α) : list read (.array (xs.map write)) = .ok xs := by
  have hid : read ∘ write = fun a => pure (id a) := funext h
  change (xs.map write).mapM read = _
  rw [List.mapM_map, hid, List.mapM_pure, List.map_id]
  rfl

end Value

/-! ## Records -/

namespace Value.Whole

theorem ofString? (s : Option String) : (Value.ofString? s).Whole := by
  cases s with
  | none => exact .null
  | some s => exact .string _

theorem ofWord64? (n : Option UInt64) : (Value.ofWord64? n).Whole := by
  cases n with
  | none => exact .null
  | some n => exact .number _

theorem ofTextPair (pair : String × String) : (Value.ofTextPair pair).Whole := by
  refine .array ?_
  simp [Value.ofString, Value.Whole.string]

theorem list {α : Type} {write : α → Value} (h : ∀ a, (write a).Whole) (xs : List α) :
    (Value.array (xs.map write)).Whole := by
  refine .array fun v hv => ?_
  obtain ⟨a, -, rfl⟩ := List.mem_map.mp hv
  exact h a

theorem record {fields : Fields} (h : fields.Forall (·.2.Whole)) :
    (Value.record fields).Whole := by
  refine .object fun m hm => ?_
  obtain ⟨field, hfield, rfl⟩ := List.mem_map.mp hm
  exact List.forall_iff_forall_mem.mp h field hfield

end Value.Whole

namespace Fields

theorem ok_bind {α β : Type} (a : α) (f : α → Except Fault β) : (Except.ok a >>= f) = f a :=
  rfl

theorem ofMembers_record {names : List String} {given fields : Fields}
    (hknown : ∀ field ∈ fields, field.1 ∈ names)
    (hdistinct : ((given ++ fields).map Prod.fst).Nodup) :
    ofMembers names given (fields.map fun (name, v) => (some name, v)) = .ok (given ++ fields) := by
  induction fields generalizing given with
  | nil => rw [List.append_nil, List.map_nil, ofMembers]
  | cons field fields ih =>
    obtain ⟨name, v⟩ := field
    have hnew : given.lookup name = none := by
      rw [List.lookup_eq_none_iff]
      intro earlier hearlier
      rw [List.map_append, List.nodup_append] at hdistinct
      have hne := hdistinct.2.2 earlier.1 (List.mem_map_of_mem hearlier) name (by simp)
      simpa using hne.symm
    have hrest := @ih (given ++ [(name, v)])
      (fun f hf => hknown f (List.mem_cons_of_mem _ hf))
    rw [List.append_assoc, List.singleton_append] at hrest
    rw [List.map_cons, ofMembers, if_pos (hknown _ List.mem_cons_self), hnew]
    exact hrest hdistinct

/-- A record that gives each of its fields is taken as it is. -/
theorem of_record (names : List String) {fields : Fields} (hnames : fields.map Prod.fst = names)
    (hdistinct : names.Nodup) : Fields.of names (.record fields) = .ok fields := by
  subst hnames
  exact ofMembers_record (fun _ hfield => List.mem_map_of_mem hfield) hdistinct

end Fields

end Json

open Json (Fault Value Fields)

/-! ## The records of a recording -/

theorem Command.ofJson_toJson (c : Command) : Command.ofJson c.toJson = .ok c := by
  have htargets := Value.list_map Value.textPair Value.ofTextPair (fun _ => rfl) c.targets
  rw [ofJson, toJson, Fields.of_record fieldNames rfl (by decide)]
  simp only [Fields.ok_bind, Fields.optional, Fields.required, List.lookup_cons, String.reduceBEq,
    htargets, Value.text?_ofString?, Value.word64?_ofWord64?]
  rfl

theorem Test.ofJson_toJson (t : Test) : Test.ofJson t.toJson = .ok t := by
  have hcommands := Value.list_map _ _ Command.ofJson_toJson t.commands
  rw [ofJson, toJson, Fields.of_record fieldNames rfl (by decide)]
  simp only [Fields.ok_bind, Fields.optional, Fields.required, List.lookup_cons, String.reduceBEq,
    hcommands]
  rfl

theorem Suite.ofJson_toJson (s : Suite) : Suite.ofJson s.toJson = .ok s := by
  have htests := Value.list_map Value.text Value.ofString (fun _ => rfl) s.tests
  rw [ofJson, toJson, Fields.of_record fieldNames rfl (by decide)]
  simp only [Fields.ok_bind, Fields.optional, Fields.required, List.lookup_cons, String.reduceBEq,
    htests]
  rfl

theorem Project.ofJson_toJson (p : Project) : Project.ofJson p.toJson = .ok p := by
  have htests := Value.list_map _ _ Test.ofJson_toJson p.tests
  have hsuites := Value.list_map _ _ Suite.ofJson_toJson p.suites
  rw [ofJson, toJson, Fields.of_record fieldNames rfl (by decide)]
  simp only [Fields.ok_bind, Fields.optional, Fields.required, List.lookup_cons, String.reduceBEq,
    htests, hsuites]
  rfl

theorem Command.whole_toJson (c : Command) : c.toJson.Whole :=
  .record ⟨.string _, .string _, .string _, .ofString? _, .list Value.Whole.ofTextPair _,
    .ofString? _, .bool _, .string _, .ofWord64? _⟩

theorem Test.whole_toJson (t : Test) : t.toJson.Whole :=
  .record ⟨.string _, .string _, .list Command.whole_toJson _⟩

theorem Suite.whole_toJson (s : Suite) : s.toJson.Whole :=
  .record ⟨.string _, .string _, .list (fun _ => .string _) _⟩

theorem Project.whole_toJson (p : Project) : p.toJson.Whole :=
  .record ⟨.string _, .string _, .string _, .list Test.whole_toJson _, .list Suite.whole_toJson _⟩

/-! ## The bytes of a text -/

theorem toList_loop (bytes : ByteArray) (i : Nat) (acc : List UInt8) :
    ByteArray.toList.loop bytes i acc = acc.reverse ++ bytes.data.toList.drop i := by
  fun_induction ByteArray.toList.loop bytes i acc with
  | case1 i acc hlt ih =>
    have hlt' : i < bytes.data.toList.length := by
      rw [Array.length_toList]
      exact hlt
    have hget : bytes.get! i = bytes.data.toList[i] := getElem!_pos bytes.data i hlt
    rw [ih, List.drop_eq_getElem_cons hlt', hget, List.reverse_cons, List.append_assoc,
      List.singleton_append]
  | case2 i acc hge =>
    rw [List.drop_eq_nil_of_le, List.append_nil]
    rw [Array.length_toList]
    exact Nat.le_of_not_lt hge

theorem toList_toUTF8_inj {s t : String} (h : s.toUTF8.toList = t.toUTF8.toList) : s = t := by
  simp only [ByteArray.toList, toList_loop, List.reverse_nil, List.nil_append, List.drop_zero] at h
  exact String.toByteArray_inj.mp (ByteArray.ext (Array.toList_inj.mp h))

namespace Project

/-! ## The text of a project -/

theorem parse_of_value {s : String} {v : Value} (h : Value.parse s = .ok v) :
    parse s = ofJson v := by
  rw [parse, h]
  rfl

theorem parse_write (p : Project) : parse p.toJson.write = .ok p := by
  rw [parse_of_value p.whole_toJson.parse_write, ofJson_toJson]

/-- Two projects whose recorded tests have the same text have the same tests. -/
theorem tests_eq_of_testBytes {p q : Project} (h : p.testBytes = q.testBytes) :
    p.tests = q.tests := by
  have hread (r : Project) : (Value.parse (Value.array (r.tests.map Test.toJson)).write).bind
      (Value.list Test.ofJson) = .ok r.tests := by
    rw [(Value.Whole.list Test.whole_toJson r.tests).parse_write]
    exact Value.list_map _ _ Test.ofJson_toJson r.tests
  have hwritten := toList_toUTF8_inj h
  have hp := hread p
  rw [hwritten, hread q] at hp
  exact (Except.ok.inj hp).symm

/-- The text of a project, written anew: with every field, in order, and without spaces. -/
def canonical (text : String) : Except Fault String :=
  (parse text).map fun p => p.toJson.write

theorem canonical_write (p : Project) : canonical p.toJson.write = .ok p.toJson.write := by
  rw [canonical, parse_write]
  rfl

/-- A project is read back from its text. So the bytes that are digested determine the tests, and
what a text is written anew as is not changed by writing it anew. -/
theorem json_roundTrip :
    (∀ p : Project, parse p.toJson.write = .ok p) ∧
    (∀ p q : Project, p.testBytes = q.testBytes ↔ p.tests = q.tests) ∧
    ∀ text written, canonical text = .ok written → canonical written = .ok written := by
  refine ⟨parse_write, fun p q => ⟨tests_eq_of_testBytes, fun h => ?_⟩, fun text written h => ?_⟩
  · rw [testBytes, testBytes, h]
  · rw [canonical] at h
    cases hparse : parse text with
    | error fault =>
      rw [hparse] at h
      cases h
    | ok p =>
      rw [hparse] at h
      cases h
      exact canonical_write p

/-- A project with every kind of field. -/
def unusual : Project where
  name := "Say \"hi\" \\ 😀"
  tests := [{
    name := "tab\tbell\x07"
    commands := [
      { name := "click", target := some "", targets := [("id=a", "id"), ("", "")],
        opensWindow := true, windowTimeout := some 18446744073709551615 },
      { name := "// pause", comment := "\n\x7f", value := some "\u2028" }] }]
  suites := [{ name := "all", tests := ["t1", ""] }]

/-- A project with a field that is not known, and without some that are. -/
def shortRecord : Value :=
  .record [("note", .null), ("url", .ofString "/"), ("name", .ofString "Shop")]

/-- The text of the short record. -/
def shortText : String :=
  "\x7b\"note\":null,\"url\":\"/\",\"name\":\"Shop\"\x7d"

/-- What the short text is written anew as. -/
def shortCanonical : String :=
  "\x7b\"id\":\"\",\"name\":\"Shop\",\"url\":\"/\",\"tests\":[],\"suites\":[]\x7d"

theorem json_roundTrip_unusual :
    parse unusual.toJson.write = .ok unusual ∧
    canonical shortText = .ok shortCanonical ∧ shortText ≠ shortCanonical ∧
    canonical shortCanonical = .ok shortCanonical := by
  have hwhole : shortRecord.Whole := .record ⟨.null, .string _, .string _⟩
  have htext : shortText = shortRecord.write := by decide +kernel
  have hread : ofJson shortRecord = .ok { name := "Shop", url := "/" } := rfl
  have hwrite : (toJson { name := "Shop", url := "/" }).write = shortCanonical := by
    decide +kernel
  have hcanonical : canonical shortText = .ok shortCanonical := by
    rw [canonical, htext, parse_of_value hwhole.parse_write, hread, ← hwrite]
    rfl
  exact ⟨json_roundTrip.1 unusual, hcanonical, by decide +kernel,
    json_roundTrip.2.2 shortText shortCanonical hcanonical⟩

end Project

end CestWriter
