import CestWriter.Config
import CestWriter.Proofs.JsonText
import CestWriter.Proofs.YamlMappings
import Mathlib.Data.List.Nodup

/-!
# Configuration documents

A configuration document that is made of lines gives each setting at most once, in any order, with
blank lines, comments and unknown keys anywhere between them. Its configuration depends on the
settings only. A setting that is given twice is refused, and so is an unknown key that is too long
to be a key.
-/

namespace CestWriter.Config

open Yaml (Entry Fault Inline Value Word)

/-! ## Settings and lines -/

/-- A setting with the value that a document gives it. -/
inductive Setting where
  | indent (t : Inline)
  | classSuffix (t : Inline)
  | provenance (b : Bool)
  | waitForTextTimeout (n : UInt64)
  | defaultWindowTimeout (n : UInt64)

/-- A truth value as a word. -/
def truthWord (b : Bool) : Word where
  text := if b then "true" else "false"
  nonempty := by cases b <;> decide
  chars := by cases b <;> exact List.all_eq_true.mp (by decide)

theorem isWordChar_of_isDigit {c : Char} (h : c.isDigit = true) : Yaml.isWordChar c = true := by
  simp [Yaml.isWordChar, Char.isAlphanum, h]

/-- A number as a word, in decimal. -/
def numberWord (n : UInt64) : Word where
  text := n.toNat.repr
  nonempty := by
    rw [Nat.toList_repr]
    exact Nat.toDigits_ne_nil
  chars := by
    intro c hc
    rw [Nat.toList_repr] at hc
    exact isWordChar_of_isDigit (Json.isDigit_of_mem_toDigits c hc)

namespace Setting

/-- The name of the setting. -/
def field : Setting → String
  | .indent _ => "indent"
  | .classSuffix _ => "class_suffix"
  | .provenance _ => "provenance"
  | .waitForTextTimeout _ => "wait_for_text_timeout"
  | .defaultWindowTimeout _ => "default_window_timeout"

/-- The value as it is written: texts in quotes, the others without. -/
def value : Setting → Value
  | .indent t => .quoted t
  | .classSuffix t => .quoted t
  | .provenance b => .plain (truthWord b)
  | .waitForTextTimeout n => .plain (numberWord n)
  | .defaultWindowTimeout n => .plain (numberWord n)

theorem field_mem (s : Setting) : s.field ∈ fieldNames := by
  cases s <;> simp [field, fieldNames]

theorem word_of_mem_fieldNames :
    ∀ name ∈ fieldNames, name.toList ≠ [] ∧ name.toList.all Yaml.isWordChar = true := by
  decide

/-- The name as a word. -/
def key (s : Setting) : Word where
  text := s.field
  nonempty := (word_of_mem_fieldNames s.field s.field_mem).1
  chars := List.all_eq_true.mp (word_of_mem_fieldNames s.field s.field_mem).2

/-- The configuration with this setting replaced. -/
def apply : Setting → Config → Config
  | .indent t, c => { c with indent := t.text }
  | .classSuffix t, c => { c with classSuffix := t.text }
  | .provenance b, c => { c with provenance := b }
  | .waitForTextTimeout n, c => { c with waitForTextTimeout := n }
  | .defaultWindowTimeout n, c => { c with defaultWindowTimeout := n }

end Setting

/-- A line of a configuration document. -/
inductive DocumentLine where
  | blank (width : Nat)
  | comment (width : Nat) (t : Inline)
  | setting (s : Setting)
  /-- A key that is not the name of a setting. -/
  | other (key value : Word) (unknown : key.text ∉ fieldNames)

namespace DocumentLine

/-- The line as one of any mapping. -/
def line : DocumentLine → Yaml.Line
  | .blank width => .blank width
  | .comment width t => .comment width t
  | .setting s => .entry ⟨s.key, s.value⟩
  | .other key value _ => .entry ⟨key, .plain value⟩

/-- An unknown key is not too long to be one. -/
def Short : DocumentLine → Prop
  | .other key _ _ => key.Short
  | _ => True

/-- The setting in a line. -/
def setting? : DocumentLine → Option Setting
  | .setting s => some s
  | _ => none

end DocumentLine

/-- The text of a configuration document. -/
def document (lines : List DocumentLine) : String :=
  Yaml.Line.document (lines.map DocumentLine.line)

/-- The settings in a document. -/
def settings (lines : List DocumentLine) : List Setting :=
  lines.filterMap DocumentLine.setting?

/-- The default configuration with these settings replaced. -/
def override (ss : List Setting) : Config :=
  ss.foldl (fun c s => s.apply c) {}

/-! ## Reading values -/

theorem foldlM_digits {cs : List Char} (hdigits : ∀ c ∈ cs, c.isDigit = true) (n : Nat) :
    cs.foldlM (fun n c => do
        let d ← Text.hexDigit? c
        if d < 10 then some (10 * n + d) else none) n =
      some (cs.foldl (fun n c => 10 * n + (c.toNat - '0'.toNat)) n) := by
  induction cs generalizing n with
  | nil => rfl
  | cons c cs ih =>
    have hc := hdigits c List.mem_cons_self
    have hbound : c.toNat - '0'.toNat < 10 := by
      simp [Char.isDigit, UInt32.le_iff_toNat_le] at hc
      change c.toNat - 48 < 10
      omega
    have hdigit : Text.hexDigit? c = some (c.toNat - '0'.toNat) := by
      rw [Text.hexDigit?, if_pos hc]
    rw [List.foldlM_cons, List.foldl_cons, hdigit]
    change (if c.toNat - '0'.toNat < 10 then some _ else none) >>= _ = _
    rw [if_pos hbound]
    exact ih (fun d hd => hdigits d (List.mem_cons_of_mem c hd)) _

theorem digitsIn?_toDigits (n : Nat) : digitsIn? 10 (Nat.toDigits 10 n) = some n := by
  have hread := Nat.ofDigitChars_ten_toDigits (n := n)
  rw [Nat.ofDigitChars_eq_foldl] at hread
  rw [digitsIn?, if_neg (by simp),
    foldlM_digits Json.isDigit_of_mem_toDigits, hread]

/-- A number in decimal, which has no zero in front, is read back. -/
theorem wholeNumber?_repr (n : Nat) : wholeNumber? n.repr = some n := by
  by_cases hn : n = 0
  · rw [hn]
    rfl
  · have hhead := Json.head_toDigits_ne_zero hn
    have hread := digitsIn?_toDigits n
    rw [wholeNumber?, Nat.toList_repr]
    cases hdigits : Nat.toDigits 10 n with
    | nil => exact absurd hdigits Nat.toDigits_ne_nil
    | cons c cs =>
      have hdigit : c.isDigit = true :=
        Json.isDigit_of_mem_toDigits c (by rw [hdigits]; exact List.mem_cons_self)
      have hzero : c ≠ '0' := hhead c (by rw [hdigits]; rfl)
      have hplus : c ≠ '+' := by
        rintro rfl
        cases hdigit
      rw [hdigits] at hread
      simpa [wholeNumber?.unsigned?, hzero, hplus] using hread

theorem readWord64_number (field : String) (n : UInt64) :
    readWord64 field (.scalar (Value.plain (numberWord n)).scalar) = .ok n := by
  have hbound : n.toNat < Nat.pow 2 64 := n.toNat_lt
  have hplain : ∀ text, Yaml.Scalar.mayBe numberTag ⟨.plain, text⟩ = true := fun _ => rfl
  simp only [readWord64, Value.scalar, numberWord, wholeNumber?_repr]
  rw [hplain, if_neg (by decide), if_pos hbound, UInt64.ofNat_toNat]

/-- The value of a setting is read as it is meant. -/
theorem set_setting (c : Config) (s : Setting) :
    c.set s.field (.scalar s.value.scalar) = .ok (s.apply c) := by
  cases s with
  | indent t => rfl
  | classSuffix t => rfl
  | provenance b => cases b <;> rfl
  | waitForTextTimeout n =>
    rw [set]
    simp [Setting.field, Setting.value, readWord64_number, Except.map, Setting.apply]
  | defaultWindowTimeout n =>
    rw [set]
    simp [Setting.field, Setting.value, readWord64_number, Except.map, Setting.apply]

theorem set_unknown (c : Config) {field : String} (h : field ∉ fieldNames) (node : Yaml.Node) :
    c.set field node = .ok c := by
  simp only [fieldNames, List.mem_cons, List.not_mem_nil, or_false, not_or] at h
  simp [set, h]

/-! ## Settings in order -/

/-- Applies settings in order, where those with the names `given` were applied before. -/
def applyAll (given : List String) (c : Config) : List Setting → Except Fault Config
  | [] => .ok c
  | s :: ss =>
    if s.field ∈ given then .error (.repeated s.field)
    else applyAll (s.field :: given) (s.apply c) ss

/-- Only the settings of a document count. -/
theorem setAll_entries (lines : List DocumentLine) {given : List String}
    (hgiven : ∀ name ∈ given, name ∈ fieldNames) (c : Config) :
    setAll given c ((Yaml.Line.entries (lines.map DocumentLine.line)).map Entry.nodes) =
      applyAll given c (settings lines) := by
  induction lines generalizing given c with
  | nil => rfl
  | cons l ls ih =>
    cases l with
    | blank width => exact ih hgiven c
    | comment width t => exact ih hgiven c
    | setting s =>
      change setAll given c ((.scalar ⟨.plain, s.field⟩, .scalar s.value.scalar) :: _) =
        if s.field ∈ given then _ else _
      rw [setAll]
      split
      · rfl
      · -- the name joins those that are given, all of them names of settings
        rw [set_setting, if_pos s.field_mem]
        refine ih (fun name hname => ?_) _
        rcases List.mem_cons.mp hname with rfl | hname
        · exact s.field_mem
        · exact hgiven name hname
    | other key value unknown =>
      -- an unknown key cannot be among the names that are given, and is not added to them
      change setAll given c ((.scalar ⟨.plain, key.text⟩, .scalar ⟨.plain, value.text⟩) :: _) = _
      rw [setAll, if_neg fun h => unknown (hgiven _ h), set_unknown c unknown, if_neg unknown]
      exact ih hgiven c

theorem applyAll_of_nodup {ss : List Setting} {given : List String}
    (h : (given ++ ss.map Setting.field).Nodup) (c : Config) :
    applyAll given c ss = .ok (ss.foldl (fun c s => s.apply c) c) := by
  induction ss generalizing given c with
  | nil => rfl
  | cons s ss ih =>
    rw [List.map_cons, List.perm_middle.nodup_iff] at h
    have hnew : s.field ∉ given := fun hmem =>
      (List.nodup_cons.mp h).1 (List.mem_append_left _ hmem)
    rw [applyAll, if_neg hnew]
    exact ih h (s.apply c)

/-- A setting that is given twice is refused. -/
theorem applyAll_of_not_nodup {ss : List Setting} {given : List String} (hgiven : given.Nodup)
    (h : ¬ (given ++ ss.map Setting.field).Nodup) (c : Config) :
    ∃ name, 2 ≤ (given ++ ss.map Setting.field).count name ∧
      applyAll given c ss = .error (.repeated name) := by
  induction ss generalizing given c with
  | nil => exact absurd (by simpa using hgiven) h
  | cons s ss ih =>
    have hperm : (given ++ s.field :: ss.map Setting.field).Perm
        (s.field :: given ++ ss.map Setting.field) := List.perm_middle
    rw [List.map_cons, applyAll]
    split
    · next hmem =>
      refine ⟨s.field, ?_, rfl⟩
      have hcount := List.count_pos_iff.mpr hmem
      rw [List.count_append, List.count_cons_self]
      omega
    · next hnew =>
      rw [List.map_cons, hperm.nodup_iff] at h
      obtain ⟨name, hcount, herror⟩ := ih (List.nodup_cons.mpr ⟨hnew, hgiven⟩) h (s.apply c)
      exact ⟨name, by rwa [hperm.count_eq], herror⟩

theorem apply_comm {s s' : Setting} (h : s.field ≠ s'.field) (c : Config) :
    s'.apply (s.apply c) = s.apply (s'.apply c) := by
  cases s <;> cases s' <;> simp_all [Setting.apply, Setting.field]

/-- The order of settings does not count. -/
theorem override_perm {ss ss' : List Setting} (hnodup : (ss.map Setting.field).Nodup)
    (h : ss.Perm ss') : override ss = override ss' := by
  refine h.foldl_eq' (fun s hs s' hs' c => ?_) _
  by_cases heq : s.field = s'.field
  · rw [List.inj_on_of_nodup_map hnodup hs hs' heq]
  · exact apply_comm heq c

/-! ## Documents -/

theorem size_of_mem_fieldNames : ∀ name ∈ fieldNames, name.utf8ByteSize ≤ Yaml.KeyStart.limit := by
  decide

theorem short_key (s : Setting) : s.key.Short :=
  size_of_mem_fieldNames s.field s.field_mem

theorem short_iff (lines : List DocumentLine) :
    (∀ e ∈ Yaml.Line.entries (lines.map DocumentLine.line), e.key.Short) ↔
      ∀ l ∈ lines, l.Short := by
  induction lines with
  | nil => simp [Yaml.Line.entries]
  | cons l ls ih =>
    rw [List.forall_mem_cons, ← ih]
    cases l with
    | blank width => exact (iff_of_eq (true_and _)).symm
    | comment width t => exact (iff_of_eq (true_and _)).symm
    | setting s =>
      change (∀ e ∈ _ :: Yaml.Line.entries (ls.map DocumentLine.line), _) ↔ True ∧ _
      rw [List.forall_mem_cons]
      exact and_congr_left fun _ => iff_true_intro (short_key s)
    | other key value unknown =>
      change (∀ e ∈ _ :: Yaml.Line.entries (ls.map DocumentLine.line), _) ↔ _ ∧ _
      rw [List.forall_mem_cons]
      exact Iff.rfl

/-- A document comes to its settings, unless an unknown key is too long. -/
theorem parse_document (lines : List DocumentLine) :
    ((∀ l ∈ lines, l.Short) → parse (document lines) = applyAll [] {} (settings lines)) ∧
    (¬ (∀ l ∈ lines, l.Short) → parse (document lines) = .error .misplaced) := by
  rw [← short_iff, parse, document, Yaml.parse_document]
  constructor
  · intro hshort
    rw [if_pos hshort, ← setAll_entries lines (by simp)]
    cases Yaml.Line.entries (lines.map DocumentLine.line) <;> rfl
  · intro hlong
    rw [if_neg hlong]
    rfl

/-- The default configuration is overridden by the settings of a document, wherever they stand and
whatever stands between them. A setting that is given twice is refused, and so is an unknown key
that is too long. -/
theorem document_overrides (lines : List DocumentLine) :
    ((∀ l ∈ lines, l.Short) → ((settings lines).map Setting.field).Nodup →
      parse (document lines) = .ok (override (settings lines)) ∧
      ∀ lines', (∀ l ∈ lines', l.Short) → (settings lines').Perm (settings lines) →
        parse (document lines') = parse (document lines)) ∧
    (¬ ((settings lines).map Setting.field).Nodup →
      ∃ fault, parse (document lines) = .error fault ∧
        ((∀ l ∈ lines, l.Short) →
          ∃ name, 2 ≤ ((settings lines).map Setting.field).count name ∧
            fault = .repeated name)) ∧
    (¬ (∀ l ∈ lines, l.Short) → parse (document lines) = .error .misplaced) := by
  have hgives : ∀ {ls : List DocumentLine}, (∀ l ∈ ls, l.Short) →
      ((settings ls).map Setting.field).Nodup →
        parse (document ls) = .ok (override (settings ls)) := fun hshort hnodup =>
    ((parse_document _).1 hshort).trans (applyAll_of_nodup hnodup {})
  refine ⟨?_, ?_, (parse_document lines).2⟩
  · intro hshort hnodup
    refine ⟨hgives hshort hnodup, fun lines' hshort' hperm => ?_⟩
    have hnodup' : ((settings lines').map Setting.field).Nodup :=
      (hperm.map Setting.field).nodup_iff.mpr hnodup
    rw [hgives hshort hnodup, hgives hshort' hnodup', override_perm hnodup' hperm]
  · intro hrepeated
    by_cases hshort : ∀ l ∈ lines, l.Short
    · obtain ⟨name, hcount, herror⟩ := applyAll_of_not_nodup List.nodup_nil hrepeated {}
      exact ⟨.repeated name, ((parse_document lines).1 hshort).trans herror,
        fun _ => ⟨name, hcount, rfl⟩⟩
    · exact ⟨.misplaced, (parse_document lines).2 hshort, fun h => absurd h hshort⟩

/-- A text in quotes with a tab and a quote in it. -/
def sampleText : Inline where
  text := "\t\""
  inline := List.all_eq_true.mp (by decide)

/-- A word. -/
def sampleWord : Word where
  text := "b"
  nonempty := by decide
  chars := List.all_eq_true.mp (by decide)

/-- Two settings between a comment, an unknown key and a blank line. -/
def sampleLines : List DocumentLine :=
  [.comment 1 sampleText, .setting (.provenance false), .other sampleWord sampleWord (by decide),
    .setting (.indent sampleText), .blank 2]

/-- At the sample, at the same lines from the last to the first, and at the sample twice. -/
theorem document_overrides_sampleLines :
    document sampleLines = " #\t\"\nprovenance: false\nb: b\nindent: \"\t\\\"\"\n  " ∧
      parse (document sampleLines) = .ok { indent := "\t\"", provenance := false } ∧
      parse (document sampleLines.reverse) = parse (document sampleLines) ∧
      ∃ fault, parse (document (sampleLines ++ sampleLines)) = .error fault := by
  have hshort : ∀ l ∈ sampleLines, l.Short := by
    simp [sampleLines, DocumentLine.Short, Word.Short]
    decide
  have hnodup : ((settings sampleLines).map Setting.field).Nodup := by decide
  have hrepeated : ¬ ((settings (sampleLines ++ sampleLines)).map Setting.field).Nodup := by decide
  have hgives := (document_overrides sampleLines).1 hshort hnodup
  have hreverse : (settings sampleLines.reverse).Perm (settings sampleLines) :=
    sampleLines.reverse_perm.filterMap _
  refine ⟨by decide, hgives.1, hgives.2 _ (by simpa using hshort) hreverse, ?_⟩
  obtain ⟨fault, herror, -⟩ := (document_overrides (sampleLines ++ sampleLines)).2.1 hrepeated
  exact ⟨fault, herror⟩

/-! ## Keys that are too long -/

/-- A word of letters. -/
def letterWord (n : Nat) : Word where
  text := String.ofList (List.replicate (n + 1) 'a')
  nonempty := by simp
  chars := by
    intro c hc
    rw [String.toList_ofList] at hc
    rw [List.eq_of_mem_replicate hc]
    decide

theorem short_letterWord_iff (n : Nat) : (letterWord n).Short ↔ n + 1 ≤ Yaml.KeyStart.limit := by
  have hsize : ∀ m, (List.replicate m 'a').foldr (fun c k => c.utf8Size + k) 0 = m := by
    intro m
    induction m with
    | zero => rfl
    | succ m ih =>
      rw [List.replicate_succ, List.foldr_cons, ih]
      exact Nat.add_comm _ _
  rw [Word.Short, letterWord, Yaml.utf8ByteSize_ofList, hsize]

/-- A word that is too long to be a key is not the name of a setting. -/
theorem unknown_of_not_short {w : Word} (h : ¬ w.Short) : w.text ∉ fieldNames :=
  fun hmem => h (size_of_mem_fieldNames w.text hmem)

theorem document_other (key value : Word) (unknown : key.text ∉ fieldNames) :
    document [.other key value unknown, .blank 0] = key.text ++ ": " ++ value.text ++ "\n" := by
  rw [← String.toList_inj, document, List.map_cons, Yaml.Line.toList_document_cons]
  simp [DocumentLine.line, Yaml.Line.written, Yaml.Entry.written, Value.written,
    Yaml.Line.following]

/-- An unknown key of 1025 letters is refused, although nothing is set, and so is a line that holds
a tab only. -/
theorem document_refused_longKey :
    parse (String.ofList (List.replicate 1025 'a') ++ ": b\n") = .error .misplaced ∧
      parse "\t\n" = .error (.unreadable "\t\n") := by
  have hlong : ¬ (letterWord 1024).Short := by
    rw [short_letterWord_iff]
    decide
  have htext : String.ofList (List.replicate 1025 'a') ++ ": b\n" =
      document [.other (letterWord 1024) sampleWord (unknown_of_not_short hlong), .blank 0] := by
    rw [document_other, String.append_assoc, String.append_assoc]
    rfl
  refine ⟨?_, rfl⟩
  rw [htext]
  refine (parse_document _).2 fun hshort => hlong ?_
  exact hshort _ List.mem_cons_self

end CestWriter.Config
