import CestWriter.Decimal.Floor
import CestWriter.Locator
import CestWriter.Proofs.Cuts
import CestWriter.Proofs.Identifiers
import CestWriter.Proofs.KeyParts
import CestWriter.Recording.Script

/-!
# Braces in recorded text

A recorded text is tidy when braces stand in it only as parts of references. In such a text as many
braces are opened as are closed, and none is left when its references are written as variables.
Cutting a tidy text at a separator gives tidy texts. So whatever is made of tidy texts (literals,
arguments, scripts, keystrokes, locators, numbers) opens as many braces as it closes.
-/

namespace CestWriter.Braces

open Text (Piece decompose IsSeparator)

/-- How many braces the characters open, less those that they close. -/
def netOf (cs : List Char) : Int :=
  (cs.count '\x7b' : Int) - cs.count '\x7d'

/-- How many braces the text opens, less those that it closes. -/
def net (s : String) : Int :=
  netOf s.toList

/-- Braces stand in the text only as parts of references. -/
def Tidy (cs : List Char) : Prop :=
  ∀ chars, Piece.literal chars ∈ decompose cs → '\x7b' ∉ chars ∧ '\x7d' ∉ chars

/-! ## Counting -/

@[simp] theorem netOf_append (cs ds : List Char) : netOf (cs ++ ds) = netOf cs + netOf ds := by
  simp only [netOf, List.count_append]
  omega

theorem netOf_eq_zero {cs : List Char} (hopen : '\x7b' ∉ cs) (hclose : '\x7d' ∉ cs) :
    netOf cs = 0 := by
  rw [netOf, List.count_eq_zero.mpr hopen, List.count_eq_zero.mpr hclose]
  rfl

theorem netOf_cons {c : Char} (hopen : c ≠ '\x7b') (hclose : c ≠ '\x7d') (cs : List Char) :
    netOf (c :: cs) = netOf cs := by
  simp only [netOf, List.count_cons_of_ne hopen, List.count_cons_of_ne hclose]

@[simp] theorem net_append (s t : String) : net (s ++ t) = net s + net t := by
  rw [net, String.toList_append, netOf_append]
  rfl

@[simp] theorem net_ofList (cs : List Char) : net (String.ofList cs) = netOf cs := by
  rw [net, String.toList_ofList]

theorem net_append_eq_zero {s t : String} (hs : net s = 0) (ht : net t = 0) :
    net (s ++ t) = 0 := by
  rw [net_append, hs, ht]
  rfl

theorem netOf_flatMap_eq_zero {α : Type} {f : α → List Char} {xs : List α}
    (h : ∀ x ∈ xs, netOf (f x) = 0) : netOf (xs.flatMap f) = 0 := by
  induction xs with
  | nil => rfl
  | cons x xs ih =>
    rw [List.forall_mem_cons] at h
    rw [List.flatMap_cons, netOf_append, h.1, ih h.2]
    rfl

theorem net_join {parts : List String} (h : ∀ part ∈ parts, net part = 0) :
    net (String.join parts) = 0 := by
  rw [net, String.toList_join]
  exact netOf_flatMap_eq_zero h

theorem net_intercalate {separator : String} {parts : List String} (hsep : net separator = 0)
    (h : ∀ part ∈ parts, net part = 0) : net (separator.intercalate parts) = 0 := by
  induction parts with
  | nil => rfl
  | cons part parts ih =>
    rw [List.forall_mem_cons] at h
    cases parts with
    | nil =>
      rw [String.intercalate_singleton]
      exact h.1
    | cons next parts =>
      rw [String.intercalate_cons_cons]
      exact net_append_eq_zero (net_append_eq_zero h.1 hsep) (ih h.2)

/-- Characters other than braces can be dropped. -/
theorem netOf_dropWhile {p : Char → Bool} (hopen : p '\x7b' = false) (hclose : p '\x7d' = false)
    (cs : List Char) : netOf (cs.dropWhile p) = netOf cs := by
  induction cs with
  | nil => rfl
  | cons c cs ih =>
    by_cases hc : p c = true
    · have hne : c ≠ '\x7b' := by
        rintro rfl
        rw [hopen] at hc
        cases hc
      have hne' : c ≠ '\x7d' := by
        rintro rfl
        rw [hclose] at hc
        cases hc
      rw [List.dropWhile_cons_of_pos hc, ih, netOf_cons hne hne']
    · rw [List.dropWhile_cons_of_neg hc]

theorem netOf_reverse (cs : List Char) : netOf cs.reverse = netOf cs := by
  rw [netOf, List.count_reverse, List.count_reverse]
  rfl

theorem netOf_trim (cs : List Char) : netOf (Text.trim cs) = netOf cs := by
  rw [Text.trim, Text.trimEnd, netOf_reverse, netOf_dropWhile (by decide) (by decide),
    netOf_reverse, netOf_dropWhile (by decide) (by decide)]

theorem net_trimmed (s : String) : net (Text.trimmed s) = net s := by
  rw [Text.trimmed, net_ofList, netOf_trim]
  rfl

/-- Escaping by backslashes leaves the braces. -/
theorem netOf_escaped (p : Char → Bool) (cs : List Char) :
    netOf (cs.flatMap fun c => if p c then ['\\', c] else [c]) = netOf cs := by
  induction cs with
  | nil => rfl
  | cons c cs ih =>
    have hchar : netOf (if p c then ['\\', c] else [c]) = netOf [c] := by
      split
      · exact netOf_cons (by decide) (by decide) [c]
      · rfl
    rw [List.flatMap_cons, netOf_append, ih, hchar, ← netOf_append, List.singleton_append]

theorem net_digits {s : String} (h : ∀ c ∈ s.toList, c.isDigit = true) : net s = 0 :=
  netOf_eq_zero (fun hmem => absurd (h _ hmem) (by decide))
    (fun hmem => absurd (h _ hmem) (by decide))

@[simp] theorem net_repr (n : Nat) : net n.repr = 0 := by
  apply net_digits
  intro c hc
  rw [Nat.toList_repr] at hc
  exact Nat.isDigit_of_mem_toDigits (by decide) (by decide) hc

@[simp] theorem net_intRepr (n : Int) : net n.repr = 0 := by
  rw [Int.repr_eq_if]
  split
  · exact net_repr _
  · exact net_append_eq_zero (by decide) (net_repr _)

theorem netOf_word {name : List Char} (h : ∀ c ∈ name, Text.isWord c = true) : netOf name = 0 :=
  netOf_eq_zero (fun hmem => absurd (h _ hmem) (by decide))
    (fun hmem => absurd (h _ hmem) (by decide))

/-! ## Tidy texts -/

theorem tidy_iff (cs : List Char) :
    Tidy cs ↔ '\x7b' ∉ (decompose cs).flatMap Piece.interpolated ∧
      '\x7d' ∉ (decompose cs).flatMap Piece.interpolated := by
  have hname : ∀ {c : Char}, c ≠ '$' → Text.isWord c = false →
      (c ∉ (decompose cs).flatMap Piece.interpolated ↔
        ∀ chars, Piece.literal chars ∈ decompose cs → c ∉ chars) := by
    intro c hdollar hword
    constructor
    · intro hnot chars hchars hmem
      exact hnot (List.mem_flatMap.mpr ⟨_, hchars, hmem⟩)
    · intro hall hmem
      obtain ⟨piece, hpiece, hc⟩ := List.mem_flatMap.mp hmem
      cases piece with
      | literal chars => exact hall chars hpiece hc
      | reference name =>
        rcases List.mem_cons.mp hc with hc | hc
        · exact hdollar hc
        · have hisWord := Piece.isWord_of_reference_mem hpiece c hc
          rw [hword] at hisWord
          cases hisWord
  rw [hname (by decide) (by decide), hname (by decide) (by decide)]
  constructor
  · intro h
    exact ⟨fun chars hchars => (h chars hchars).1, fun chars hchars => (h chars hchars).2⟩
  · rintro ⟨hopen, hclose⟩ chars hchars
    exact ⟨hopen chars hchars, hclose chars hchars⟩

theorem tidy_append_separator {mark : Char} (hmark : IsSeparator mark) {before after : List Char} :
    Tidy (before ++ mark :: after) ↔ Tidy before ∧ Tidy after := by
  have hopen : '\x7b' ≠ mark := Ne.symm hmark.2.2.1
  have hclose : '\x7d' ≠ mark := Ne.symm hmark.2.2.2
  rw [tidy_iff, tidy_iff, tidy_iff, Text.flatMap_decompose_append hmark (fun _ => rfl)]
  simp only [List.mem_append, List.mem_cons, not_or, hopen, hclose, not_false_eq_true, true_and]
  exact and_and_and_comm

theorem Tidy.netOf_eq_zero {cs : List Char} (h : Tidy cs) : netOf cs = 0 := by
  rw [← Piece.flatMap_recorded_decompose cs]
  apply netOf_flatMap_eq_zero
  intro piece hpiece
  cases piece with
  | literal chars => exact Braces.netOf_eq_zero (h chars hpiece).1 (h chars hpiece).2
  | reference name =>
    have hword := netOf_word (Piece.isWord_of_reference_mem hpiece)
    rw [Piece.recorded]
    change netOf (['$', '\x7b'] ++ (name ++ ['\x7d'])) = 0
    rw [netOf_append, netOf_append, hword]
    rfl

theorem Tidy.net_eq_zero {s : String} (h : Tidy s.toList) : net s = 0 :=
  h.netOf_eq_zero

theorem Tidy.net_interpolate {s : String} (h : Tidy s.toList) : net (Text.interpolate s) = 0 := by
  obtain ⟨hopen, hclose⟩ := (tidy_iff _).mp h
  rw [Text.interpolate, net_ofList]
  exact Braces.netOf_eq_zero hopen hclose

theorem isSeparator_of_isBlank {c : Char} (h : Text.isBlank c = true) : IsSeparator c := by
  have hcodes : ∀ n ∈ [9, 10, 11, 12, 13, 0x20, 0x85, 0xA0, 0x1680, 0x2000, 0x2001, 0x2002, 0x2003,
      0x2004, 0x2005, 0x2006, 0x2007, 0x2008, 0x2009, 0x200A, 0x2028, 0x2029, 0x202F, 0x205F,
      0x3000], IsSeparator (Char.ofNat n) := by
    decide +kernel
  have hmem : c.toNat ∈ [9, 10, 11, 12, 13, 0x20, 0x85, 0xA0, 0x1680, 0x2000, 0x2001, 0x2002, 0x2003,
      0x2004, 0x2005, 0x2006, 0x2007, 0x2008, 0x2009, 0x200A, 0x2028, 0x2029, 0x202F, 0x205F,
      0x3000] := by
    simp only [Text.isBlank, Bool.or_eq_true, Bool.and_eq_true, decide_eq_true_eq,
      beq_iff_eq] at h
    simp only [List.mem_cons, List.not_mem_nil, or_false]
    omega
  have hsep := hcodes c.toNat hmem
  rwa [Char.ofNat_toNat] at hsep

theorem isSeparator_equals : IsSeparator '=' := by
  decide

theorem Tidy.dropBlanks {cs : List Char} (h : Tidy cs) : Tidy (cs.dropWhile Text.isBlank) := by
  induction cs with
  | nil => exact h
  | cons c cs ih =>
    by_cases hc : Text.isBlank c = true
    · rw [List.dropWhile_cons_of_pos hc]
      have hsep : Tidy ([] ++ c :: cs) := h
      exact ih ((tidy_append_separator (isSeparator_of_isBlank hc)).mp hsep).2
    · rwa [List.dropWhile_cons_of_neg hc]

theorem Tidy.trimEnd {cs : List Char} (h : Tidy cs) : Tidy (Text.trimEnd cs) := by
  -- blanks are dropped from the back, so the induction is on the reversed text
  obtain ⟨back, rfl⟩ : ∃ back, cs = back.reverse := ⟨cs.reverse, cs.reverse_reverse.symm⟩
  rw [Text.trimEnd, List.reverse_reverse]
  induction back with
  | nil => exact h
  | cons c back ih =>
    by_cases hc : Text.isBlank c = true
    · rw [List.dropWhile_cons_of_pos hc]
      rw [List.reverse_cons] at h
      exact ih ((tidy_append_separator (isSeparator_of_isBlank hc)).mp h).1
    · rwa [List.dropWhile_cons_of_neg hc]

theorem Tidy.trim {cs : List Char} (h : Tidy cs) : Tidy (Text.trim cs) :=
  h.dropBlanks.trimEnd

theorem Tidy.net_floorText {s : String} (h : Tidy s.toList) : net (floorText s) = 0 := by
  have hbody : net (String.ofList (Text.trim s.toList)) = 0 := by
    rw [net_ofList]
    exact h.trim.netOf_eq_zero
  simp only [floorText]
  split
  · split
    · exact net_intRepr _
    · exact hbody
  · exact hbody

theorem Tidy.of_splitFirst {mark : Char} (hmark : IsSeparator mark) {s before after : String}
    (h : Tidy s.toList) (hsplit : Text.splitFirst mark s = some (before, after)) :
    Tidy before.toList ∧ Tidy after.toList := by
  rw [Text.splitFirst_eq_some hsplit] at h
  exact (tidy_append_separator hmark).mp h

theorem Tidy.of_splitLast {mark : Char} (hmark : IsSeparator mark) {s before after : String}
    (h : Tidy s.toList) (hsplit : Text.splitLast mark s = some (before, after)) :
    Tidy before.toList ∧ Tidy after.toList := by
  rw [Text.splitLast_eq_some hsplit] at h
  exact (tidy_append_separator hmark).mp h

theorem Tidy.of_after? {start s rest : String} {lead : List Char} {mark : Char}
    (hstart : start.toList = lead ++ [mark]) (hmark : IsSeparator mark) (h : Tidy s.toList)
    (hafter : Text.after? start s = some rest) : Tidy rest.toList := by
  rw [Text.after?_eq_some hafter, hstart, List.append_assoc] at h
  exact ((tidy_append_separator hmark).mp h).2

/-- Every piece between separators is tidy. -/
theorem Tidy.of_mem_pieces {mark : Char} (hmark : IsSeparator mark) {cs piece : List Char}
    (h : Tidy cs) (hpiece : piece ∈ Text.pieces mark cs) : Tidy piece := by
  rw [← Text.intercalate_pieces mark cs] at h
  generalize Text.pieces mark cs = all at h hpiece
  induction all with
  | nil => cases hpiece
  | cons first rest ih =>
    cases rest with
    | nil =>
      rw [List.mem_singleton] at hpiece
      rw [hpiece]
      simpa using h
    | cons next rest =>
      have hsplit : Tidy (first ++ mark :: [mark].intercalate (next :: rest)) := by
        simpa [List.intercalate_cons_cons] using h
      obtain ⟨hfirst, hrest⟩ := (tidy_append_separator hmark).mp hsplit
      rcases List.mem_cons.mp hpiece with rfl | hpiece
      · exact hfirst
      · exact ih hrest hpiece

theorem tidy_of_not_mem {cs : List Char} (hopen : '\x7b' ∉ cs) (hclose : '\x7d' ∉ cs) :
    Tidy cs := by
  intro chars hchars
  have hsub : ∀ c ∈ chars, c ∈ cs := by
    intro c hc
    rw [← Piece.flatMap_recorded_decompose cs]
    exact List.mem_flatMap.mpr ⟨_, hchars, hc⟩
  exact ⟨fun hmem => hopen (hsub _ hmem), fun hmem => hclose (hsub _ hmem)⟩

/-- Once its references are written as variables, a tidy text has no braces left. -/
theorem Tidy.interpolate {s : String} (h : Tidy s.toList) :
    Tidy (Text.interpolate s).toList := by
  rw [Text.interpolate, String.toList_ofList]
  exact tidy_of_not_mem ((tidy_iff _).mp h).1 ((tidy_iff _).mp h).2

/-! ## What is written of tidy texts -/

theorem net_quote (s : String) : net (Literal.quote s) = net s := by
  have hescape : net (Literal.escape s) = net s := by
    rw [Literal.escape, net_ofList]
    exact netOf_escaped (fun c => c = '\\' || c = '"') s.toList
  rw [Literal.quote, net_append, net_append, hescape]
  exact (Int.add_zero _).trans (Int.zero_add _)

theorem net_singleQuote (s : String) : net (Literal.singleQuote s) = net s := by
  have hescape : net (Literal.escapeSingle s) = net s := by
    rw [Literal.escapeSingle, net_ofList]
    exact netOf_escaped (fun c => c = '\\' || c = '\'') s.toList
  rw [Literal.singleQuote, net_append, net_append, hescape]
  exact (Int.add_zero _).trans (Int.zero_add _)

theorem net_escapeScript (s : String) : net (Literal.escapeScript s) = net s := by
  rw [Literal.escapeScript, net_ofList]
  exact netOf_escaped (fun c => c = '\\' || c = '"' || c = '`') s.toList

theorem net_variableOf (name : String) : net (Literal.variableOf name) = net name := by
  rw [Literal.variableOf, net_append]
  exact Int.zero_add _

theorem Tidy.net_text {s : String} (h : Tidy s.toList) : net (Literal.text s) = 0 := by
  rw [Literal.text, net_quote, h.net_interpolate]

theorem Tidy.net_value {s : String} (h : Tidy s.toList) : net (Literal.value s) = 0 := by
  simp only [Literal.value]
  split
  · exact h.net_interpolate
  · rw [net_quote, h.net_interpolate]

theorem net_scriptArguments {names : List String} (h : ∀ name ∈ names, net name = 0) :
    net (Literal.scriptArguments names) = 0 := by
  rw [Literal.scriptArguments]
  split
  · rfl
  · refine net_append_eq_zero (by decide) (net_intercalate (by decide) ?_)
    intro part hpart
    obtain ⟨name, hname, rfl⟩ := List.mem_map.mp hpart
    rw [net_variableOf]
    exact h name hname

theorem net_method (name : String) : net (Identifier.method name) = 0 := by
  have hname := (Identifier.isIdentifier_method name).alphanum
  apply netOf_eq_zero
  · intro hmem
    exact absurd (hname _ hmem) (by decide)
  · intro hmem
    exact absurd (hname _ hmem) (by decide)

/-! ### Scripts and keystrokes -/

/-- A script whose text opens as many braces as it closes, and likewise its variables. -/
structure Even (script : Script) : Prop where
  body : net script.body = 0
  names : ∀ name ∈ script.names, net name = 0

theorem mem_addName {names : List String} {name other : String}
    (h : other ∈ Script.addName names name) : other ∈ names ∨ other = name := by
  unfold Script.addName at h
  split at h
  · exact .inl h
  · simpa using h

theorem reference_of_mem_namesOf {pieces : List Piece} {name : String}
    (h : name ∈ Script.namesOf pieces) :
    ∃ word, .reference word ∈ pieces ∧ name = String.ofList word := by
  suffices hfound : name ∈ ([] : List String) ∨
      ∃ word, .reference word ∈ pieces ∧ name = String.ofList word by
    exact hfound.resolve_left List.not_mem_nil
  -- the names that were collected before are kept
  unfold Script.namesOf at h
  generalize ([] : List String) = names at h ⊢
  induction pieces generalizing names with
  | nil => exact .inl h
  | cons piece rest ih =>
    rw [List.foldl_cons] at h
    rcases ih _ h with hbefore | ⟨word, hword, rfl⟩
    · cases piece with
      | literal chars => exact .inl hbefore
      | reference word =>
        rcases mem_addName hbefore with hnames | rfl
        · exact .inl hnames
        · exact .inr ⟨word, List.mem_cons_self, rfl⟩
    · exact .inr ⟨word, List.mem_cons_of_mem _ hword, rfl⟩

theorem netOf_writePiece {names : List String} {piece : Piece} {cs : List Char} (h : Tidy cs)
    (hpiece : piece ∈ decompose cs) : netOf (Script.writePiece names piece) = 0 := by
  cases piece with
  | literal chars => exact Braces.netOf_eq_zero (h chars hpiece).1 (h chars hpiece).2
  | reference word =>
    have hindex : netOf (names.idxOf (String.ofList word)).repr.toList = 0 := net_repr _
    rw [Script.writePiece, netOf_append, netOf_append, netOf_cons (by decide) (by decide), hindex]
    decide

theorem Tidy.even_ofRecorded {s : String} (h : Tidy s.toList) : Even (Script.ofRecorded s) where
  body := by
    rw [Script.ofRecorded, net_ofList]
    exact netOf_flatMap_eq_zero fun piece hpiece => netOf_writePiece h.trim hpiece
  names := by
    intro name hname
    obtain ⟨word, hword, rfl⟩ := reference_of_mem_namesOf hname
    rw [net_ofList]
    exact netOf_word (Piece.isWord_of_reference_mem hword)

theorem Even.net_callArguments {script : Script} (h : Even script) {lead : String}
    (hlead : net lead = 0) : net (script.callArguments lead) = 0 := by
  rw [Script.callArguments, net_append, net_append, net_append, net_append, net_escapeScript,
    h.body, hlead, net_scriptArguments h.names]
  decide

theorem net_keyArgument {piece : Piece} {cs : List Char} (h : Tidy cs)
    (hpiece : piece ∈ decompose cs) : net (KeyPart.ofPiece piece).argument = 0 := by
  cases piece with
  | literal chars =>
    rw [KeyPart.ofPiece, KeyPart.argument, net_quote, net_ofList]
    exact Braces.netOf_eq_zero (h chars hpiece).1 (h chars hpiece).2
  | reference word =>
    have hword := Piece.isWord_of_reference_mem hpiece
    rw [KeyPart.ofPiece, KeyPart.ofName]
    split
    · next rest hrest =>
      rw [Text.rest?_eq_some_iff] at hrest
      have hname : net (String.ofList rest) = 0 := by
        rw [net_ofList]
        refine netOf_word fun c hc => hword c ?_
        rw [hrest]
        exact List.mem_append_right _ hc
      refine net_join fun part hpart => ?_
      rcases List.mem_cons.mp hpart with rfl | hpart
      · decide
      · rw [List.mem_singleton.mp hpart]
        exact hname
    · rw [KeyPart.argument, net_variableOf, net_ofList]
      exact netOf_word hword

theorem Tidy.net_keyArguments {s : String} (h : Tidy s.toList) :
    net (Literal.arguments ((KeyPart.ofRecorded s).map KeyPart.argument)) = 0 := by
  refine net_intercalate (by decide) fun part hpart => ?_
  rw [KeyPart.ofRecorded_eq, List.map_map] at hpart
  obtain ⟨piece, hpiece, rfl⟩ := List.mem_map.mp hpart
  exact net_keyArgument h hpiece

/-! ### Locators -/

theorem Tidy.selector {s : String} {l : Locator} (h : Tidy s.toList)
    (hparse : Locator.parse s = .ok l) : Tidy l.selector.toList := by
  unfold Locator.parse at hparse
  split at hparse
  · cases hparse
    exact h
  · split at hparse
    · cases hparse
    · next name selector hsplit =>
      split at hparse
      · cases hparse
      · cases hparse
        exact (h.of_splitFirst isSeparator_equals hsplit).2

theorem Tidy.net_strict {s form : String} (h : Tidy s.toList)
    (hstrict : Locator.strict s = .ok form) : net form = 0 := by
  unfold Locator.strict at hstrict
  cases hparse : Locator.parse s with
  | error fault =>
    rw [hparse] at hstrict
    cases hstrict
  | ok l =>
    have htext := (h.selector hparse).net_text
    rw [hparse] at hstrict
    obtain ⟨strategy, selector⟩ := l
    cases strategy with
    | partialLinkText => cases hstrict
    | id | name | css | xpath | linkText =>
      cases hstrict
      simp only [net_append, htext]
      decide

theorem Tidy.net_driver {s form : String} (h : Tidy s.toList)
    (hdriver : Locator.driver s = .ok form) : net form = 0 := by
  unfold Locator.driver at hdriver
  cases hparse : Locator.parse s with
  | error fault =>
    rw [hparse] at hdriver
    cases hdriver
  | ok l =>
    have htext := (h.selector hparse).net_text
    rw [hparse] at hdriver
    cases hdriver
    simp only [net_append, htext]
    cases l.strategy <;> decide

end CestWriter.Braces
