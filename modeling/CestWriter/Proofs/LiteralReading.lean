import CestWriter.Literal

/-!
# Reading literals back

A literal ends at the first delimiter that has no backslash of its own, and inside it a backslash in
front of a backslash or of the delimiter is taken away. Read in this way, a quoted text gives back
the text, and reading stops exactly at the end of the literal, whatever follows it. A quoted script
comes back with its backticks escaped, since a backslash in front of a backtick is kept.
-/

namespace CestWriter.Literal

/-- A character, with a backslash in front of it if it is one of the marks. -/
def backslashed (marks : List Char) (c : Char) : List Char :=
  if c ∈ marks then ['\\', c] else [c]

/-- A text with a backslash in front of every `mark`. -/
def backslashBefore (mark : Char) (s : String) : String :=
  String.ofList (s.toList.flatMap (backslashed [mark]))

/-- Puts characters in front of what was read. -/
def prepend (cs : List Char) (r : List Char × List Char) : List Char × List Char :=
  (cs ++ r.1, r.2)

/-- Reads up to the first `stop` that no backslash stands in front of: the text that was read, and
what follows the `stop`. A backslash in front of one of the characters `known` is taken away, any
other backslash is kept. -/
def readUntil (stop : Char) (known : List Char) : List Char → Option (List Char × List Char)
  | [] => none
  | [c] => if c = stop then some ([], []) else none
  | c :: d :: rest =>
    if c = stop then some ([], d :: rest)
    else if c = '\\' ∧ d ∈ known then (readUntil stop known rest).map (prepend [d])
    else (readUntil stop known (d :: rest)).map (prepend [c])

/-- Reads a literal at the beginning of a text: the text that it stands for, and what follows it. The
escapes are those of the backslash and of the delimiter. -/
def readLiteral (delimiter : Char) (s : String) : Option (String × String) :=
  match s.toList with
  | [] => none
  | c :: body =>
    if c = delimiter then
      (readUntil delimiter ['\\', delimiter] body).map fun r =>
        (String.ofList r.1, String.ofList r.2)
    else none

/-! ## Steps of the reader -/

section Reader

variable {stop : Char} {known : List Char}

theorem readUntil_stop (rest : List Char) :
    readUntil stop known (stop :: rest) = some ([], rest) := by
  cases rest with
  | nil => rw [readUntil, if_pos rfl]
  | cons d rest => rw [readUntil, if_pos rfl]

theorem readUntil_known (hstop : stop ≠ '\\') {d : Char} (hd : d ∈ known) (rest : List Char) :
    readUntil stop known ('\\' :: d :: rest) = (readUntil stop known rest).map (prepend [d]) := by
  rw [readUntil, if_neg hstop.symm, if_pos ⟨rfl, hd⟩]

/-- A character stands for itself if it does not end the literal and is no backslash that is taken
away. -/
theorem readUntil_cons {c : Char} {rest : List Char} (hc : c ≠ stop)
    (hkept : c = '\\' → ∀ d ∈ rest.head?, d ∉ known) :
    readUntil stop known (c :: rest) = (readUntil stop known rest).map (prepend [c]) := by
  cases rest with
  | nil => simp [readUntil, hc]
  | cons d rest =>
    rw [readUntil, if_neg hc, if_neg]
    rintro ⟨hback, hd⟩
    exact hkept hback d rfl hd

end Reader

/-- What a reader has to know of the escapes of a writer: the delimiter and the backslash are among
the known ones, and all known ones are written with a backslash. -/
structure Reads (stop : Char) (known marks : List Char) : Prop where
  stop_ne : stop ≠ '\\'
  stop_mem : stop ∈ known
  backslash_mem : '\\' ∈ known
  subset : ∀ c ∈ known, c ∈ marks

/-- The marks whose backslashes the reader keeps. -/
def unknown (known marks : List Char) : List Char :=
  marks.filter (· ∉ known)

theorem prepend_append (cs ds : List Char) :
    prepend cs ∘ prepend ds = prepend (cs ++ ds) := by
  funext r
  simp [prepend]

namespace Reads

variable {stop : Char} {known marks : List Char} (h : Reads stop known marks)

include h

/-- One escaped character, in front of anything. -/
theorem readUntil_backslashed (c : Char) (rest : List Char) :
    readUntil stop known (backslashed marks c ++ rest) =
      (readUntil stop known rest).map (prepend (backslashed (unknown known marks) c)) := by
  have hother : c ∉ known → c ≠ stop ∧ c ≠ '\\' := fun hc =>
    ⟨fun heq => hc (heq ▸ h.stop_mem), fun heq => hc (heq ▸ h.backslash_mem)⟩
  by_cases hknown : c ∈ known
  · have hunknown : c ∉ unknown known marks := by simp [unknown, hknown]
    rw [backslashed, if_pos (h.subset c hknown), backslashed, if_neg hunknown]
    exact readUntil_known h.stop_ne hknown rest
  · obtain ⟨hstop, hback⟩ := hother hknown
    have hself : readUntil stop known (c :: rest) =
        (readUntil stop known rest).map (prepend [c]) :=
      readUntil_cons hstop fun heq => absurd heq hback
    by_cases hmark : c ∈ marks
    · have hunknown : c ∈ unknown known marks := by simp [unknown, hknown, hmark]
      rw [backslashed, if_pos hmark, backslashed, if_pos hunknown]
      -- the backslash is kept, since the reader does not know the character behind it
      have hkept : readUntil stop known ('\\' :: c :: rest) =
          (readUntil stop known (c :: rest)).map (prepend ['\\']) := by
        refine readUntil_cons h.stop_ne.symm fun _ d hd => ?_
        rw [List.head?_cons, Option.mem_some_iff] at hd
        exact hd ▸ hknown
      rw [hself, Option.map_map, prepend_append] at hkept
      exact hkept
    · have hunknown : c ∉ unknown known marks := fun hmem => hmark (List.mem_filter.mp hmem).1
      rw [backslashed, if_neg hmark, backslashed, if_neg hunknown]
      exact hself

/-- A whole escaped text in front of the delimiter. -/
theorem readUntil_escaped (cs rest : List Char) :
    readUntil stop known (cs.flatMap (backslashed marks) ++ stop :: rest) =
      some (cs.flatMap (backslashed (unknown known marks)), rest) := by
  induction cs with
  | nil => exact readUntil_stop rest
  | cons c cs ih =>
    rw [List.flatMap_cons, List.append_assoc, h.readUntil_backslashed, ih, List.flatMap_cons]
    rfl

end Reads

/-- A reader that knows all marks keeps none of their backslashes. -/
theorem flatMap_unknown_self (marks cs : List Char) :
    cs.flatMap (backslashed (unknown marks marks)) = cs := by
  have hnone : unknown marks marks = [] := by simp [unknown]
  rw [hnone]
  induction cs with
  | nil => rfl
  | cons c cs ih =>
    rw [List.flatMap_cons, ih, backslashed, if_neg List.not_mem_nil]
    rfl

/-! ## The escapes of the generated code -/

theorem escapeChar_eq : escapeChar = backslashed ['\\', '"'] := by
  funext c
  simp [escapeChar, backslashed]

theorem escapeSingleChar_eq : escapeSingleChar = backslashed ['\\', '\''] := by
  funext c
  simp [escapeSingleChar, backslashed]

theorem escapeScriptChar_eq : escapeScriptChar = backslashed ['\\', '"', '`'] := by
  funext c
  simp [escapeScriptChar, backslashed, or_assoc]

theorem reads_quote : Reads '"' ['\\', '"'] ['\\', '"'] :=
  ⟨by decide, by decide, by decide, fun _ hc => hc⟩

theorem reads_singleQuote : Reads '\'' ['\\', '\''] ['\\', '\''] :=
  ⟨by decide, by decide, by decide, fun _ hc => hc⟩

/-- A reader of quoted texts knows all escapes of a script but that of the backtick. -/
theorem reads_script : Reads '"' ['\\', '"'] ['\\', '"', '`'] :=
  ⟨by decide, by decide, by decide, fun _ hc => List.mem_append_left ['`'] hc⟩

/-- A reader that knows the escape of the backtick as well. -/
theorem reads_whole_script : Reads '"' ['\\', '"', '`'] ['\\', '"', '`'] :=
  ⟨by decide, by decide, by decide, fun _ hc => hc⟩

/-- A literal whose body is escaped, in front of anything. -/
theorem readLiteral_eq_some {delimiter : Char} {marks cs rest : List Char} {text : String}
    (h : Reads delimiter ['\\', delimiter] marks)
    (htext : text.toList = delimiter :: (cs.flatMap (backslashed marks) ++ delimiter :: rest)) :
    readLiteral delimiter text =
      some (String.ofList (cs.flatMap (backslashed (unknown ['\\', delimiter] marks))),
        String.ofList rest) := by
  rw [readLiteral, htext]
  simp only [if_true, h.readUntil_escaped, Option.map_some]

theorem readLiteral_quote (s t : String) : readLiteral '"' (quote s ++ t) = some (s, t) := by
  have htext : (quote s ++ t).toList =
      '"' :: (s.toList.flatMap (backslashed ['\\', '"']) ++ '"' :: t.toList) := by
    simp [quote, escape, escapeChar_eq]
  rw [readLiteral_eq_some reads_quote htext, flatMap_unknown_self, String.ofList_toList,
    String.ofList_toList]

theorem readLiteral_singleQuote (s t : String) :
    readLiteral '\'' (singleQuote s ++ t) = some (s, t) := by
  have htext : (singleQuote s ++ t).toList =
      '\'' :: (s.toList.flatMap (backslashed ['\\', '\'']) ++ '\'' :: t.toList) := by
    simp [singleQuote, escapeSingle, escapeSingleChar_eq]
  rw [readLiteral_eq_some reads_singleQuote htext, flatMap_unknown_self, String.ofList_toList,
    String.ofList_toList]

theorem readLiteral_script (s t : String) :
    readLiteral '"' ("\"" ++ escapeScript s ++ "\"" ++ t) = some (backslashBefore '`' s, t) := by
  have htext : ("\"" ++ escapeScript s ++ "\"" ++ t).toList =
      '"' :: (s.toList.flatMap (backslashed ['\\', '"', '`']) ++ '"' :: t.toList) := by
    simp [escapeScript, escapeScriptChar_eq]
  rw [readLiteral_eq_some reads_script htext, String.ofList_toList]
  rfl

/-- No two scripts are escaped alike. -/
theorem escapeScript_inj {s s' : String} (h : escapeScript s = escapeScript s') : s = s' := by
  have hread : ∀ x : String,
      readUntil '"' ['\\', '"', '`'] ((escapeScript x).toList ++ ['"']) = some (x.toList, []) := by
    intro x
    have hescaped := reads_whole_script.readUntil_escaped x.toList []
    rw [flatMap_unknown_self] at hescaped
    rw [escapeScript, String.toList_ofList, escapeScriptChar_eq]
    exact hescaped
  have hsame := hread s
  rw [h, hread s'] at hsame
  exact String.toList_injective (Prod.mk.inj (Option.some.inj hsame)).1.symm

/-! ## Escaping one mark after the other -/

/-- Once some marks have their backslashes, another one gets its own without touching these. -/
theorem flatMap_backslashed_concat {marks : List Char} {mark : Char} (hmark : mark ∉ marks)
    (hback : mark ≠ '\\') (cs : List Char) :
    (cs.flatMap (backslashed marks)).flatMap (backslashed [mark]) =
      cs.flatMap (backslashed (marks ++ [mark])) := by
  rw [List.flatMap_assoc]
  congr 1
  funext c
  by_cases hc : c ∈ marks
  · have hne : c ≠ mark := fun heq => hmark (heq ▸ hc)
    simp [backslashed, hc, hne, hback.symm]
  · simp [backslashed, hc]

theorem escape_eq_inTurn (s : String) :
    escape s = backslashBefore '"' (backslashBefore '\\' s) := by
  rw [backslashBefore, backslashBefore, String.toList_ofList,
    flatMap_backslashed_concat (by decide) (by decide), escape, escapeChar_eq]
  rfl

theorem escapeSingle_eq_inTurn (s : String) :
    escapeSingle s = backslashBefore '\'' (backslashBefore '\\' s) := by
  rw [backslashBefore, backslashBefore, String.toList_ofList,
    flatMap_backslashed_concat (by decide) (by decide), escapeSingle, escapeSingleChar_eq]
  rfl

theorem escapeScript_eq_inTurn (s : String) :
    escapeScript s = backslashBefore '`' (escape s) := by
  rw [backslashBefore, escape, String.toList_ofList, escapeChar_eq,
    flatMap_backslashed_concat (by decide) (by decide), escapeScript, escapeScriptChar_eq]
  rfl

theorem injective_of_readLiteral {delimiter : Char} {write : String → String}
    (h : ∀ s t, readLiteral delimiter (write s ++ t) = some (s, t)) : Function.Injective write := by
  intro s s' hsame
  have hread := h s ""
  rw [hsame, h s'] at hread
  exact (Prod.mk.inj (Option.some.inj hread)).1.symm

/-- Literals are read back without loss and end where they should. A text is escaped by putting
backslashes in front of one mark after the other, the backslash first. A literal of a text, followed
by any other text, is read as that text, and the other text is left; a script in double quotes is
read as the script with a backslash in front of every backtick. So no two texts have the same
literal, no two scripts are escaped alike, and no text ends its literal before its end. -/
theorem literals_read_back :
    (∀ s t, readLiteral '"' (quote s ++ t) = some (s, t)) ∧
      (∀ s t, readLiteral '\'' (singleQuote s ++ t) = some (s, t)) ∧
      (∀ s t, readLiteral '"' ("\"" ++ escapeScript s ++ "\"" ++ t) =
        some (backslashBefore '`' s, t)) ∧
      Function.Injective quote ∧ Function.Injective singleQuote ∧
      Function.Injective escapeScript ∧
      ∀ s, quote s = "\"" ++ backslashBefore '"' (backslashBefore '\\' s) ++ "\"" ∧
        singleQuote s = "'" ++ backslashBefore '\'' (backslashBefore '\\' s) ++ "'" ∧
        escapeScript s = backslashBefore '`' (backslashBefore '"' (backslashBefore '\\' s)) := by
  refine ⟨readLiteral_quote, readLiteral_singleQuote, readLiteral_script,
    injective_of_readLiteral readLiteral_quote, injective_of_readLiteral readLiteral_singleQuote,
    fun _ _ => escapeScript_inj, fun s => ?_⟩
  rw [escapeScript_eq_inTurn, quote, singleQuote, escape_eq_inTurn, escapeSingle_eq_inTurn]
  exact ⟨rfl, rfl, rfl⟩

-- A run of backslashes in front of a quote at the end of the text.
example : quote "a\\\\\"" = "\"a\\\\\\\\\\\"\"" ∧
    readLiteral '"' "\"a\\\\\\\\\\\"\" . b" = some ("a\\\\\"", " . b") := by
  decide

end CestWriter.Literal
