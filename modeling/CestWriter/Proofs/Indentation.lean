import CestWriter.Text.Cut
import Mathlib.Data.List.Infix

/-!
# What indenting does to a part of a text

Indenting works on the lines of a text and knows nothing of what the text is made of. A part of the
text that holds line feeds gets the indentation inside it: after each of them, unless the line that
follows is empty. Carriage returns before line feeds are dropped.
-/

namespace CestWriter.Text

/-- A line without the carriage return at its end. -/
def dropReturn (line : List Char) : List Char :=
  if line.getLast? = some '\r' then line.dropLast else line

/-- A line with `unit` in front, unless it is empty. -/
def indentLine (unit line : List Char) : List Char :=
  if line.isEmpty then [] else unit ++ line

/-- The characters of a text as they are written in an indented text; `fresh` says that they begin a
line. -/
def indentChars (unit : List Char) (fresh : Bool) : List Char → List Char
  | [] => []
  | c :: cs =>
    if c = '\n' then '\n' :: indentChars unit true cs
    else if c = '\r' ∧ cs.head? = some '\n' then indentChars unit fresh cs
    else (if fresh then unit else []) ++ c :: indentChars unit false cs

/-! ## Lines -/

theorem linesFrom_cons (line : List Char) {c : Char} (h : c ≠ '\n') (cs : List Char) :
    linesFrom line (c :: cs) = linesFrom (c :: line) cs := by
  rw [linesFrom.eq_def]
  exact if_neg h

theorem linesFrom_newline (line cs : List Char) :
    linesFrom line ('\n' :: cs) = dropReturn line.reverse :: linesFrom [] cs := by
  rw [linesFrom.eq_def]
  apply (if_pos rfl).trans
  congr 1
  rw [dropReturn, List.getLast?_reverse]
  split
  · next rest => simp
  · next hline =>
    rw [if_neg]
    intro hhead
    obtain ⟨rest, rfl⟩ := List.head?_eq_some_iff.mp hhead
    exact hline rest rfl

theorem linesFrom_append (line : List Char) {cs : List Char} (h : '\n' ∉ cs) (rest : List Char) :
    linesFrom line (cs ++ rest) = linesFrom (cs.reverse ++ line) rest := by
  induction cs generalizing line with
  | nil => rfl
  | cons c cs ih =>
    rw [List.mem_cons, not_or] at h
    rw [List.cons_append, linesFrom_cons line (Ne.symm h.1), ih _ h.2, List.reverse_cons,
      List.append_assoc, List.singleton_append]

theorem lines_of_not_mem {cs : List Char} (h : '\n' ∉ cs) :
    lines cs = if cs.isEmpty then [] else [cs] := by
  have hall := linesFrom_append [] h []
  rw [List.append_nil, List.append_nil] at hall
  rw [lines, hall, linesFrom, List.isEmpty_reverse, List.reverse_reverse]

theorem lines_append_newline {cs : List Char} (h : '\n' ∉ cs) (rest : List Char) :
    lines (cs ++ '\n' :: rest) = dropReturn cs :: lines rest := by
  rw [lines, linesFrom_append [] h, List.append_nil, linesFrom_newline, List.reverse_reverse]
  rfl

/-- Texts that are joined by line feeds are the lines of the whole, if none of them holds a line feed
or ends with a carriage return and the last one is not empty. -/
theorem lines_intercalate {parts : List (List Char)}
    (hparts : ∀ part ∈ parts, '\n' ∉ part ∧ part.getLast? ≠ some '\r')
    (hlast : parts.getLast? ≠ some []) : lines (['\n'].intercalate parts) = parts := by
  induction parts with
  | nil => rfl
  | cons part rest ih =>
    rw [List.forall_mem_cons] at hparts
    cases rest with
    | nil =>
      have hpart : part.isEmpty = false := by simpa using hlast
      rw [List.intercalate_singleton, lines_of_not_mem hparts.1.1, hpart]
      rfl
    | cons next rest =>
      rw [List.getLast?_cons_cons] at hlast
      have hrest := ih hparts.2 hlast
      rw [List.intercalate_cons_cons, List.append_assoc, List.singleton_append,
        lines_append_newline hparts.1.1, hrest, dropReturn, if_neg hparts.1.2]

/-! ## Characters -/

theorem dropReturn_cons {c : Char} {cs : List Char} (h : ¬ (c = '\r' ∧ cs = [])) :
    dropReturn (c :: cs) = c :: dropReturn cs := by
  cases cs with
  | nil =>
    have hc : c ≠ '\r' := fun heq => h ⟨heq, rfl⟩
    simp [dropReturn, hc]
  | cons d cs =>
    rw [dropReturn, dropReturn, List.getLast?_cons_cons, List.dropLast_cons_cons]
    split <;> rfl

theorem head?_append_newline {cs : List Char} (h : '\n' ∉ cs) (rest : List Char) :
    (cs ++ '\n' :: rest).head? = some '\n' ↔ cs = [] := by
  cases cs with
  | nil => simp
  | cons c cs =>
    rw [List.mem_cons, not_or] at h
    simpa using Ne.symm h.1

theorem indentChars_cons_of_not_mem (unit : List Char) (fresh : Bool) {c : Char} {cs : List Char}
    (h : '\n' ∉ c :: cs) :
    indentChars unit fresh (c :: cs) =
      (if fresh then unit else []) ++ c :: indentChars unit false cs := by
  rw [List.mem_cons, not_or] at h
  have hhead : ¬ (c = '\r' ∧ cs.head? = some '\n') := by
    rintro ⟨-, hhead⟩
    exact h.2 (List.mem_of_mem_head? hhead)
  rw [indentChars, if_neg (Ne.symm h.1), if_neg hhead]

/-- The first character of a line that is ended is left out only if it belongs to the line end. -/
theorem indentChars_cons_append_newline (unit : List Char) (fresh : Bool) {c : Char}
    {cs : List Char} (h : '\n' ∉ c :: cs) (rest : List Char) :
    indentChars unit fresh (c :: cs ++ '\n' :: rest) =
      if c = '\r' ∧ cs = [] then '\n' :: indentChars unit true rest
      else (if fresh then unit else []) ++ c :: indentChars unit false (cs ++ '\n' :: rest) := by
  rw [List.mem_cons, not_or] at h
  rw [List.cons_append, indentChars, if_neg (Ne.symm h.1)]
  simp only [head?_append_newline h.2]
  split
  · next hreturn =>
    rw [hreturn.2]
    rfl
  · rfl

theorem indentChars_of_not_mem (unit : List Char) {cs : List Char} (h : '\n' ∉ cs) :
    indentChars unit false cs = cs := by
  induction cs with
  | nil => rfl
  | cons c cs ih =>
    rw [indentChars_cons_of_not_mem unit false h, ih (List.not_mem_of_not_mem_cons h)]
    rfl

theorem indentChars_fresh_of_not_mem (unit : List Char) {cs : List Char} (h : '\n' ∉ cs) :
    indentChars unit true cs = indentLine unit cs := by
  cases cs with
  | nil => rfl
  | cons c cs =>
    rw [indentChars_cons_of_not_mem unit true h,
      indentChars_of_not_mem unit (List.not_mem_of_not_mem_cons h)]
    rfl

theorem indentChars_append_newline (unit : List Char) {cs : List Char} (h : '\n' ∉ cs)
    (rest : List Char) :
    indentChars unit false (cs ++ '\n' :: rest) =
      dropReturn cs ++ '\n' :: indentChars unit true rest := by
  induction cs with
  | nil => rfl
  | cons c cs ih =>
    rw [indentChars_cons_append_newline unit false h, ih (List.not_mem_of_not_mem_cons h)]
    split
    · next hreturn =>
      obtain ⟨rfl, rfl⟩ := hreturn
      rfl
    · next hreturn =>
      rw [dropReturn_cons hreturn]
      rfl

/-- At the beginning of a line the indentation is put in front, unless the line is empty. -/
theorem indentChars_fresh_append_newline (unit : List Char) {cs : List Char} (h : '\n' ∉ cs)
    (rest : List Char) :
    indentChars unit true (cs ++ '\n' :: rest) =
      indentLine unit (dropReturn cs) ++ '\n' :: indentChars unit true rest := by
  cases cs with
  | nil => rfl
  | cons c cs =>
    rw [indentChars_cons_append_newline unit true h,
      indentChars_append_newline unit (List.not_mem_of_not_mem_cons h)]
    split
    · next hreturn =>
      obtain ⟨rfl, rfl⟩ := hreturn
      rfl
    · next hreturn =>
      rw [dropReturn_cons hreturn]
      simp [indentLine]

/-- The lines of a text, indented and each ended by a line feed, begin with the indented
characters. -/
theorem indentChars_prefix_lines (unit cs : List Char) :
    indentChars unit true cs <+: (lines cs).flatMap fun line => indentLine unit line ++ ['\n'] := by
  induction hlength : cs.length using Nat.strongRecOn generalizing cs with
  | ind length ih =>
    by_cases hmem : '\n' ∈ cs
    · obtain ⟨first, rest, rfl, hfirst⟩ := List.eq_append_cons_of_mem hmem
      have hshorter : rest.length < length := by
        rw [← hlength, List.length_append, List.length_cons]
        omega
      have hrest := ih rest.length hshorter rest rfl
      rw [indentChars_fresh_append_newline unit hfirst, lines_append_newline hfirst,
        List.flatMap_cons, List.append_assoc, List.singleton_append, List.prefix_append_right_inj,
        List.cons_prefix_cons]
      exact ⟨rfl, hrest⟩
    · rw [indentChars_fresh_of_not_mem unit hmem, lines_of_not_mem hmem]
      cases cs with
      | nil => exact List.nil_prefix
      | cons c cs => simp [indentLine]

theorem intercalate_append_newline {parts : List (List Char)} (h : parts ≠ []) :
    ['\n'].intercalate parts ++ ['\n'] = parts.flatMap (· ++ ['\n']) := by
  induction parts with
  | nil => exact absurd rfl h
  | cons part rest ih =>
    cases rest with
    | nil => simp
    | cons next rest =>
      rw [List.flatMap_cons, ← ih (List.cons_ne_nil _ _), List.intercalate_cons_cons,
        List.append_assoc, List.append_assoc]

theorem toList_indent (unit text : String) :
    (indent unit text).toList =
      ['\n'].intercalate ((lines text.toList).map (indentLine unit.toList)) := by
  rw [indent, String.toList_intercalate, List.map_map]
  congr 1
  apply List.map_congr_left
  intro line hline
  simp only [Function.comp_apply, indentLine]
  split
  · rfl
  · rw [String.toList_append, String.toList_ofList]

theorem indentChars_prefix_indent (unit text : String) :
    indentChars unit.toList true text.toList <+: (indent unit text).toList ++ ['\n'] := by
  have hlines := indentChars_prefix_lines unit.toList text.toList
  rw [toList_indent]
  by_cases hempty : lines text.toList = []
  · rw [hempty, List.flatMap_nil, List.prefix_nil] at hlines
    rw [hlines]
    exact List.nil_prefix
  · rw [intercalate_append_newline (by simpa using hempty), List.flatMap_map]
    exact hlines

/-! ## Parts -/

/-- What stands at the end of a text stands at the end of the indented text. -/
theorem exists_indentChars_suffix (unit : List Char) (fresh : Bool) (before cs : List Char) :
    ∃ fresh', indentChars unit fresh' cs <:+ indentChars unit fresh (before ++ cs) := by
  induction before generalizing fresh with
  | nil => exact ⟨fresh, List.suffix_rfl⟩
  | cons c before ih =>
    rw [List.cons_append, indentChars]
    split
    · obtain ⟨fresh', h⟩ := ih true
      exact ⟨fresh', h.trans (List.suffix_cons _ _)⟩
    · split
      · exact ih fresh
      · obtain ⟨fresh', h⟩ := ih false
        refine ⟨fresh', h.trans ?_⟩
        exact (List.suffix_cons c _).trans (List.suffix_append _ _)

theorem indentChars_suffix_fresh (unit : List Char) (fresh : Bool) (cs : List Char) :
    indentChars unit false cs <:+ indentChars unit fresh cs := by
  induction cs with
  | nil => exact List.suffix_rfl
  | cons c cs ih =>
    rw [indentChars, indentChars]
    split
    · exact List.suffix_rfl
    · split
      · exact ih
      · exact List.suffix_append _ _

/-- What stands at the beginning of a text stands at the beginning of the indented text, if the text
is not cut inside a line end. -/
theorem indentChars_prefix_append (unit : List Char) (fresh : Bool) {cs rest : List Char}
    (h : ¬ (cs.getLast? = some '\r' ∧ rest.head? = some '\n')) :
    indentChars unit fresh cs <+: indentChars unit fresh (cs ++ rest) := by
  induction cs generalizing fresh with
  | nil => exact List.nil_prefix
  | cons c cs ih =>
    have hcs : ¬ (cs.getLast? = some '\r' ∧ rest.head? = some '\n') := by
      rintro ⟨hlast, hhead⟩
      exact h ⟨by rw [List.getLast?_cons, hlast]; rfl, hhead⟩
    -- both texts have a line end here, or neither has
    have hcut : (c = '\r' ∧ (cs ++ rest).head? = some '\n') ↔
        (c = '\r' ∧ cs.head? = some '\n') := by
      cases cs with
      | nil =>
        constructor
        · rintro ⟨rfl, hhead⟩
          exact absurd ⟨rfl, hhead⟩ h
        · rintro ⟨-, hhead⟩
          exact nomatch hhead
      | cons d cs => rfl
    rw [List.cons_append, indentChars, indentChars]
    simp only [hcut]
    split
    · exact List.cons_prefix_cons.mpr ⟨rfl, ih true hcs⟩
    · split
      · exact ih fresh hcs
      · rw [List.prefix_append_right_inj, List.cons_prefix_cons]
        exact ⟨rfl, ih false hcs⟩

theorem indentChars_dropReturn_prefix_append (unit : List Char) (fresh : Bool)
    (cs rest : List Char) :
    indentChars unit fresh (dropReturn cs) <+: indentChars unit fresh (cs ++ rest) := by
  unfold dropReturn
  split
  · next hlast =>
    obtain ⟨before, rfl⟩ := List.getLast?_eq_some_iff.mp hlast
    rw [List.dropLast_concat, List.append_assoc]
    apply indentChars_prefix_append
    rintro ⟨-, hhead⟩
    exact absurd (Option.some.inj hhead) (by decide)
  · next hlast => exact indentChars_prefix_append unit fresh (fun hcut => hlast hcut.1)

/-- A part of a text as it is carried over when the text is indented: with the indentation after the
line feeds that it holds, and without carriage returns before them and at its end. -/
def carriedOver (unit part : String) : List Char :=
  indentChars unit.toList false (dropReturn part.toList)

/-- A part that holds no line feed and does not end with a carriage return. -/
def Unbroken (part : String) : Prop :=
  '\n' ∉ part.toList ∧ part.toList.getLast? ≠ some '\r'

instance (part : String) : Decidable (Unbroken part) :=
  inferInstanceAs (Decidable (_ ∧ _))

/-- Every part of a text is carried over to the indented text. -/
theorem carriedOver_infix_indent (unit : String) {part text : String}
    (h : part.toList <:+: text.toList) :
    carriedOver unit part <:+: (indent unit text).toList ++ ['\n'] := by
  obtain ⟨before, after, htext⟩ := h
  rw [List.append_assoc] at htext
  obtain ⟨fresh, hends⟩ := exists_indentChars_suffix unit.toList true before
    (part.toList ++ after)
  rw [htext] at hends
  have hbegins := indentChars_dropReturn_prefix_append unit.toList fresh part.toList after
  have hplain := indentChars_suffix_fresh unit.toList fresh (dropReturn part.toList)
  have hwhole := indentChars_prefix_indent unit text
  exact hplain.isInfix.trans (hbegins.isInfix.trans (hends.isInfix.trans hwhole.isInfix))

/-- An unbroken part is carried over as it is. -/
theorem carriedOver_of_unbroken (unit : String) {part : String} (h : Unbroken part) :
    carriedOver unit part = part.toList := by
  rw [carriedOver, dropReturn, if_neg h.2, indentChars_of_not_mem unit.toList h.1]

end CestWriter.Text
