import CestWriter.Yaml.Document

/-!
# Documents made of lines

A document may be a mapping that is written line by line: each line is blank, a comment, or a key
and its value. Keys are words; values are words or texts in double quotes. Between two entries the
scanner may stop at several places, depending on how the value before is written; from all of them
it goes to the same next entry.
-/

namespace CestWriter.Yaml

/-! ## Lines -/

/-- Whether a character may stand in a comment or between quotes: it may stand in a document and
does not end a line. -/
def isInline (c : Char) : Bool :=
  isAllowed c && !(isBreak c || c == '\r' || c == '\u0085')

/-- Whether a character may stand in a word: a letter, a digit or an underscore, or a character
beyond those on which the format is built. -/
def isWordChar (c : Char) : Bool :=
  c.isAlphanum || c == '_' || (0xA0 ≤ c.toNat && c != '\ufeff' && isInline c)

/-- A text that stays on its line. -/
structure Inline where
  text : String
  inline : ∀ c ∈ text.toList, isInline c = true

/-- A word, which is written without quotes. -/
structure Word where
  text : String
  nonempty : text.toList ≠ []
  chars : ∀ c ∈ text.toList, isWordChar c = true

/-- The word is not too long to be a key. -/
def Word.Short (w : Word) : Prop :=
  w.text.utf8ByteSize ≤ KeyStart.limit

instance (w : Word) : Decidable w.Short :=
  inferInstanceAs (Decidable (_ ≤ _))

/-- A value in a line. -/
inductive Value where
  | plain (w : Word)
  | quoted (t : Inline)

/-- A text between quotes: quotes and backslashes have a backslash in front. -/
def escape (cs : List Char) : List Char :=
  cs.flatMap fun c => if c = '\\' || c = '"' then ['\\', c] else [c]

namespace Value

/-- The value as it is written. -/
def written : Value → List Char
  | .plain w => w.text.toList
  | .quoted t => '"' :: escape t.text.toList ++ ['"']

/-- The scalar that the value is. -/
def scalar : Value → Scalar
  | .plain w => ⟨.plain, w.text⟩
  | .quoted t => ⟨.quoted, t.text⟩

end Value

/-- A key and its value. -/
structure Entry where
  key : Word
  value : Value

namespace Entry

/-- The entry as it is written. -/
def written (e : Entry) : List Char :=
  e.key.text.toList ++ ':' :: ' ' :: e.value.written

end Entry

/-- A line of a document. -/
inductive Line where
  | blank (width : Nat)
  | comment (width : Nat) (t : Inline)
  | entry (e : Entry)

namespace Line

/-- The line as it is written. -/
def written : Line → List Char
  | .blank width => List.replicate width ' '
  | .comment width t => List.replicate width ' ' ++ '#' :: t.text.toList
  | .entry e => e.written

/-- The text of lines. -/
def document (lines : List Line) : String :=
  "\n".intercalate (lines.map fun l => String.ofList l.written)

/-- What stands after a line that more lines follow. -/
def following (lines : List Line) : List Char :=
  lines.flatMap fun l => '\n' :: l.written

theorem following_cons (l : Line) (ls : List Line) :
    following (l :: ls) = '\n' :: (l.written ++ following ls) :=
  rfl

theorem toList_document_cons (l : Line) (ls : List Line) :
    (document (l :: ls)).toList = l.written ++ following ls := by
  induction ls generalizing l with
  | nil => simp [document, following]
  | cons next ls ih =>
    have hrest := ih next
    rw [document, List.map_cons] at hrest
    rw [document, List.map_cons, List.map_cons, String.intercalate_cons_cons, String.toList_append,
      hrest, String.toList_append, String.toList_ofList, List.append_assoc]
    rfl

/-- The keys and values in a document. -/
def entries (lines : List Line) : List Entry :=
  lines.filterMap fun l =>
    match l with
    | .entry e => some e
    | _ => none

end Line

/-! ## Characters -/

theorem isBreak_of_isInline {c : Char} (h : isInline c = true) : isBreak c = false := by
  simp only [isInline, Bool.and_eq_true, Bool.not_eq_true', Bool.or_eq_false_iff] at h
  exact h.2.1.1

theorem isWordChar_ne {c d : Char} (h : isWordChar c = true) (hd : isWordChar d = false) :
    c ≠ d := by
  rintro rfl
  rw [h] at hd
  cases hd

theorem isBreak_of_isWordChar {c : Char} (h : isWordChar c = true) : isBreak c = false := by
  simp (disch := decide) [isBreak, isWordChar_ne h]

theorem isBlank_of_isWordChar {c : Char} (h : isWordChar c = true) : isBlank c = false := by
  simp (disch := decide) [isBlank, isWordChar_ne h]

/-! ## Between two entries -/

theorem Position.right_right (p : Position) (m n : Nat) :
    (p.right m).right n = p.right (m + n) := by
  rw [right, right, right, Nat.add_assoc]

theorem Position.right_zero (p : Position) : p.right 0 = p :=
  rfl

/-- The scanner has gone over lines to the next entry, which begins its line and may have a key, or
to the end of the text. -/
inductive AtEntry : List Line → Bool × Cursor → Prop
  | finished {keyAllowed : Bool} {p : Position} : AtEntry [] (keyAllowed, ⟨p, []⟩)
  | entry {line : Nat} {e : Entry} {ls : List Line} :
    AtEntry (.entry e :: ls) (true, ⟨⟨line, 0⟩, e.written ++ Line.following ls⟩)
  | blank {width : Nat} {ls : List Line} {place : Bool × Cursor} (h : AtEntry ls place) :
    AtEntry (.blank width :: ls) place
  | comment {width : Nat} {t : Inline} {ls : List Line} {place : Bool × Cursor}
    (h : AtEntry ls place) : AtEntry (.comment width t :: ls) place

open Scanner (skip)

theorem skip_spaces (keyAllowed : Bool) (p : Position) (n : Nat) (cs : List Char) :
    skip false keyAllowed false p (List.replicate n ' ' ++ cs) =
      skip false keyAllowed false (p.right n) cs := by
  induction n generalizing p with
  | zero => rfl
  | succ n ih =>
    rw [List.replicate_succ, List.cons_append, skip, if_neg (by decide), if_neg (by decide),
      if_pos (by simp), ih, Position.right_right, Nat.add_comm]

theorem skip_hash (keyAllowed : Bool) (p : Position) (cs : List Char) :
    skip false keyAllowed false p ('#' :: cs) = skip false keyAllowed true (p.right 1) cs := by
  rw [skip, if_neg (by decide), if_neg (by decide), if_neg (by simp), if_pos rfl]

theorem skip_comment (keyAllowed : Bool) (p : Position) {text : List Char}
    (htext : ∀ c ∈ text, isInline c = true) (cs : List Char) :
    skip false keyAllowed true p (text ++ cs) =
      skip false keyAllowed true (p.right text.length) cs := by
  induction text generalizing p with
  | nil => rfl
  | cons c text ih =>
    have hc := isBreak_of_isInline (htext c List.mem_cons_self)
    rw [List.cons_append, skip, if_neg (by rw [hc]; decide), if_pos rfl,
      ih _ fun d hd => htext d (List.mem_cons_of_mem c hd), Position.right_right,
      List.length_cons, Nat.add_comm]

/-- A word does not begin with anything that is skipped. -/
theorem skip_word (keyAllowed : Bool) (p : Position) {c : Char} (hc : isWordChar c = true)
    (cs : List Char) : skip false keyAllowed false p (c :: cs) = (keyAllowed, ⟨p, c :: cs⟩) := by
  rw [skip, isBreak_of_isWordChar hc, if_neg Bool.false_ne_true, if_neg Bool.false_ne_true, if_neg,
    if_neg (isWordChar_ne hc (by decide))]
  simp (disch := decide) [isWordChar_ne hc]

theorem Word.toList_eq_cons (w : Word) :
    ∃ c cs, isWordChar c = true ∧ w.text.toList = c :: cs := by
  obtain ⟨c, cs, hword⟩ := List.exists_cons_of_ne_nil w.nonempty
  exact ⟨c, cs, w.chars c (by rw [hword]; exact List.mem_cons_self), hword⟩

theorem Entry.written_eq_cons (e : Entry) :
    ∃ c cs, isWordChar c = true ∧ e.written = c :: cs := by
  obtain ⟨c, cs, hc, hkey⟩ := e.key.toList_eq_cons
  refine ⟨c, cs ++ ':' :: ' ' :: e.value.written, hc, ?_⟩
  rw [Entry.written, hkey]
  rfl

/-- What is skipped at the beginning of a line, if the lines after it are skipped as they should. -/
theorem skip_line (l : Line) {ls : List Line}
    (hrest : ∀ keyAllowed comment p,
      AtEntry ls (skip false keyAllowed comment p (Line.following ls))) (line : Nat) :
    AtEntry (l :: ls) (skip false true false ⟨line, 0⟩ (l.written ++ Line.following ls)) := by
  cases l with
  | blank width =>
    rw [Line.written, skip_spaces]
    exact .blank (hrest _ _ _)
  | comment width t =>
    rw [Line.written, List.append_assoc, skip_spaces, List.cons_append, skip_hash,
      skip_comment _ _ t.inline]
    exact .comment (hrest _ _ _)
  | entry e =>
    obtain ⟨c, cs, hc, hwritten⟩ := e.written_eq_cons
    rw [Line.written, hwritten, List.cons_append, skip_word _ _ hc, ← List.cons_append, ← hwritten]
    exact .entry

theorem skip_following (lines : List Line) (keyAllowed comment : Bool) (p : Position) :
    AtEntry lines (skip false keyAllowed comment p (Line.following lines)) := by
  induction lines generalizing keyAllowed comment p with
  | nil => exact .finished
  | cons l ls ih =>
    rw [Line.following_cons, skip, if_pos (by decide), Bool.not_false, Bool.or_true]
    exact skip_line l ih _

theorem skip_document (lines : List Line) :
    AtEntry lines (skip false true false {} (Line.document lines).toList) := by
  cases lines with
  | nil => exact .finished
  | cons l ls =>
    rw [Line.toList_document_cons]
    exact skip_line l (skip_following ls) 0

theorem plain_spaces (indent : Nat) {gap : Gap} (hgap : gap.crossed = true) (p : Position) (n : Nat)
    (cs : List Char) :
    plain false indent gap p (List.replicate n ' ' ++ cs) =
      plain false indent gap (p.right n) cs := by
  have hadd : gap.addBlank ' ' = gap := by
    cases gap with
    | blanks run => cases hgap
    | breaks first more => rfl
  induction n generalizing p with
  | zero => rfl
  | succ n ih =>
    rw [List.replicate_succ, List.cons_append, plain, if_neg (by decide), if_pos (by decide),
      if_neg (by simp), hadd, ih, Position.right_right, Nat.add_comm]

theorem crossed_addBreak (c : Char) (gap : Gap) : (gap.addBreak c).crossed = true := by
  cases gap <;> rfl

theorem ne_none_of_crossed {gap : Gap} (h : gap.crossed = true) : (gap != .none) = true := by
  cases gap with
  | blanks run => cases h
  | breaks first more => rfl

/-- A plain scalar that has ended goes over the lines after it at most to the next entry. -/
theorem plain_following (lines : List Line) (gap : Gap) (p : Position) :
    ∃ crossed place, plain false 1 gap p (Line.following lines) = .ok ⟨[], crossed, place⟩ ∧
      AtEntry lines (skip false crossed false place.position place.rest) := by
  induction lines generalizing gap p with
  | nil => exact ⟨gap.crossed, ⟨p, []⟩, rfl, .finished⟩
  | cons l ls ih =>
    rw [Line.following_cons, plain, if_pos (by decide)]
    -- from here on the gap has a line end in it, whatever it was before
    have hgap := crossed_addBreak '\n' gap
    generalize gap.addBreak '\n' = gap at hgap
    cases l with
    | blank width =>
      obtain ⟨crossed, place, hplain, hat⟩ := ih gap (p.newline.right width)
      rw [Line.written, plain_spaces _ hgap]
      exact ⟨crossed, place, hplain, .blank hat⟩
    | comment width t =>
      rw [Line.written, List.append_assoc, plain_spaces _ hgap, List.cons_append, plain,
        if_neg (by decide), if_neg (by decide), if_pos, hgap]
      · refine ⟨true, _, rfl, ?_⟩
        rw [skip_hash, skip_comment _ _ t.inline]
        exact .comment (skip_following ls _ _ _)
      · simp [endsPlain, ne_none_of_crossed hgap]
    | entry e =>
      obtain ⟨c, cs, hc, hwritten⟩ := e.written_eq_cons
      rw [Line.written, hwritten, List.cons_append, plain, if_neg, if_neg, if_pos, hgap]
      · refine ⟨true, _, rfl, ?_⟩
        rw [skip_word _ _ hc, ← List.cons_append, ← hwritten]
        exact .entry
      · simp [endsPlain, ne_none_of_crossed hgap, Position.newline]
      · rw [isBlank_of_isWordChar hc]
        exact Bool.false_ne_true
      · rw [isBreak_of_isWordChar hc]
        exact Bool.false_ne_true

/-! ## Words and quoted texts -/

/-- A plain scalar takes a word as it is. -/
theorem plain_word (indent : Nat) (p : Position) {word : List Char}
    (hword : ∀ c ∈ word, isWordChar c = true) (cs : List Char) :
    plain false indent .none p (word ++ cs) =
      (plain false indent .none (p.right word.length) cs).map (·.prepend word) := by
  induction word generalizing p with
  | nil =>
    rw [List.nil_append, List.length_nil, Position.right_zero]
    cases plain false indent .none p cs <;> rfl
  | cons c word ih =>
    have hc := hword c List.mem_cons_self
    rw [List.cons_append, plain, if_neg, if_neg, if_neg, if_neg,
      ih _ fun d hd => hword d (List.mem_cons_of_mem c hd), Position.right_right,
      List.length_cons, Nat.add_comm]
    · cases plain false indent .none _ cs <;> rfl
    · simp
    · simp (disch := decide) [endsPlain, isWordChar_ne hc]
    · rw [isBlank_of_isWordChar hc]
      exact Bool.false_ne_true
    · rw [isBreak_of_isWordChar hc]
      exact Bool.false_ne_true

/-- A word that is a key ends at its colon. -/
theorem plain_key (indent : Nat) (p : Position) {word : List Char}
    (hword : ∀ c ∈ word, isWordChar c = true) (cs : List Char) :
    plain false indent .none p (word ++ ':' :: ' ' :: cs) =
      .ok ⟨word, false, ⟨p.right word.length, ':' :: ' ' :: cs⟩⟩ := by
  rw [plain_word indent p hword, plain, if_neg (by decide), if_neg (by decide),
    if_pos (by simp [endsPlain, atBlank, isBlank])]
  simp [Except.map, Reading.prepend, Gap.crossed, Gap.none]

theorem doubleQuoted_escaped {c : Char} (hc : c = '\\' ∨ c = '"') (gap : Gap) (p : Position)
    (cs : List Char) :
    doubleQuoted gap p ('\\' :: c :: cs) =
      (doubleQuoted .none (p.right 2) cs).map (·.prepend (gap.text ++ [c])) := by
  rcases hc with rfl | rfl
  · rw [doubleQuoted, if_neg (by decide)]
    · rfl
    all_goals
      intros
      simp_all
  · rw [doubleQuoted, if_neg (by decide)]
    · rfl
    all_goals
      intros
      simp_all

theorem doubleQuoted_inline {c : Char} (hc : isInline c = true) (hquote : c ≠ '"')
    (hescape : c ≠ '\\') (gap : Gap) {p : Position} (hp : 0 < p.column) (cs : List Char) :
    doubleQuoted gap p (c :: cs) =
      if isBlank c then doubleQuoted (gap.addBlank c) (p.right 1) cs
      else (doubleQuoted .none (p.right 1) cs).map (·.prepend (gap.text ++ [c])) := by
  rw [doubleQuoted, if_neg, if_neg (c := _ && _), if_neg hescape]
  · simp [Nat.ne_of_gt hp]
  · simp [isBreak_of_isInline hc]
  all_goals
    intros
    simp_all

/-- A quoted text is read back. -/
theorem doubleQuoted_escape {text : List Char} (htext : ∀ c ∈ text, isInline c = true)
    (run : List Char) {p : Position} (hp : 0 < p.column) (cs : List Char) :
    ∃ p', doubleQuoted (.blanks run) p (escape text ++ '"' :: cs) =
      .ok ⟨run.reverse ++ text, false, ⟨p', cs⟩⟩ := by
  induction text generalizing run p with
  | nil => exact ⟨p.right 1, by simp [escape, doubleQuoted, Gap.text]⟩
  | cons c text ih =>
    have htail : ∀ d ∈ text, isInline d = true := fun d hd => htext d (List.mem_cons_of_mem c hd)
    have hright : ∀ n, 0 < (p.right n).column := fun n => Nat.add_pos_left hp n
    by_cases hc : c = '\\' ∨ c = '"'
    · have hescape : escape (c :: text) = '\\' :: c :: escape text := by
        simp [escape, hc]
      obtain ⟨p', hread⟩ := ih htail [] (hright 2)
      refine ⟨p', ?_⟩
      rw [hescape, List.cons_append, List.cons_append, doubleQuoted_escaped hc, Gap.none, hread]
      simp [Except.map, Reading.prepend, Gap.text]
    · have hescape : escape (c :: text) = c :: escape text := by
        simp [escape, hc]
      have hne := not_or.mp hc
      rw [hescape, List.cons_append,
        doubleQuoted_inline (htext c List.mem_cons_self) hne.2 hne.1 _ hp]
      split
      · -- a blank is held back until the next character or the quote
        obtain ⟨p', hread⟩ := ih htail (c :: run) (hright 1)
        refine ⟨p', ?_⟩
        rw [Gap.addBlank, hread]
        simp
      · obtain ⟨p', hread⟩ := ih htail [] (hright 1)
        refine ⟨p', ?_⟩
        rw [Gap.none, hread]
        simp [Except.map, Reading.prepend, Gap.text]

end CestWriter.Yaml
