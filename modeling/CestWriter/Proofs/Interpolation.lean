import CestWriter.Literal
import CestWriter.Proofs.Identifiers
import CestWriter.Proofs.Pieces

/-!
# Which variables a literal reads

Recorded text becomes a double-quoted literal in which a reference is written without its braces.
Where the generated code runs, the name of a variable goes on as long as characters of names follow.
So a literal reads the variables that the text refers to exactly when no reference is followed
directly by such a character; where one is, the variable takes over the characters after it.
-/

namespace CestWriter.Interpolation

open Text (Piece decompose)

/-- Whether a character may stand in the name of a variable of the generated code. -/
def isNameChar (c : Char) : Bool :=
  c.isAlphanum || c == '_' || 128 ≤ c.toNat

/-- The name of a variable at the beginning of the body of a literal, and what follows it. A name
does not begin with a digit and is as long as possible. -/
def variableAt? : List Char → Option (List Char × List Char)
  | '$' :: c :: cs =>
    if isNameChar c && !c.isDigit then
      some (c :: cs.takeWhile isNameChar, cs.dropWhile isNameChar)
    else none
  | _ => none

/-- The character that stands for itself after a backslash, or that a letter stands for there. -/
def unescaped? : Char → Option Char
  | '\\' => some '\\'
  | '"' => some '"'
  | '$' => some '$'
  | 'n' => some '\n'
  | 'r' => some '\r'
  | 't' => some '\t'
  | 'v' => some '\x0b'
  | 'e' => some '\x1b'
  | 'f' => some '\x0c'
  | _ => none

/-- The character of an escape at the beginning of the body of a literal, and what follows it. -/
def escapeAt? : List Char → Option (Char × List Char)
  | '\\' :: c :: rest => (unescaped? c).map fun d => (d, rest)
  | _ => none

theorem variableAt?_length {cs name rest : List Char} (h : variableAt? cs = some (name, rest)) :
    rest.length < cs.length := by
  unfold variableAt? at h
  split at h
  · next c cs =>
    split at h
    · cases h
      have hle := Text.length_dropWhile_le isNameChar cs
      simp only [List.length_cons]
      omega
    · exact nomatch h
  · exact nomatch h

theorem escapeAt?_length {cs rest : List Char} {c : Char} (h : escapeAt? cs = some (c, rest)) :
    rest.length < cs.length := by
  unfold escapeAt? at h
  split at h
  · next d tail =>
    obtain ⟨e, -, he⟩ := Option.map_eq_some_iff.mp h
    cases he
    simp only [List.length_cons]
    omega
  · exact nomatch h

/-- The body of a double-quoted literal as the generated code reads it. -/
def readBody : List Char → List Piece
  | [] => []
  | c :: cs =>
    match h : variableAt? (c :: cs) with
    | some (name, rest) =>
      have := variableAt?_length h
      .reference name :: readBody rest
    | none =>
      match h : escapeAt? (c :: cs) with
      | some (d, rest) =>
        have := escapeAt?_length h
        Piece.push d (readBody rest)
      | none => Piece.push c (readBody cs)
termination_by cs => cs.length
decreasing_by
  · assumption
  · assumption
  · exact Nat.lt_succ_self _

/-- What stands between the quotes of a literal. -/
def body (literal : String) : List Char :=
  (literal.toList.drop 1).dropLast

/-- The text that pieces stand for when variables have values. -/
def evaluate (values : List Char → List Char) (pieces : List Piece) : List Char :=
  pieces.flatMap fun
    | .literal cs => cs
    | .reference name => values name

/-- Whether a name is made of letters, digits and underscores and does not begin with a digit. -/
def isIdentifier : List Char → Bool
  | [] => false
  | c :: cs => (c.isAlpha || c == '_') && cs.all fun d => d.isAlphanum || d == '_'

/-- A literal piece without `$`, or a reference to a variable whose name is an identifier. -/
def isPlain : Piece → Bool
  | .literal cs => !cs.contains '$'
  | .reference name => isIdentifier name

/-- The references of a text are its only uses of `$`, and their names are identifiers. -/
def OnlyReferences (raw : String) : Prop :=
  (decompose raw.toList).all isPlain = true

/-- Whether pieces begin with a literal character that may stand in the name of a variable. -/
def beginsNameChar : List Piece → Bool
  | .literal (c :: _) :: _ => isNameChar c
  | _ => false

/-- No reference is followed directly by a literal character that may stand in a name. -/
def Separated : List Piece → Prop
  | [] => True
  | .literal _ :: rest => Separated rest
  | .reference _ :: rest => beginsNameChar rest = false ∧ Separated rest

/-- Pieces in which a reference takes over the characters of names that follow it. -/
def absorbed : List Piece → List Piece
  | [] => []
  | .literal cs :: rest => cs.foldr Piece.push (absorbed rest)
  | .reference name :: .literal cs :: rest =>
    .reference (name ++ cs.takeWhile isNameChar) ::
      (cs.dropWhile isNameChar).foldr Piece.push (absorbed rest)
  | .reference name :: rest => .reference name :: absorbed rest

/-- Pieces as they stand in the body of a literal. -/
def written (pieces : List Piece) : List Char :=
  (pieces.flatMap Piece.interpolated).flatMap Literal.escapeChar

/-! ## Characters of names and escaped characters -/

theorem isNameChar_of_word {c : Char} (h : (c.isAlphanum || c == '_') = true) :
    isNameChar c = true := by
  rw [isNameChar, h, Bool.true_or]

theorem not_isDigit_of_isAlpha {c : Char} (h : c.isAlpha = true) : c.isDigit = false := by
  rw [Identifier.isAlpha_iff, Identifier.isUpper_iff, Identifier.isLower_iff] at h
  rw [Char.isDigit, Bool.and_eq_false_iff, decide_eq_false_iff_not, decide_eq_false_iff_not]
  simp only [UInt32.le_iff_toNat_le, ge_iff_le] at h ⊢
  have hA : 'A'.val.toNat = 65 := rfl
  have ha : 'a'.val.toNat = 97 := rfl
  have hnine : '9'.val.toNat = 57 := rfl
  omega

/-- A character that the body of a literal writes with a backslash is not one of names. -/
theorem escapeChar_of_isNameChar {c : Char} (h : isNameChar c = true) :
    Literal.escapeChar c = [c] := by
  have hbackslash : c ≠ '\\' := by
    intro hc
    rw [hc] at h
    exact absurd h (by decide)
  have hquote : c ≠ '"' := by
    intro hc
    rw [hc] at h
    exact absurd h (by decide)
  simp [Literal.escapeChar, hbackslash, hquote]

theorem escapeChar_cases (c : Char) :
    ((c = '\\' ∨ c = '"') ∧ Literal.escapeChar c = ['\\', c]) ∨
      (c ≠ '\\' ∧ c ≠ '"' ∧ Literal.escapeChar c = [c]) := by
  by_cases hbackslash : c = '\\'
  · exact .inl ⟨.inl hbackslash, by simp [Literal.escapeChar, hbackslash]⟩
  · by_cases hquote : c = '"'
    · exact .inl ⟨.inr hquote, by simp [Literal.escapeChar, hquote]⟩
    · exact .inr ⟨hbackslash, hquote, by simp [Literal.escapeChar, hbackslash, hquote]⟩

theorem flatMap_escapeChar_of_all {cs : List Char} (h : ∀ c ∈ cs, isNameChar c = true) :
    cs.flatMap Literal.escapeChar = cs := by
  induction cs with
  | nil => rfl
  | cons c cs ih =>
    have hc := escapeChar_of_isNameChar (h c List.mem_cons_self)
    have hcs := ih fun d hd => h d (List.mem_cons_of_mem c hd)
    rw [List.flatMap_cons, hc, hcs]
    rfl

/-- The characters do not begin with one of names. -/
def Stops (cs : List Char) : Prop :=
  ∀ c rest, cs = c :: rest → isNameChar c = false

theorem stops_escapeChar_append {c : Char} (h : isNameChar c = false) (cs : List Char) :
    Stops (Literal.escapeChar c ++ cs) := by
  intro d rest hd
  rcases escapeChar_cases c with ⟨-, he⟩ | ⟨-, -, he⟩
  · rw [he] at hd
    cases hd
    decide
  · rw [he] at hd
    cases hd
    exact h

theorem takeWhile_of_stops {cs : List Char} (h : Stops cs) : cs.takeWhile isNameChar = [] := by
  cases cs with
  | nil => rfl
  | cons c rest =>
    apply List.takeWhile_cons_of_neg
    rw [h c rest rfl]
    exact Bool.false_ne_true

theorem dropWhile_of_stops {cs : List Char} (h : Stops cs) : cs.dropWhile isNameChar = cs := by
  cases cs with
  | nil => rfl
  | cons c rest =>
    apply List.dropWhile_cons_of_neg
    rw [h c rest rfl]
    exact Bool.false_ne_true

/-- The run of characters of names at the beginning is the same before and after escaping. -/
theorem takeWhile_escaped (cs : List Char) {rest : List Char} (hrest : Stops rest) :
    (cs.flatMap Literal.escapeChar ++ rest).takeWhile isNameChar = cs.takeWhile isNameChar := by
  induction cs with
  | nil => exact takeWhile_of_stops hrest
  | cons c cs ih =>
    rw [List.flatMap_cons, List.append_assoc]
    by_cases hc : isNameChar c = true
    · rw [escapeChar_of_isNameChar hc, List.singleton_append, List.takeWhile_cons_of_pos hc, ih,
        List.takeWhile_cons_of_pos hc]
    · rw [List.takeWhile_cons_of_neg hc]
      exact takeWhile_of_stops (stops_escapeChar_append (Bool.eq_false_iff.mpr hc) _)

theorem dropWhile_escaped (cs : List Char) {rest : List Char} (hrest : Stops rest) :
    (cs.flatMap Literal.escapeChar ++ rest).dropWhile isNameChar =
      (cs.dropWhile isNameChar).flatMap Literal.escapeChar ++ rest := by
  induction cs with
  | nil => exact dropWhile_of_stops hrest
  | cons c cs ih =>
    by_cases hc : isNameChar c = true
    · rw [List.flatMap_cons, escapeChar_of_isNameChar hc, List.singleton_append, List.cons_append,
        List.dropWhile_cons_of_pos hc, ih, List.dropWhile_cons_of_pos hc]
    · rw [List.dropWhile_cons_of_neg hc, List.flatMap_cons, List.append_assoc]
      exact dropWhile_of_stops (stops_escapeChar_append (Bool.eq_false_iff.mpr hc) _)

/-! ## Reading what was written -/

theorem readBody_of_variableAt? {cs name rest : List Char}
    (h : variableAt? cs = some (name, rest)) : readBody cs = .reference name :: readBody rest := by
  cases cs with
  | nil => exact nomatch h
  | cons c cs =>
    rw [readBody]
    split
    · next heq =>
      rw [h] at heq
      cases heq
      rfl
    · next heq =>
      rw [h] at heq
      exact nomatch heq

theorem variableAt?_eq_none {c : Char} (h : c ≠ '$') (cs : List Char) :
    variableAt? (c :: cs) = none := by
  unfold variableAt?
  split
  · next heq =>
    cases heq
    exact absurd rfl h
  · rfl

theorem readBody_of_escapeAt? {c d : Char} {cs rest : List Char} (hc : c ≠ '$')
    (h : escapeAt? (c :: cs) = some (d, rest)) :
    readBody (c :: cs) = Piece.push d (readBody rest) := by
  rw [readBody]
  split
  · next heq =>
    rw [variableAt?_eq_none hc] at heq
    exact nomatch heq
  · split
    · next heq =>
      rw [h] at heq
      cases heq
      rfl
    · next heq =>
      rw [h] at heq
      exact nomatch heq

theorem readBody_of_ne {c : Char} (hdollar : c ≠ '$') (hbackslash : c ≠ '\\') (cs : List Char) :
    readBody (c :: cs) = Piece.push c (readBody cs) := by
  have hescape : escapeAt? (c :: cs) = none := by
    unfold escapeAt?
    split
    · next heq =>
      cases heq
      exact absurd rfl hbackslash
    · rfl
  rw [readBody]
  split
  · next heq =>
    rw [variableAt?_eq_none hdollar] at heq
    exact nomatch heq
  · split
    · next heq =>
      rw [hescape] at heq
      exact nomatch heq
    · rfl

/-- An escaped character is read as itself. -/
theorem readBody_escapeChar_append {c : Char} (hc : c ≠ '$') (rest : List Char) :
    readBody (Literal.escapeChar c ++ rest) = Piece.push c (readBody rest) := by
  rcases escapeChar_cases c with ⟨hspecial, he⟩ | ⟨hbackslash, -, he⟩
  · rw [he]
    apply readBody_of_escapeAt? (by decide)
    rcases hspecial with rfl | rfl
    · rfl
    · rfl
  · rw [he]
    exact readBody_of_ne hc hbackslash rest

theorem readBody_escaped_append {cs : List Char} (h : '$' ∉ cs) (rest : List Char) :
    readBody (cs.flatMap Literal.escapeChar ++ rest) = cs.foldr Piece.push (readBody rest) := by
  induction cs with
  | nil => rfl
  | cons c cs ih =>
    have hc : c ≠ '$' := fun hc => h (hc ▸ List.mem_cons_self)
    have hcs : '$' ∉ cs := fun hmem => h (List.mem_cons_of_mem c hmem)
    rw [List.flatMap_cons, List.append_assoc, readBody_escapeChar_append hc, ih hcs]
    rfl

/-! ## Variables -/

/-- An identifier begins with a character of names that is no digit, and goes on with such
characters. -/
theorem exists_cons_of_isIdentifier {name : List Char} (h : isIdentifier name = true) :
    ∃ c cs, name = c :: cs ∧ isNameChar c = true ∧ c.isDigit = false ∧
      ∀ d ∈ cs, isNameChar d = true := by
  cases name with
  | nil => exact nomatch h
  | cons c cs =>
    rw [isIdentifier, Bool.and_eq_true, List.all_eq_true] at h
    obtain ⟨hc, hcs⟩ := h
    have hword : (c.isAlphanum || c == '_') = true := by
      rw [Char.isAlphanum, Bool.or_right_comm, hc, Bool.true_or]
    refine ⟨c, cs, rfl, isNameChar_of_word hword, ?_, fun d hd => isNameChar_of_word (hcs d hd)⟩
    rw [Bool.or_eq_true, beq_iff_eq] at hc
    rcases hc with halpha | hunderscore
    · exact not_isDigit_of_isAlpha halpha
    · rw [hunderscore]
      decide

theorem isNameChar_of_mem_identifier {name : List Char} (h : isIdentifier name = true) :
    ∀ c ∈ name, isNameChar c = true := by
  obtain ⟨c, cs, rfl, hc, -, hcs⟩ := exists_cons_of_isIdentifier h
  intro d hd
  rcases List.mem_cons.mp hd with rfl | hd
  · exact hc
  · exact hcs d hd

/-- A variable in the body of a literal takes over the characters of names that follow it. -/
theorem variableAt?_append {name : List Char} (h : isIdentifier name = true) (rest : List Char) :
    variableAt? ('$' :: (name ++ rest)) =
      some (name ++ rest.takeWhile isNameChar, rest.dropWhile isNameChar) := by
  obtain ⟨c, cs, rfl, hc, hdigit, hcs⟩ := exists_cons_of_isIdentifier h
  simp only [List.cons_append, variableAt?, hc, hdigit, Bool.not_false, Bool.and_true, if_true]
  rw [List.takeWhile_append_of_pos hcs, List.dropWhile_append_of_pos hcs]

/-! ## Decompositions as the generated code reads them -/

theorem written_literal (cs : List Char) (rest : List Piece) :
    written (.literal cs :: rest) = cs.flatMap Literal.escapeChar ++ written rest := by
  simp [written, Piece.interpolated]

theorem written_reference {name : List Char} (h : isIdentifier name = true) (rest : List Piece) :
    written (.reference name :: rest) = '$' :: (name ++ written rest) := by
  have hdollar : Literal.escapeChar '$' = ['$'] := by decide
  have hname := flatMap_escapeChar_of_all (isNameChar_of_mem_identifier h)
  simp [written, Piece.interpolated, hdollar, hname]

theorem stops_written {pieces : List Piece} (hplain : pieces.all isPlain = true)
    (h : Piece.beginsLiteral pieces = false) : Stops (written pieces) := by
  intro c rest hc
  cases pieces with
  | nil => exact nomatch hc
  | cons piece pieces =>
    cases piece with
    | literal cs => exact nomatch h
    | reference name =>
      rw [List.all_cons, Bool.and_eq_true] at hplain
      rw [written_reference hplain.1] at hc
      cases hc
      decide

theorem not_mem_of_isPlain_literal {cs : List Char} (h : isPlain (.literal cs) = true) :
    '$' ∉ cs := by
  simpa [isPlain] using h

/-- What the generated code reads: every reference takes over the characters after it that may
stand in a name. -/
theorem readBody_written {pieces : List Piece} (hnormal : Piece.Normal pieces)
    (hplain : pieces.all isPlain = true) : readBody (written pieces) = absorbed pieces := by
  fun_induction absorbed pieces with
  | case1 => simp [written, readBody]
  | case2 cs rest ih =>
    rw [List.all_cons, Bool.and_eq_true] at hplain
    rw [written_literal, readBody_escaped_append (not_mem_of_isPlain_literal hplain.1),
      ih hnormal.2.2 hplain.2]
  | case3 name cs rest ih =>
    rw [List.all_cons, Bool.and_eq_true, List.all_cons, Bool.and_eq_true] at hplain
    obtain ⟨hname, hcs, hrest⟩ := hplain
    -- the literal piece ends before the next `$`, so only its own characters can be taken over
    have hstops := stops_written hrest hnormal.2.1
    have hdrop : '$' ∉ cs.dropWhile isNameChar := fun hmem =>
      not_mem_of_isPlain_literal hcs (List.dropWhile_sublist _ |>.mem hmem)
    rw [written_reference hname, written_literal,
      readBody_of_variableAt? (variableAt?_append hname _), takeWhile_escaped cs hstops,
      dropWhile_escaped cs hstops, readBody_escaped_append hdrop, ih hnormal.2.2 hrest]
  | case4 name rest hnext ih =>
    rw [List.all_cons, Bool.and_eq_true] at hplain
    have hbegins : Piece.beginsLiteral rest = false := by
      unfold Piece.beginsLiteral
      split
      · exact absurd rfl (hnext _ _)
      · rfl
    have hstops := stops_written hplain.2 hbegins
    rw [written_reference hplain.1, readBody_of_variableAt? (variableAt?_append hplain.1 _),
      takeWhile_of_stops hstops, dropWhile_of_stops hstops, List.append_nil, ih hnormal hplain.2]

theorem body_text (raw : String) :
    body (Literal.text raw) = written (decompose raw.toList) := by
  simp [body, written, Literal.text, Literal.quote, Literal.escape, Text.interpolate]

theorem readBody_text {raw : String} (h : OnlyReferences raw) :
    readBody (body (Literal.text raw)) = absorbed (decompose raw.toList) := by
  rw [body_text]
  exact readBody_written (Piece.normal_decompose _) h

/-! ## When nothing is taken over -/

theorem beginsNameChar_literal_iff (cs : List Char) (rest : List Piece) :
    beginsNameChar (.literal cs :: rest) = false ↔ Stops cs := by
  cases cs with
  | nil => exact ⟨fun _ => nofun, fun _ => rfl⟩
  | cons c cs =>
    constructor
    · intro h d tail hd
      cases hd
      exact h
    · intro h
      exact h c cs rfl

theorem beginsNameChar_of_ne {rest : List Piece} (h : ∀ cs tail, rest ≠ .literal cs :: tail) :
    beginsNameChar rest = false := by
  unfold beginsNameChar
  split
  · exact absurd rfl (h _ _)
  · rfl

theorem stops_of_length_dropWhile {cs : List Char}
    (h : (cs.dropWhile isNameChar).length = cs.length) : Stops cs := by
  intro c rest hc
  rw [hc] at h
  by_cases hname : isNameChar c = true
  · have hle := Text.length_dropWhile_le isNameChar rest
    rw [List.dropWhile_cons_of_pos hname, List.length_cons] at h
    omega
  · exact Bool.eq_false_iff.mpr hname

theorem evaluate_push (values : List Char → List Char) (c : Char) (pieces : List Piece) :
    evaluate values (Piece.push c pieces) = c :: evaluate values pieces := by
  unfold Piece.push
  split
  · rfl
  · rfl

theorem evaluate_foldr_push (values : List Char → List Char) (cs : List Char)
    (pieces : List Piece) :
    evaluate values (cs.foldr Piece.push pieces) = cs ++ evaluate values pieces := by
  induction cs with
  | nil => rfl
  | cons c cs ih => rw [List.foldr_cons, evaluate_push, ih, List.cons_append]

theorem evaluate_cons_literal (values : List Char → List Char) (cs : List Char)
    (rest : List Piece) : evaluate values (.literal cs :: rest) = cs ++ evaluate values rest := rfl

theorem evaluate_cons_reference (values : List Char → List Char) (name : List Char)
    (rest : List Piece) :
    evaluate values (.reference name :: rest) = values name ++ evaluate values rest := rfl

/-- Every variable is empty. What a reference takes over is then missing from the text. -/
def allEmpty : List Char → List Char := fun _ => []

theorem length_evaluate_absorbed_le (pieces : List Piece) :
    (evaluate allEmpty (absorbed pieces)).length ≤ (evaluate allEmpty pieces).length := by
  fun_induction absorbed pieces with
  | case1 => exact Nat.le_refl _
  | case2 cs rest ih =>
    rw [evaluate_foldr_push, evaluate_cons_literal, List.length_append, List.length_append]
    omega
  | case3 name cs rest ih =>
    have hle := Text.length_dropWhile_le isNameChar cs
    rw [evaluate_cons_reference, evaluate_foldr_push, evaluate_cons_reference,
      evaluate_cons_literal]
    simp only [allEmpty, List.nil_append, List.length_append] at ih ⊢
    omega
  | case4 name rest hnext ih =>
    rw [evaluate_cons_reference, evaluate_cons_reference]
    exact ih

theorem separated_of_length {pieces : List Piece}
    (h : (evaluate allEmpty (absorbed pieces)).length = (evaluate allEmpty pieces).length) :
    Separated pieces := by
  fun_induction absorbed pieces with
  | case1 => trivial
  | case2 cs rest ih =>
    rw [evaluate_foldr_push, evaluate_cons_literal, List.length_append, List.length_append] at h
    exact ih (by omega)
  | case3 name cs rest ih =>
    -- both parts can only lose characters, so neither of them does
    have hcs := Text.length_dropWhile_le isNameChar cs
    have hrest := length_evaluate_absorbed_le rest
    rw [evaluate_cons_reference, evaluate_foldr_push, evaluate_cons_reference,
      evaluate_cons_literal] at h
    simp only [allEmpty, List.nil_append, List.length_append] at h hrest ih
    have hstops : Stops cs := stops_of_length_dropWhile (by omega)
    exact ⟨(beginsNameChar_literal_iff cs rest).mpr hstops, ih (by omega)⟩
  | case4 name rest hnext ih =>
    rw [evaluate_cons_reference, evaluate_cons_reference] at h
    exact ⟨beginsNameChar_of_ne hnext, ih h⟩

theorem absorbed_of_separated {pieces : List Piece} (hnormal : Piece.Normal pieces)
    (h : Separated pieces) : absorbed pieces = pieces := by
  fun_induction absorbed pieces with
  | case1 => rfl
  | case2 cs rest ih =>
    rw [ih hnormal.2.2 h]
    exact Piece.foldr_push hnormal.1 hnormal.2.1
  | case3 name cs rest ih =>
    have hstops := (beginsNameChar_literal_iff cs rest).mp h.1
    rw [takeWhile_of_stops hstops, dropWhile_of_stops hstops, List.append_nil,
      ih hnormal.2.2 h.2, Piece.foldr_push hnormal.1 hnormal.2.1]
  | case4 name rest hnext ih => rw [ih hnormal h.2]

theorem absorbed_eq_iff {pieces : List Piece} (hnormal : Piece.Normal pieces) :
    absorbed pieces = pieces ↔ Separated pieces := by
  constructor
  · intro h
    apply separated_of_length
    rw [h]
  · exact absorbed_of_separated hnormal

theorem evaluate_absorbed_eq_iff {pieces : List Piece} (hnormal : Piece.Normal pieces) :
    (∀ values, evaluate values (absorbed pieces) = evaluate values pieces) ↔ Separated pieces := by
  constructor
  · intro h
    apply separated_of_length
    rw [h allEmpty]
  · intro h values
    rw [absorbed_of_separated hnormal h]

/-- The literal of a text is read as the decomposition of the text, and stands for the text with
every reference replaced by the value of its variable, exactly when no reference is followed
directly by a character that may stand in a name. -/
theorem readBody_text_eq_decompose_iff (raw : String) (h : OnlyReferences raw) :
    (readBody (body (Literal.text raw)) = decompose raw.toList ↔
        Separated (decompose raw.toList)) ∧
      ((∀ values, evaluate values (readBody (body (Literal.text raw))) =
          evaluate values (decompose raw.toList)) ↔
        Separated (decompose raw.toList)) := by
  have hnormal := Piece.normal_decompose raw.toList
  rw [readBody_text h]
  exact ⟨absorbed_eq_iff hnormal, evaluate_absorbed_eq_iff hnormal⟩

theorem decompose_greeting : decompose "say \"$\x7ba\x7d\" to $\x7bb\x7d".toList =
    [.literal "say \"".toList, .reference ['a'], .literal "\" to ".toList,
      .reference ['b']] := by
  have hfirst : Text.reference? "$\x7ba\x7d\" to $\x7bb\x7d".toList =
      some (['a'], "\" to ".toList ++ "$\x7bb\x7d".toList) := by decide
  have hsecond : Text.reference? "$\x7bb\x7d".toList = some (['b'], []) := by decide
  have hlast : decompose "$\x7bb\x7d".toList = [.reference ['b']] := by
    rw [Piece.decompose_of_reference hsecond, decompose]
  have hrest : decompose "$\x7ba\x7d\" to $\x7bb\x7d".toList =
      [.reference ['a'], .literal "\" to ".toList, .reference ['b']] := by
    rw [Piece.decompose_of_reference hfirst, Piece.decompose_append_of_not_mem (by decide), hlast]
    rfl
  have hwhole := Piece.decompose_append_of_not_mem (by decide : '$' ∉ "say \"".toList)
    "$\x7ba\x7d\" to $\x7bb\x7d".toList
  rw [hrest] at hwhole
  exact hwhole

theorem decompose_adjacent : decompose "$\x7ba\x7db".toList =
    [.reference ['a'], .literal ['b']] := by
  have hreference : Text.reference? "$\x7ba\x7db".toList = some (['a'], ['b']) := by decide
  rw [Piece.decompose_of_reference hreference, Piece.decompose_of_not_mem (by decide) (by decide)]

/-- The references of the first text end at a quote and at the end of the text. In the second text
a letter follows the reference, and the literal reads another variable. -/
theorem readBody_text_greeting_and_adjacent :
    (OnlyReferences "say \"$\x7ba\x7d\" to $\x7bb\x7d" ∧
      readBody (body (Literal.text "say \"$\x7ba\x7d\" to $\x7bb\x7d")) =
        decompose "say \"$\x7ba\x7d\" to $\x7bb\x7d".toList) ∧
    (OnlyReferences "$\x7ba\x7db" ∧
      ¬ ∀ values, evaluate values (readBody (body (Literal.text "$\x7ba\x7db"))) =
        evaluate values (decompose "$\x7ba\x7db".toList)) := by
  have hgreeting : OnlyReferences "say \"$\x7ba\x7d\" to $\x7bb\x7d" := by
    rw [OnlyReferences, decompose_greeting]
    decide
  have hadjacent : OnlyReferences "$\x7ba\x7db" := by
    rw [OnlyReferences, decompose_adjacent]
    decide
  refine ⟨⟨hgreeting, ?_⟩, hadjacent, ?_⟩
  · apply (readBody_text_eq_decompose_iff _ hgreeting).1.mpr
    rw [decompose_greeting]
    exact ⟨by decide, rfl, trivial⟩
  · intro heval
    have hseparated := (readBody_text_eq_decompose_iff _ hadjacent).2.mp heval
    rw [decompose_adjacent] at hseparated
    exact absurd hseparated.1 (by decide)

/-- The literal of `${a}b` reads the variable `ab`. -/
theorem readBody_text_adjacent :
    OnlyReferences "$\x7ba\x7db" ∧
      readBody (body (Literal.text "$\x7ba\x7db")) = [.reference ['a', 'b']] ∧
      readBody (body (Literal.text "$\x7ba\x7db")) ≠ decompose "$\x7ba\x7db".toList := by
  have hplain : OnlyReferences "$\x7ba\x7db" := by
    rw [OnlyReferences, decompose_adjacent]
    decide
  rw [readBody_text hplain, decompose_adjacent]
  exact ⟨hplain, by decide, by decide⟩

end CestWriter.Interpolation
