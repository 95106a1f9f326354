import CestWriter.Text.Cut
import CestWriter.Text.Hex

/-!
# Tokens of JSON text

Strict JSON text: no comments, no byte-order mark, no control characters inside strings, and only
space, tab, line feed and carriage return between tokens. A number keeps the characters it was
written with. A string literal may hold an escape that is half of a surrogate pair and stands
alone; such a literal is well formed but denotes no text.
-/

namespace CestWriter.Json

/-- Why a JSON text was refused. -/
inductive Fault where
  /-- No token starts here. -/
  | unreadable (rest : String)
  /-- A token stands where it may not. -/
  | misplaced
  /-- The text ends inside a value. -/
  | incomplete
  /-- A value has the wrong type. -/
  | mistyped (expected : String)
  /-- A required field is absent. -/
  | missing (field : String)
  /-- A field is given twice. -/
  | repeated (field : String)
  /-- A record written as an array has too many elements. -/
  | surplus
deriving Repr, DecidableEq

/-- The wording of a fault. -/
def Fault.message : Fault → String
  | .unreadable rest => String.join ["no token at `", rest, "`"]
  | .misplaced => "unexpected token"
  | .incomplete => "unexpected end of text"
  | .mistyped expected => String.join ["expected ", expected]
  | .missing field => String.join ["missing field `", field, "`"]
  | .repeated field => String.join ["duplicate field `", field, "`"]
  | .surplus => "too many elements"

/-- A token of JSON text. -/
inductive Token where
  | beginObject
  | endObject
  | beginArray
  | endArray
  | colon
  | comma
  | null
  | bool (b : Bool)
  /-- A number, as it is written. -/
  | number (digits : String)
  /-- A string literal, or nothing if it denotes no text. -/
  | string (text : Option String)
deriving Repr, DecidableEq

/-- Whether a character may stand between tokens. -/
def isSpace (c : Char) : Bool :=
  c == ' ' || c == '\t' || c == '\n' || c == '\r'

/-- An element of a string literal: a character, or a 16-bit code given by an escape. -/
inductive Element where
  | char (c : Char)
  | code (n : Nat)
deriving Repr, DecidableEq

/-- The character of an escape other than a code. -/
def escaped? (c : Char) : Option Char :=
  if c = '"' || c = '\\' || c = '/' then some c
  else if c = 'b' then some '\x08'
  else if c = 'f' then some '\x0c'
  else if c = 'n' then some '\n'
  else if c = 'r' then some '\r'
  else if c = 't' then some '\t'
  else none

/-- The elements of a string literal after its opening quote, and what follows the closing one. -/
def elements? : List Char → Option (List Element × List Char)
  | [] => none
  | '"' :: rest => some ([], rest)
  | '\\' :: 'u' :: a :: b :: c :: d :: rest => do
    let n ← Text.hexValue? [a, b, c, d]
    let (more, rest) ← elements? rest
    return (.code n :: more, rest)
  | '\\' :: c :: rest => do
    let e ← escaped? c
    let (more, rest) ← elements? rest
    return (.char e :: more, rest)
  | c :: rest =>
    if c.toNat < 32 || c = '\\' then none
    else do
      let (more, rest) ← elements? rest
      return (.char c :: more, rest)

/-- The text of a string literal. Two codes that form a surrogate pair are one character; a code
that is half of a pair and stands alone leaves the literal without a text. -/
def text? : List Element → Option (List Char)
  | [] => some []
  | .char c :: rest => (text? rest).map (c :: ·)
  | .code n :: .code m :: rest =>
    if n < 0xD800 || 0xDFFF < n then (text? (.code m :: rest)).map (Char.ofNat n :: ·)
    else if n < 0xDC00 && 0xDC00 ≤ m && m ≤ 0xDFFF then
      (text? rest).map (Char.ofNat (0x10000 + (n - 0xD800) * 0x400 + (m - 0xDC00)) :: ·)
    else none
  | .code n :: rest =>
    if n < 0xD800 || 0xDFFF < n then (text? rest).map (Char.ofNat n :: ·) else none

/-- A non-empty run of digits, and what follows it. -/
def digits? (cs : List Char) : Option (List Char × List Char) :=
  let run := cs.takeWhile Char.isDigit
  if run.isEmpty then none else some (run, cs.dropWhile Char.isDigit)

/-- The digits before the point: zero alone, or digits that do not begin with zero. -/
def wholeDigits? : List Char → Option (List Char × List Char)
  | '0' :: rest => some (['0'], rest)
  | cs => digits? cs

/-- A point with digits, if one follows. -/
def fractionDigits? : List Char → Option (List Char × List Char)
  | '.' :: cs => (digits? cs).map fun (run, rest) => ('.' :: run, rest)
  | cs => some ([], cs)

/-- A power of ten, if one follows. -/
def exponentDigits? : List Char → Option (List Char × List Char)
  | e :: cs =>
    if e = 'e' || e = 'E' then
      match cs with
      | s :: more =>
        if s = '+' || s = '-' then (digits? more).map fun (run, rest) => (e :: s :: run, rest)
        else (digits? cs).map fun (run, rest) => (e :: run, rest)
      | [] => none
    else some ([], e :: cs)
  | [] => some ([], [])

/-- A number without sign, and what follows it. -/
def unsigned? (cs : List Char) : Option (List Char × List Char) := do
  let (whole, cs) ← wholeDigits? cs
  let (fraction, cs) ← fractionDigits? cs
  let (exponent, cs) ← exponentDigits? cs
  return (whole ++ fraction ++ exponent, cs)

/-- A number, and what follows it. -/
def number? : List Char → Option (List Char × List Char)
  | '-' :: cs => (unsigned? cs).map fun (run, rest) => ('-' :: run, rest)
  | cs => unsigned? cs

/-- One of the three words, and what follows it. -/
def word? (cs : List Char) : Option (Token × List Char) :=
  match Text.rest? "null".toList cs with
  | some rest => some (.null, rest)
  | none =>
    match Text.rest? "true".toList cs with
    | some rest => some (.bool true, rest)
    | none => (Text.rest? "false".toList cs).map (.bool false, ·)

/-- The first token of a text that begins with one, and what follows it. -/
def Token.next? : List Char → Option (Token × List Char)
  | [] => none
  | c :: cs =>
    if c = '\x7b' then some (.beginObject, cs)
    else if c = '\x7d' then some (.endObject, cs)
    else if c = '[' then some (.beginArray, cs)
    else if c = ']' then some (.endArray, cs)
    else if c = ':' then some (.colon, cs)
    else if c = ',' then some (.comma, cs)
    else if c = '"' then
      (elements? cs).map fun (es, rest) => (.string ((text? es).map String.ofList), rest)
    else if c = '-' || c.isDigit then
      (number? (c :: cs)).map fun (run, rest) => (.number (String.ofList run), rest)
    else word? (c :: cs)

theorem elements?_length {cs rest : List Char} {es : List Element}
    (h : elements? cs = some (es, rest)) : rest.length < cs.length := by
  fun_induction elements? cs generalizing es rest with
  | case1 => exact nomatch h
  | case2 => cases h; simp
  | case3 a b c d cs ih =>
    simp only [Option.bind_eq_bind, Option.bind_eq_some_iff] at h
    obtain ⟨n, _, ⟨more, tail⟩, hmore, h⟩ := h
    cases h
    have := ih hmore
    simp only [List.length_cons]
    omega
  | case4 c cs _ ih =>
    simp only [Option.bind_eq_bind, Option.bind_eq_some_iff] at h
    obtain ⟨e, _, ⟨more, tail⟩, hmore, h⟩ := h
    cases h
    have := ih hmore
    simp only [List.length_cons]
    omega
  | case5 => exact nomatch h
  | case6 c cs _ _ _ _ ih =>
    simp only [Option.bind_eq_bind, Option.bind_eq_some_iff] at h
    obtain ⟨⟨more, tail⟩, hmore, h⟩ := h
    cases h
    have := ih hmore
    simp only [List.length_cons]
    omega

theorem digits?_length {cs run rest : List Char} (h : digits? cs = some (run, rest)) :
    rest.length < cs.length := by
  unfold digits? at h
  cases cs with
  | nil => simp at h
  | cons c cs =>
    by_cases hc : c.isDigit
    · simp only [List.takeWhile_cons, hc, ↓reduceIte, List.isEmpty_cons, Bool.false_eq_true,
        List.dropWhile_cons, Option.some.injEq, Prod.mk.injEq] at h
      obtain ⟨_, rfl⟩ := h
      have := Text.length_dropWhile_le Char.isDigit cs
      simp only [List.length_cons]
      omega
    · simp [hc] at h

theorem wholeDigits?_length {cs run rest : List Char} (h : wholeDigits? cs = some (run, rest)) :
    rest.length < cs.length := by
  unfold wholeDigits? at h
  split at h
  · cases h; simp
  · exact digits?_length h

theorem fractionDigits?_length {cs run rest : List Char}
    (h : fractionDigits? cs = some (run, rest)) : rest.length ≤ cs.length := by
  unfold fractionDigits? at h
  split at h
  · obtain ⟨⟨digits, tail⟩, hdigits, h⟩ := Option.map_eq_some_iff.mp h
    cases h
    have := digits?_length hdigits
    simp only [List.length_cons]
    omega
  · cases h; exact Nat.le_refl _

theorem exponentDigits?_length {cs run rest : List Char}
    (h : exponentDigits? cs = some (run, rest)) : rest.length ≤ cs.length := by
  unfold exponentDigits? at h
  split at h
  · next e cs =>
    split at h
    · split at h
      · next s more =>
        split at h
        all_goals
          obtain ⟨⟨digits, tail⟩, hdigits, h⟩ := Option.map_eq_some_iff.mp h
          cases h
          have := digits?_length hdigits
          simp only [List.length_cons] at this ⊢
          omega
      · exact nomatch h
    · cases h; exact Nat.le_refl _
  · cases h; exact Nat.le_refl _

theorem unsigned?_length {cs run rest : List Char} (h : unsigned? cs = some (run, rest)) :
    rest.length < cs.length := by
  simp only [unsigned?, Option.bind_eq_bind, Option.bind_eq_some_iff] at h
  obtain ⟨⟨whole, cs₁⟩, hwhole, ⟨fraction, cs₂⟩, hfraction, ⟨exponent, cs₃⟩, hexponent, h⟩ := h
  cases h
  have h₁ : cs₁.length < cs.length := wholeDigits?_length hwhole
  have h₂ : cs₂.length ≤ cs₁.length := fractionDigits?_length hfraction
  have h₃ : cs₃.length ≤ cs₂.length := exponentDigits?_length hexponent
  change cs₃.length < cs.length
  omega

theorem number?_length {cs run rest : List Char} (h : number? cs = some (run, rest)) :
    rest.length < cs.length := by
  unfold number? at h
  split at h
  · obtain ⟨⟨digits, tail⟩, hdigits, h⟩ := Option.map_eq_some_iff.mp h
    cases h
    have := unsigned?_length hdigits
    simp only [List.length_cons]
    omega
  · exact unsigned?_length h

theorem rest?_length {start cs rest : List Char} (hstart : start ≠ [])
    (h : Text.rest? start cs = some rest) : rest.length < cs.length := by
  have hpos : 0 < start.length := List.length_pos_iff.mpr hstart
  rw [Text.rest?_eq_some_iff.mp h, List.length_append]
  omega

theorem word?_length {cs rest : List Char} {token : Token} (h : word? cs = some (token, rest)) :
    rest.length < cs.length := by
  unfold word? at h
  split at h
  · next hnull => cases h; exact rest?_length (by decide) hnull
  · split at h
    · next htrue => cases h; exact rest?_length (by decide) htrue
    · obtain ⟨tail, hfalse, h⟩ := Option.map_eq_some_iff.mp h
      cases h
      exact rest?_length (by decide) hfalse

/-- Every token takes at least one character. -/
theorem Token.next?_length {cs rest : List Char} {token : Token}
    (h : Token.next? cs = some (token, rest)) : rest.length < cs.length := by
  revert h
  fun_cases Token.next? cs <;> intro h
  case case1 => exact nomatch h
  case case8 cs _ _ _ _ _ _ =>
    obtain ⟨⟨es, tail⟩, hes, h⟩ := Option.map_eq_some_iff.mp h
    cases h
    exact Nat.lt_succ_of_lt (elements?_length hes)
  case case9 =>
    obtain ⟨⟨run, tail⟩, hrun, h⟩ := Option.map_eq_some_iff.mp h
    cases h
    exact number?_length hrun
  case case10 => exact word?_length h
  all_goals
    cases h
    exact Nat.lt_succ_self _

/-- The tokens of a text. -/
def Token.scan (cs : List Char) : Except Fault (List Token) :=
  match hspace : cs.dropWhile isSpace with
  | [] => .ok []
  | c :: rest =>
    match hnext : Token.next? (c :: rest) with
    | none => .error (.unreadable (String.ofList (c :: rest)))
    | some (token, after) =>
      have : after.length < cs.length := by
        have h₁ := Token.next?_length hnext
        have h₂ := Text.length_dropWhile_le isSpace cs
        rw [hspace] at h₂
        omega
      (Token.scan after).map (token :: ·)
termination_by cs.length

end CestWriter.Json
