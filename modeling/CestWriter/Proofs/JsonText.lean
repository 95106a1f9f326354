import CestWriter.Json.Value

/-!
# Written JSON text is scanned back

Each token that a writer puts into a text is found there again, whatever follows it. Only a number
needs to know what follows: it must not be something that would make it longer. A string literal is
read character by character: what is written for one character is read back as that character in
front of what is read from the rest.
-/

namespace CestWriter.Json

/-! ## One token at the beginning of a text -/

/-- A text that begins with a token, and not with a space, is scanned token by token. -/
theorem scan_of_next? {c : Char} {cs after : List Char} {token : Token}
    (hspace : isSpace c = false) (hnext : Token.next? (c :: cs) = some (token, after)) :
    Token.scan (c :: cs) = (Token.scan after).map (token :: ·) := by
  have hdrop : (c :: cs).dropWhile isSpace = c :: cs :=
    List.dropWhile_cons_of_neg (by simp [hspace])
  fun_cases Token.scan (c :: cs) with
  | case1 hnil =>
    rw [hdrop] at hnil
    cases hnil
  | case2 c' cs' hcons hnone =>
    rw [hdrop] at hcons
    cases hcons
    rw [hnext] at hnone
    cases hnone
  | case3 c' cs' hcons token' after' hnext' =>
    rw [hdrop] at hcons
    cases hcons
    rw [hnext] at hnext'
    cases hnext'
    rfl

theorem scan_nil : Token.scan [] = .ok [] := by
  rw [Token.scan]
  rfl

/-- The tokens that are one character. -/
def marks : List (Char × Token) :=
  [('\x7b', .beginObject), ('\x7d', .endObject), ('[', .beginArray), (']', .endArray),
    (':', .colon), (',', .comma)]

theorem scan_mark {c : Char} {token : Token} (h : (c, token) ∈ marks) (cs : List Char) :
    Token.scan (c :: cs) = (Token.scan cs).map (token :: ·) := by
  simp only [marks, List.mem_cons, Prod.mk.injEq, List.not_mem_nil, or_false] at h
  rcases h with ⟨rfl, rfl⟩ | ⟨rfl, rfl⟩ | ⟨rfl, rfl⟩ | ⟨rfl, rfl⟩ | ⟨rfl, rfl⟩ | ⟨rfl, rfl⟩
  all_goals exact scan_of_next? (by decide) rfl

/-- The tokens that are words. -/
def words : List (String × Token) :=
  [("null", .null), ("true", .bool true), ("false", .bool false)]

theorem scan_word {word : String} {token : Token} (h : (word, token) ∈ words) (cs : List Char) :
    Token.scan (word.toList ++ cs) = (Token.scan cs).map (token :: ·) := by
  simp only [words, List.mem_cons, Prod.mk.injEq, List.not_mem_nil, or_false] at h
  rcases h with ⟨rfl, rfl⟩ | ⟨rfl, rfl⟩ | ⟨rfl, rfl⟩
  all_goals exact scan_of_next? (by decide) rfl

/-! ## String literals -/

/-- A code below the surrogates is a character of its own. -/
theorem text?_code {n : Nat} (hn : n < 0xD800) (es : List Element) :
    text? (.code n :: es) = (text? es).map (Char.ofNat n :: ·) := by
  cases es with
  | nil => simp [text?, hn]
  | cons e es => cases e <;> simp [text?, hn]

theorem hexDigit?_hexChar : ∀ d < 16, Text.hexDigit? (Value.hexChar d) = some d := by
  decide

theorem hexValue?_control {n : Nat} (hn : n < 32) :
    Text.hexValue? ['0', '0', Value.hexChar (n / 16), Value.hexChar (n % 16)] = some n := by
  have hhigh := hexDigit?_hexChar (n / 16) (by omega)
  have hlow := hexDigit?_hexChar (n % 16) (by omega)
  have hzero : Text.hexDigit? '0' = some 0 := by decide
  have hsum : 16 * (n / 16) + n % 16 = n := Nat.div_add_mod n 16
  simp [Text.hexValue?, hzero, hhigh, hlow, hsum]

theorem elements?_plain {c : Char} (hquote : c ≠ '"') (hbackslash : c ≠ '\\')
    (hcontrol : ¬ c.toNat < 32) (cs : List Char) :
    elements? (c :: cs) = (elements? cs).map fun r => (.char c :: r.1, r.2) := by
  rw [elements?, if_neg (by simp [hcontrol, hbackslash])]
  · cases elements? cs <;> rfl
  · exact hquote
  · exact fun _ _ _ _ _ h => absurd h hbackslash
  · exact fun _ _ h => absurd h hbackslash

theorem elements?_escape {c d : Char} (h : escaped? c = some d) (cs : List Char) :
    elements? ('\\' :: c :: cs) = (elements? cs).map fun r => (.char d :: r.1, r.2) := by
  have hne : c ≠ 'u' := by
    rintro rfl
    cases h
  rw [elements?, h]
  · cases elements? cs <;> rfl
  · exact fun _ _ _ _ _ h => absurd h hne

theorem elements?_code {a b c d : Char} {n : Nat} (h : Text.hexValue? [a, b, c, d] = some n)
    (cs : List Char) :
    elements? ('\\' :: 'u' :: a :: b :: c :: d :: cs) =
      (elements? cs).map fun r => (.code n :: r.1, r.2) := by
  rw [elements?, h]
  cases elements? cs <;> rfl

/-- A character is written as an escape that denotes it, by its code, or as it is. -/
theorem writeChar_cases (c : Char) :
    (∃ d, Value.writeChar c = ['\\', d] ∧ escaped? d = some c) ∨
    (c.toNat < 32 ∧ Value.writeChar c =
      ['\\', 'u', '0', '0', Value.hexChar (c.toNat / 16), Value.hexChar (c.toNat % 16)]) ∨
    (c ≠ '"' ∧ c ≠ '\\' ∧ ¬ c.toNat < 32 ∧ Value.writeChar c = [c]) := by
  fun_cases Value.writeChar c
  case case8 _ _ _ _ _ _ _ hcontrol => exact .inr (.inl ⟨hcontrol, rfl⟩)
  case case9 hquote hbackslash _ _ _ _ _ hcontrol =>
    exact .inr (.inr ⟨hquote, hbackslash, hcontrol, rfl⟩)
  all_goals
    subst_vars
    exact .inl ⟨_, rfl, rfl⟩

/-- What is written for a character is read back as one element, which denotes the character. -/
theorem elements?_writeChar (c : Char) (cs : List Char) :
    ∃ e : Element, elements? (Value.writeChar c ++ cs) =
        (elements? cs).map (fun r => (e :: r.1, r.2)) ∧
      ∀ es, text? (e :: es) = (text? es).map (c :: ·) := by
  rcases writeChar_cases c with ⟨d, hwrite, hd⟩ | ⟨hcontrol, hwrite⟩ |
    ⟨hquote, hbackslash, hcontrol, hwrite⟩
  · rw [hwrite]
    exact ⟨.char c, elements?_escape hd cs, fun _ => rfl⟩
  · rw [hwrite]
    refine ⟨.code c.toNat, elements?_code (hexValue?_control hcontrol) cs, fun es => ?_⟩
    rw [text?_code (by omega), Char.ofNat_toNat]
  · rw [hwrite]
    exact ⟨.char c, elements?_plain hquote hbackslash hcontrol cs, fun _ => rfl⟩

/-- The characters of a literal are read up to the quote that ends it. -/
theorem elements?_flatMap_writeChar (cs rest : List Char) :
    ∃ es, elements? (cs.flatMap Value.writeChar ++ '"' :: rest) = some (es, rest) ∧
      text? es = some cs := by
  induction cs with
  | nil => exact ⟨[], rfl, rfl⟩
  | cons c cs ih =>
    obtain ⟨es, hes, htext⟩ := ih
    obtain ⟨e, he, hchar⟩ := elements?_writeChar c (cs.flatMap Value.writeChar ++ '"' :: rest)
    refine ⟨e :: es, ?_, ?_⟩
    · rw [List.flatMap_cons, List.append_assoc, he, hes]
      rfl
    · rw [hchar, htext]
      rfl

theorem next?_quote {cs rest : List Char} {es : List Element}
    (h : elements? cs = some (es, rest)) :
    Token.next? ('"' :: cs) = some (.string ((text? es).map String.ofList), rest) := by
  change (elements? cs).map _ = _
  rw [h]
  rfl

/-- A string literal is read back, also one that denotes no text. -/
theorem scan_writeString (text : Option String) (cs : List Char) :
    Token.scan ((Value.writeString text).toList ++ cs) =
      (Token.scan cs).map (.string text :: ·) := by
  cases text with
  | none =>
    have hcode : Text.hexValue? ['d', '8', '0', '0'] = some 0xD800 := by decide
    have helements : elements? ('\\' :: 'u' :: 'd' :: '8' :: '0' :: '0' :: '"' :: cs) =
        some ([.code 0xD800], cs) := by
      rw [elements?_code hcode]
      rfl
    exact scan_of_next? (by decide) (next?_quote helements)
  | some s =>
    obtain ⟨es, hes, htext⟩ := elements?_flatMap_writeChar s.toList cs
    have hnext := next?_quote hes
    rw [htext, Option.map_some, String.ofList_toList] at hnext
    rw [← scan_of_next? (by decide) hnext]
    simp [Value.writeString]

/-! ## Whole numbers -/

/-- What may follow a number without making it longer. -/
def EndsNumber (cs : List Char) : Prop :=
  ∀ c ∈ cs.head?, c.isDigit = false ∧ c ≠ '.' ∧ c ≠ 'e' ∧ c ≠ 'E'

theorem digitChar_ne_zero : ∀ d < 10, d ≠ 0 → Nat.digitChar d ≠ '0' := by
  decide

/-- A number other than zero does not begin with zero. -/
theorem head_toDigits_ne_zero {n : Nat} (hn : n ≠ 0) :
    ∀ c ∈ (Nat.toDigits 10 n).head?, c ≠ '0' := by
  induction n using Nat.strongRecOn with
  | ind n ih =>
    by_cases hsmall : n < 10
    · rw [Nat.toDigits_of_lt_base hsmall]
      intro c hc
      cases hc
      exact digitChar_ne_zero n hsmall hn
    · have hrest := ih (n / 10) (by omega) (by omega)
      rw [Nat.toDigits_of_base_le (by omega) (by omega)]
      cases hdigits : Nat.toDigits 10 (n / 10) with
      | nil => exact absurd hdigits Nat.toDigits_ne_nil
      | cons d ds =>
        rw [hdigits] at hrest
        exact hrest

theorem digits?_append {ds rest : List Char} (hne : ds ≠ []) (hall : ∀ c ∈ ds, c.isDigit = true)
    (hrest : EndsNumber rest) : digits? (ds ++ rest) = some (ds, rest) := by
  have hstop : ∀ c ∈ rest.head?, ¬ c.isDigit = true := by
    intro c hc
    simp [(hrest c hc).1]
  have htake : (ds ++ rest).takeWhile Char.isDigit = ds := by
    rw [List.takeWhile_append_of_pos hall]
    cases rest with
    | nil => simp
    | cons c cs => rw [List.takeWhile_cons_of_neg (hstop c rfl), List.append_nil]
  have hdrop : (ds ++ rest).dropWhile Char.isDigit = rest := by
    rw [List.dropWhile_append_of_pos hall]
    cases rest with
    | nil => rfl
    | cons c cs => exact List.dropWhile_cons_of_neg (hstop c rfl)
  rw [digits?, htake, hdrop, if_neg (by simpa using hne)]

theorem isDigit_of_mem_toDigits {n : Nat} : ∀ c ∈ Nat.toDigits 10 n, c.isDigit = true :=
  fun _ => Nat.isDigit_of_mem_toDigits (by decide) (by decide)

theorem wholeDigits?_toDigits (n : Nat) {rest : List Char} (hrest : EndsNumber rest) :
    wholeDigits? (Nat.toDigits 10 n ++ rest) = some (Nat.toDigits 10 n, rest) := by
  by_cases hn : n = 0
  · subst hn
    rfl
  · have hread := digits?_append Nat.toDigits_ne_nil (isDigit_of_mem_toDigits (n := n)) hrest
    have hhead := head_toDigits_ne_zero hn
    cases hdigits : Nat.toDigits 10 n with
    | nil => exact absurd hdigits Nat.toDigits_ne_nil
    | cons d ds =>
      rw [hdigits] at hread hhead
      rw [List.cons_append] at hread ⊢
      rw [wholeDigits?, hread]
      exact fun _ heq => hhead d rfl (List.cons.inj heq).1

theorem fractionDigits?_of_ends {rest : List Char} (h : EndsNumber rest) :
    fractionDigits? rest = some ([], rest) := by
  cases rest with
  | nil => rfl
  | cons c cs =>
    rw [fractionDigits?]
    exact fun _ heq => (h c rfl).2.1 (List.cons.inj heq).1

theorem exponentDigits?_of_ends {rest : List Char} (h : EndsNumber rest) :
    exponentDigits? rest = some ([], rest) := by
  cases rest with
  | nil => rfl
  | cons c cs =>
    obtain ⟨-, -, hsmall, hlarge⟩ := h c rfl
    have hletter : ¬ (c = 'e' || c = 'E') = true := by simp [hsmall, hlarge]
    unfold exponentDigits?
    exact if_neg hletter

theorem unsigned?_toDigits (n : Nat) {rest : List Char} (hrest : EndsNumber rest) :
    unsigned? (Nat.toDigits 10 n ++ rest) = some (Nat.toDigits 10 n, rest) := by
  simp [unsigned?, wholeDigits?_toDigits n hrest, fractionDigits?_of_ends hrest,
    exponentDigits?_of_ends hrest]

/-- A token that begins with a digit is a number. -/
theorem next?_digit {c : Char} (hc : c.isDigit = true) (cs : List Char) :
    Token.next? (c :: cs) =
      (unsigned? (c :: cs)).map fun r => (.number (String.ofList r.1), r.2) := by
  have hne : ∀ d : Char, d.isDigit = false → c ≠ d := by
    rintro d hd rfl
    rw [hc] at hd
    cases hd
  have hnumber : number? (c :: cs) = unsigned? (c :: cs) := by
    rw [number?]
    exact fun _ heq => hne '-' rfl (List.cons.inj heq).1
  rw [Token.next?, if_neg (hne '\x7b' rfl), if_neg (hne '\x7d' rfl), if_neg (hne '[' rfl),
    if_neg (hne ']' rfl), if_neg (hne ':' rfl), if_neg (hne ',' rfl), if_neg (hne '"' rfl),
    if_pos (by simp [hc]), hnumber]

theorem isSpace_of_isDigit {c : Char} (hc : c.isDigit = true) : isSpace c = false := by
  rw [Bool.eq_false_iff]
  intro hspace
  simp only [isSpace, Bool.or_eq_true, beq_iff_eq] at hspace
  rcases hspace with ((rfl | rfl) | rfl) | rfl
  all_goals cases hc

/-- A whole number is read back if what follows cannot belong to it. -/
theorem scan_repr (n : Nat) {cs : List Char} (hcs : EndsNumber cs) :
    Token.scan (n.repr.toList ++ cs) = (Token.scan cs).map (.number n.repr :: ·) := by
  have hread := unsigned?_toDigits n hcs
  rw [Nat.repr_eq_ofList_toDigits, String.toList_ofList]
  cases hdigits : Nat.toDigits 10 n with
  | nil => exact absurd hdigits Nat.toDigits_ne_nil
  | cons d ds =>
    have hd : d.isDigit = true := isDigit_of_mem_toDigits (n := n) d (by simp [hdigits])
    rw [hdigits] at hread
    rw [List.cons_append] at hread ⊢
    exact scan_of_next? (isSpace_of_isDigit hd) (by rw [next?_digit hd, hread]; rfl)

end CestWriter.Json
