import CestWriter.Proofs.Identifiers
import CestWriter.Proofs.YamlLines

/-!
# Mappings written line by line

How a document that is made of lines is split into tokens, and that it is the mapping of its
entries. Every entry takes the scanner three steps: its key, its colon and its value. At the colon
it turns out whether the key is short enough to be one; this is all that can go wrong.
-/

namespace CestWriter.Yaml

open Scanner (skip)

/-! ## Tokens -/

/-- The tokens of an entry. -/
def Entry.tokens (e : Entry) : List Token :=
  [.key, .scalar ⟨.plain, e.key.text⟩, .value, .scalar e.value.scalar]

/-- What begins the mapping, unless it has begun. -/
def opening (begun : Bool) : List Token :=
  if begun then [] else [.blockMapping]

/-- The tokens of entries and of the end of the text; the mapping begins with its first entry. -/
def Line.tokens : Bool → List Entry → List Token
  | false, [] => [.streamEnd]
  | true, [] => [.blockEnd, .streamEnd]
  | begun, e :: es => opening begun ++ e.tokens ++ tokens true es

/-! ## Steps of the scanner -/

theorem utf8ByteSize_ofList (cs : List Char) :
    (String.ofList cs).utf8ByteSize = cs.foldr (fun c n => c.utf8Size + n) 0 := by
  induction cs with
  | nil => rfl
  | cons c cs ih =>
    rw [String.ofList_cons, String.utf8ByteSize_append, String.utf8ByteSize_singleton, ih,
      List.foldr_cons]

namespace Scanner

theorem closeBlocks_eq_self {s : Scanner} {stays : Nat → Bool}
    (h : ∀ column ∈ s.indents, stays column = true) : s.closeBlocks stays = s := by
  have hkept : s.indents.takeWhile (!stays ·) = [] ∧
      s.indents.dropWhile (!stays ·) = s.indents := by
    cases hindents : s.indents with
    | nil => exact ⟨rfl, rfl⟩
    | cons column rest => simp [h column (by rw [hindents]; exact List.mem_cons_self)]
  rw [closeBlocks, hkept.1, hkept.2]
  split <;> rfl

/-- The columns of the open collections: the mapping stands at the left. -/
def columns (begun : Bool) : List Nat :=
  if begun then [0] else []

/-- A step of the scanner ends no collection, since nothing stands further to the left. -/
theorem runUpTo_succ {s : Scanner} (begun : Bool) (hindents : s.indents = columns begun)
    {c : Char} {cs : List Char} (hrest : s.toToken.place.rest = c :: cs) (n : Nat) :
    runUpTo (n + 1) s = s.toToken.take c cs >>= runUpTo n := by
  have hclose : s.toToken.closeBlocks (· ≤ s.toToken.column) = s.toToken := by
    refine closeBlocks_eq_self fun column (hcolumn : column ∈ s.indents) => ?_
    have hzero : column = 0 := by
      cases begun <;> simp_all [columns]
    simp [hzero]
  rw [runUpTo]
  simp only [hrest, hclose]

theorem atMark_ne {mark c : Char} (h : c ≠ mark) (cs : List Char) :
    atMark mark (c :: cs) = false := by
  rcases cs with _ | ⟨a, _ | ⟨b, rest⟩⟩
  all_goals simp [atMark, h]

theorem take_word (s : Scanner) {c : Char} (hc : isWordChar c = true) (cs : List Char) :
    s.take c cs = s.plainScalar := by
  -- a word begins with none of the characters that begin other tokens
  have hbegins : beginsPlain s.inFlow (c :: cs) = true := by
    simp (disch := decide) [beginsPlain, isBlank_of_isWordChar hc, isBreak_of_isWordChar hc,
      isFlowMark, isWordChar_ne hc]
  have hdash := atMark_ne (isWordChar_ne hc (d := '-') (by decide)) cs
  have hdot := atMark_ne (isWordChar_ne hc (d := '.') (by decide)) cs
  simp (disch := decide) [take, hdash, hdot, hbegins, isWordChar_ne hc]

theorem take_colon (s : Scanner) (cs : List Char) : s.take ':' (' ' :: cs) = s.colon := by
  simp [take, atMark_ne, atBlank, isBlank]

theorem take_quote (s : Scanner) (cs : List Char) :
    s.take '"' cs = s.quotedScalar doubleQuoted := by
  simp [take, atMark_ne]

/-- The scanner stands between two lines of a mapping, or before it: no key has begun. -/
structure Between (s : Scanner) (lines : List Line) (begun : Bool) (tokens : List Token) :
    Prop where
  outer : s.outer = []
  key : s.key = none
  indents : s.indents = columns begun
  tokens : s.tokens = tokens
  handles : s.handles = []
  next : AtEntry lines (skip false s.keyAllowed false s.place.position s.place.rest)

/-- The scanner after a word that is a key. -/
def atColon (line : Nat) (begun : Bool) (tokens : List Token) (word : Word) (cs : List Char) :
    Scanner where
  place := ⟨⟨line, word.text.toList.length⟩, ':' :: ' ' :: cs⟩
  tokens := [.scalar ⟨.plain, word.text⟩]
  indents := columns begun
  key := some ⟨tokens, ⟨⟨line, 0⟩, word.text.toList ++ ':' :: ' ' :: cs⟩,
    (columns begun).head? == some 0⟩
  keyAllowed := false

/-- The scanner before a value. -/
def atValue (p : Position) (tokens : List Token) (cs : List Char) : Scanner where
  place := ⟨p, cs⟩
  tokens := tokens
  indents := columns true
  keyAllowed := false

section

variable {s : Scanner} {begun : Bool} {tokens : List Token}

theorem Between.toToken_eq {lines : List Line} (h : Between s lines begun tokens) :
    ∃ keyAllowed place, AtEntry lines (keyAllowed, place) ∧
      s.toToken = { place, tokens, indents := columns begun, keyAllowed } := by
  obtain ⟨place, tokens', indents, key, outer, keyAllowed, handles⟩ := s
  obtain ⟨rfl, rfl, rfl, rfl, rfl, hnext⟩ := h
  exact ⟨_, _, hnext, rfl⟩

theorem Between.of_blank {width : Nat} {ls : List Line}
    (h : Between s (.blank width :: ls) begun tokens) : Between s ls begun tokens := by
  refine ⟨h.outer, h.key, h.indents, h.tokens, h.handles, ?_⟩
  cases h.next with
  | blank hrest => exact hrest

theorem Between.of_comment {width : Nat} {t : Inline} {ls : List Line}
    (h : Between s (.comment width t :: ls) begun tokens) : Between s ls begun tokens := by
  refine ⟨h.outer, h.key, h.indents, h.tokens, h.handles, ?_⟩
  cases h.next with
  | comment hrest => exact hrest

end

theorem saveKey_fresh (place : Cursor) (tokens : List Token) (indents : List Nat) :
    saveKey { place, tokens, indents } =
      .ok { place, indents, key := some ⟨tokens, place,
        indents.head? == some place.position.column⟩ } :=
  rfl

theorem plainScalar_key (line : Nat) (begun : Bool) (tokens : List Token) (word : Word)
    (cs : List Char) :
    plainScalar
        { place := ⟨⟨line, 0⟩, word.text.toList ++ ':' :: ' ' :: cs⟩, tokens,
          indents := columns begun } =
      .ok (atColon line begun tokens word cs) := by
  rw [plainScalar, saveKey_fresh]
  change plain false _ .none ⟨line, 0⟩ (word.text.toList ++ ':' :: ' ' :: cs) >>= _ = _
  rw [plain_key _ _ word.chars, atColon, Position.right, Nat.zero_add]
  simp [bind, Except.bind, pure, Except.pure, addScalar]

/-- At its colon a key is known as one, unless it is too long. -/
theorem colon_atColon (line : Nat) (begun : Bool) (tokens : List Token) (word : Word)
    (cs : List Char) :
    colon (atColon line begun tokens word cs) =
      if word.Short then
        .ok (atValue ⟨line, word.text.toList.length + 1⟩
          (.value :: .scalar ⟨.plain, word.text⟩ :: .key :: (opening begun ++ tokens)) (' ' :: cs))
      else .error .misplaced := by
  have hbytes : ∀ required, KeyStart.mayEnd
      ⟨tokens, ⟨⟨line, 0⟩, word.text.toList ++ ':' :: ' ' :: cs⟩, required⟩
      ⟨line, word.text.toList.length⟩ = decide word.Short := by
    intro required
    have hsize := utf8ByteSize_ofList word.text.toList
    rw [String.ofList_toList] at hsize
    simp [KeyStart.mayEnd, KeyStart.bytesTo, Word.Short, hsize]
  simp only [colon, atColon, hbytes, decide_eq_true_eq]
  split
  · cases begun <;> rfl
  · rfl

theorem plainScalar_word (p : Position) (tokens : List Token) (word : Word) (lines : List Line) :
    ∃ s, plainScalar (atValue p tokens (word.text.toList ++ Line.following lines)) = .ok s ∧
      Between s lines true (.scalar ⟨.plain, word.text⟩ :: tokens) := by
  obtain ⟨crossed, after, hplain, hat⟩ :=
    plain_following lines .none (p.right word.text.toList.length)
  have hread : plain false 1 .none p (word.text.toList ++ Line.following lines) =
      .ok ⟨word.text.toList, crossed, after⟩ := by
    rw [plain_word _ _ word.chars, hplain]
    simp [Except.map, Reading.prepend]
  have hstep : plainScalar (atValue p tokens (word.text.toList ++ Line.following lines)) =
      plain false 1 .none p (word.text.toList ++ Line.following lines) >>= fun r =>
        pure { (atValue p tokens []).addScalar .plain r with keyAllowed := r.crossed } := rfl
  rw [hstep, hread]
  refine ⟨_, rfl, rfl, rfl, rfl, ?_, rfl, hat⟩
  simp [addScalar, atValue]

theorem quotedScalar_inline (p : Position) (tokens : List Token) (t : Inline) (lines : List Line) :
    ∃ s, quotedScalar
        (atValue p tokens ('"' :: escape t.text.toList ++ '"' :: Line.following lines))
        doubleQuoted = .ok s ∧
      Between s lines true (.scalar ⟨.quoted, t.text⟩ :: tokens) := by
  have hp : 0 < (p.right 1).column := Nat.succ_pos _
  obtain ⟨p', hread⟩ := doubleQuoted_escape t.inline [] hp (Line.following lines)
  have hstep : quotedScalar
      (atValue p tokens ('"' :: escape t.text.toList ++ '"' :: Line.following lines))
      doubleQuoted =
      doubleQuoted .none (p.right 1) (escape t.text.toList ++ '"' :: Line.following lines) >>=
        fun r => pure { (atValue p tokens []).addScalar .quoted r with keyAllowed := false } := rfl
  rw [hstep, Gap.none, hread]
  refine ⟨_, rfl, rfl, rfl, rfl, ?_, rfl, skip_following lines _ _ _⟩
  simp [addScalar, atValue]

theorem toToken_atValue (p : Position) (tokens : List Token) {c : Char}
    (hc : isWordChar c = true ∨ c = '"') (cs : List Char) :
    toToken (atValue p tokens (' ' :: c :: cs)) = atValue (p.right 1) tokens (c :: cs) := by
  have hskip : skip false false false (p.right 1) (c :: cs) = (false, ⟨p.right 1, c :: cs⟩) := by
    rcases hc with hc | rfl
    · exact skip_word _ _ hc _
    · simp [skip, isBreak]
  have hspace : skip false false false p (' ' :: c :: cs) = (false, ⟨p.right 1, c :: cs⟩) := by
    rw [← hskip]
    exact skip_spaces false p 1 (c :: cs)
  have hto : toToken (atValue p tokens (' ' :: c :: cs)) =
      { atValue p tokens [] with
        place := (skip false false false p (' ' :: c :: cs)).2
        keyAllowed := (skip false false false p (' ' :: c :: cs)).1 } := rfl
  rw [hto, hspace]
  rfl

/-- The scanner takes a value and goes on to the next line. -/
theorem runUpTo_value (p : Position) (tokens : List Token) (v : Value) (lines : List Line)
    (n : Nat) :
    ∃ s, runUpTo (n + 1) (atValue p tokens (' ' :: v.written ++ Line.following lines)) =
        runUpTo n s ∧ Between s lines true (.scalar v.scalar :: tokens) := by
  cases v with
  | plain w =>
    obtain ⟨c, cs, hc, hword⟩ := w.toList_eq_cons
    obtain ⟨s, hscalar, hbetween⟩ := plainScalar_word (p.right 1) tokens w lines
    have hto := toToken_atValue p tokens (.inl hc) (cs ++ Line.following lines)
    refine ⟨s, ?_, hbetween⟩
    rw [hword] at hscalar
    rw [Value.written, hword, List.cons_append, List.cons_append,
      runUpTo_succ true rfl (congrArg (·.place.rest) hto), hto, take_word _ hc]
    exact congrArg (· >>= runUpTo n) hscalar
  | quoted t =>
    obtain ⟨s, hscalar, hbetween⟩ := quotedScalar_inline (p.right 1) tokens t lines
    have hto := toToken_atValue p tokens (.inr rfl)
      (escape t.text.toList ++ '"' :: Line.following lines)
    refine ⟨s, ?_, hbetween⟩
    have hwritten : ' ' :: (Value.quoted t).written ++ Line.following lines =
        ' ' :: '"' :: (escape t.text.toList ++ '"' :: Line.following lines) := by
      simp [Value.written]
    rw [hwritten, runUpTo_succ true rfl (congrArg (·.place.rest) hto), hto, take_quote]
    exact congrArg (· >>= runUpTo n) hscalar

section

variable {s : Scanner} {begun : Bool} {tokens : List Token}

theorem runUpTo_key {e : Entry} {ls : List Line} (h : Between s (.entry e :: ls) begun tokens)
    (n : Nat) :
    ∃ line, runUpTo (n + 1) s =
      runUpTo n (atColon line begun tokens e.key (e.value.written ++ Line.following ls)) := by
  obtain ⟨keyAllowed, place, hat, hto⟩ := h.toToken_eq
  obtain ⟨c, cs, hc, hkey⟩ := e.key.toList_eq_cons
  cases hat with
  | @entry line =>
    have hwritten : e.written ++ Line.following ls =
        e.key.text.toList ++ ':' :: ' ' :: (e.value.written ++ Line.following ls) := by
      simp [Entry.written]
    rw [hwritten] at hto
    have hrest : s.toToken.place.rest =
        c :: (cs ++ ':' :: ' ' :: (e.value.written ++ Line.following ls)) := by
      rw [hto, hkey]
      rfl
    refine ⟨line, ?_⟩
    rw [runUpTo_succ begun h.indents hrest, hto,
      take_word _ hc, plainScalar_key]
    rfl

/-- The scanner takes an entry in three steps, unless its key is too long. -/
theorem runUpTo_entry {e : Entry} {ls : List Line} (h : Between s (.entry e :: ls) begun tokens)
    (n : Nat) :
    (e.key.Short → ∃ s', runUpTo (n + 3) s = runUpTo n s' ∧
      Between s' ls true (e.tokens.reverse ++ (opening begun ++ tokens))) ∧
    (¬ e.key.Short → runUpTo (n + 3) s = .error .misplaced) := by
  obtain ⟨line, hkey⟩ := runUpTo_key h (n + 2)
  have hcolon : runUpTo (n + 2)
      (atColon line begun tokens e.key (e.value.written ++ Line.following ls)) =
      colon (atColon line begun tokens e.key (e.value.written ++ Line.following ls)) >>=
        runUpTo (n + 1) := by
    rw [← take_colon]
    exact runUpTo_succ begun rfl rfl (n + 1)
  rw [hkey, hcolon, colon_atColon]
  constructor
  · intro hshort
    rw [if_pos hshort]
    exact runUpTo_value _ _ e.value ls n
  · intro hlong
    rw [if_neg hlong]
    rfl

/-- At the end of the text the mapping ends too. -/
theorem runUpTo_end (h : Between s [] begun tokens) (n : Nat) :
    runUpTo (n + 1) s = .ok (tokens.reverse ++ Line.tokens begun []) := by
  obtain ⟨keyAllowed, place, hat, hto⟩ := h.toToken_eq
  cases hat with
  | @finished _ p =>
    have hfinish : runUpTo (n + 1) s =
        finish { place := ⟨p, []⟩, tokens, indents := columns begun, keyAllowed } := by
      rw [runUpTo]
      simp only [hto]
    have hended : finish { place := ⟨p, []⟩, tokens, indents := columns begun, keyAllowed } =
        .ok (Token.streamEnd :: ((columns begun).map (fun _ => .blockEnd) ++ tokens)).reverse := by
      cases begun <;> rfl
    rw [hfinish, hended]
    cases begun <;> simp [columns, Line.tokens]

end

/-- The scanner takes lines. The induction is on the lines; three steps must be left for each
entry. -/
theorem runUpTo_lines {lines : List Line} {s : Scanner} {begun : Bool} {tokens : List Token}
    (h : Between s lines begun tokens) {n : Nat} (hn : 3 * (Line.entries lines).length < n) :
    runUpTo n s =
      if ∀ e ∈ Line.entries lines, e.key.Short then
        .ok (tokens.reverse ++ Line.tokens begun (Line.entries lines))
      else .error .misplaced := by
  induction lines generalizing s begun tokens n with
  | nil =>
    obtain ⟨n, rfl⟩ := Nat.exists_eq_succ_of_ne_zero (Nat.ne_of_gt hn)
    rw [runUpTo_end h n, if_pos (by simp [Line.entries])]
    rfl
  | cons l ls ih =>
    cases l with
    | blank width => exact ih h.of_blank hn
    | comment width t => exact ih h.of_comment hn
    | entry e =>
      have hentries : Line.entries (.entry e :: ls) = e :: Line.entries ls := rfl
      rw [hentries, List.length_cons] at hn
      obtain ⟨n, rfl⟩ : ∃ m, n = m + 3 := ⟨n - 3, by omega⟩
      obtain ⟨hshort, hlong⟩ := runUpTo_entry h n
      rw [hentries]
      by_cases he : e.key.Short
      · obtain ⟨s', hstep, hbetween⟩ := hshort he
        have hopening : (opening begun).reverse = opening begun := by cases begun <;> rfl
        rw [hstep, ih hbetween (by omega)]
        simp [he, hopening, Line.tokens]
      · -- this key is refused before the others are reached
        rw [hlong he, if_neg (by simp [he])]

end Scanner

namespace Line

/-- An entry has more characters than the scanner takes steps. -/
theorem length_entries_cons (l : Line) {ls : List Line} {n : Nat}
    (hn : 3 * (entries ls).length ≤ n) : 3 * (entries (l :: ls)).length ≤ l.written.length + n := by
  cases l with
  | blank width => exact Nat.le_trans hn (Nat.le_add_left _ _)
  | comment width t => exact Nat.le_trans hn (Nat.le_add_left _ _)
  | entry e =>
    have hentries : entries (.entry e :: ls) = e :: entries ls := rfl
    have hkey := List.length_pos_iff.mpr e.key.nonempty
    simp only [hentries, written, Entry.written, List.length_append, List.length_cons]
    omega

theorem length_entries_le_following (lines : List Line) :
    3 * (entries lines).length ≤ (following lines).length := by
  induction lines with
  | nil => exact Nat.le_refl 0
  | cons l ls ih =>
    refine Nat.le_trans (length_entries_cons l ih) ?_
    rw [following_cons, List.length_cons, List.length_append]
    exact Nat.le_succ _

theorem length_entries_le_document (lines : List Line) :
    3 * (entries lines).length ≤ (document lines).toList.length := by
  cases lines with
  | nil => exact Nat.le_refl 0
  | cons l ls =>
    rw [toList_document_cons, List.length_append]
    exact length_entries_cons l (length_entries_le_following ls)

end Line

/-- The tokens of a document that is made of lines. -/
theorem Token.scan_document (lines : List Line) :
    Token.scan (Line.document lines).toList =
      if ∀ e ∈ Line.entries lines, e.key.Short then
        .ok (Line.tokens false (Line.entries lines))
      else .error .misplaced := by
  have hstart : Scanner.Between { place := ⟨{}, (Line.document lines).toList⟩ } lines false [] :=
    ⟨rfl, rfl, rfl, rfl, rfl, skip_document lines⟩
  have hlimit := Nat.lt_succ_of_le (Line.length_entries_le_document lines)
  exact Scanner.runUpTo_lines hstart hlimit

/-! ## The mapping -/

/-- The entry as a pair of nodes. -/
def Entry.nodes (e : Entry) : Node × Node :=
  (.scalar ⟨.plain, e.key.text⟩, .scalar e.value.scalar)

/-- The node of a document with these entries. -/
def Line.node : List Entry → Node
  | [] => .empty
  | e :: es => .mapping ((e :: es).map Entry.nodes)

/-- The builder takes the entries of a mapping that has begun one by one. -/
theorem foldlM_tokens (es : List Entry) (entries : List (Node × Node)) :
    (Line.tokens true es).foldlM Builder.step ⟨[], .entries entries []⟩ =
      .ok ⟨[], .finished (.mapping (entries.reverse ++ es.map Entry.nodes))⟩ := by
  induction es generalizing entries with
  | nil =>
    rw [List.map_nil, List.append_nil]
    rfl
  | cons e es ih =>
    have hentry : e.tokens.foldlM Builder.step ⟨[], .entries entries []⟩ =
        .ok ⟨[], .entries (e.nodes :: entries) []⟩ := rfl
    have htokens : Line.tokens true (e :: es) = e.tokens ++ Line.tokens true es := rfl
    rw [htokens, List.foldlM_append, hentry]
    refine (ih (e.nodes :: entries)).trans ?_
    simp

theorem Node.ofTokens_tokens (es : List Entry) :
    Node.ofTokens (Line.tokens false es) = .ok (Line.node es) := by
  cases es with
  | nil => rfl
  | cons e es =>
    have hbegin : (Line.tokens false (e :: es)).foldlM Builder.step {} =
        (Line.tokens true (e :: es)).foldlM Builder.step ⟨[], .entries [] []⟩ := rfl
    rw [Node.ofTokens, hbegin, foldlM_tokens]
    rfl

/-! ## Characters of a document -/

theorem isInline_of_isWordChar {c : Char} (h : isWordChar c = true) : isInline c = true := by
  simp only [isWordChar, Bool.or_eq_true, Bool.and_eq_true, beq_iff_eq] at h
  rcases h with (h | rfl) | h
  · have hbounds : 48 ≤ c.toNat ∧ c.toNat ≤ 122 := by
      rw [Char.isAlphanum, Bool.or_eq_true, Identifier.isAlpha_iff, Identifier.isUpper_iff,
        Identifier.isLower_iff, Char.isDigit, Bool.and_eq_true, decide_eq_true_eq,
        decide_eq_true_eq] at h
      simp only [UInt32.le_iff_toNat_le, ge_iff_le] at h
      have hA : 'A'.val.toNat = 65 := rfl
      have hZ : 'Z'.val.toNat = 90 := rfl
      have ha : 'a'.val.toNat = 97 := rfl
      have hz : 'z'.val.toNat = 122 := rfl
      have hzero : '0'.val.toNat = 48 := rfl
      have hnine : '9'.val.toNat = 57 := rfl
      change 48 ≤ c.val.toNat ∧ c.val.toNat ≤ 122
      omega
    have hne : ∀ d : Char, ¬ (48 ≤ d.toNat ∧ d.toNat ≤ 122) → c ≠ d := by
      rintro d hd rfl
      exact hd hbounds
    simp (disch := decide) [isInline, isAllowed, isBreak, hne]
    omega
  · decide
  · exact h.2

theorem isInline_of_mem_escape {text : List Char} (h : ∀ c ∈ text, isInline c = true) :
    ∀ c ∈ escape text, isInline c = true := by
  intro c hc
  obtain ⟨d, hd, hc⟩ := List.mem_flatMap.mp hc
  split at hc
  · rcases List.mem_cons.mp hc with rfl | hc
    · decide
    · rw [List.mem_singleton.mp hc]
      exact h d hd
  · rw [List.mem_singleton.mp hc]
    exact h d hd

theorem isInline_of_mem_value (v : Value) : ∀ c ∈ v.written, isInline c = true := by
  intro c hc
  cases v with
  | plain w => exact isInline_of_isWordChar (w.chars c hc)
  | quoted t =>
    rw [Value.written, List.mem_append, List.mem_cons, List.mem_singleton] at hc
    rcases hc with (rfl | hc) | rfl
    · decide
    · exact isInline_of_mem_escape t.inline c hc
    · decide

theorem isInline_of_mem_written (l : Line) : ∀ c ∈ l.written, isInline c = true := by
  intro c hc
  cases l with
  | blank width =>
    rw [List.eq_of_mem_replicate hc]
    decide
  | comment width t =>
    rw [Line.written, List.mem_append, List.mem_cons] at hc
    rcases hc with hc | rfl | hc
    · rw [List.eq_of_mem_replicate hc]
      decide
    · decide
    · exact t.inline c hc
  | entry e =>
    rw [Line.written, Entry.written, List.mem_append, List.mem_cons, List.mem_cons] at hc
    rcases hc with hc | rfl | rfl | hc
    · exact isInline_of_isWordChar (e.key.chars c hc)
    · decide
    · decide
    · exact isInline_of_mem_value e.value c hc

theorem mem_following {lines : List Line} {c : Char} (h : c ∈ Line.following lines) :
    c = '\n' ∨ isInline c = true := by
  obtain ⟨l, -, hc⟩ := List.mem_flatMap.mp h
  rcases List.mem_cons.mp hc with rfl | hc
  · exact .inl rfl
  · exact .inr (isInline_of_mem_written l c hc)

theorem mem_document {lines : List Line} {c : Char} (h : c ∈ (Line.document lines).toList) :
    c = '\n' ∨ isInline c = true := by
  cases lines with
  | nil => cases h
  | cons l ls =>
    rw [Line.toList_document_cons, List.mem_append] at h
    rcases h with h | h
    · exact .inr (isInline_of_mem_written l c h)
    · exact mem_following h

theorem unifyBreaks_eq_self {cs : List Char} (h : ∀ c ∈ cs, c ≠ '\r' ∧ c ≠ '\u0085') :
    unifyBreaks cs = cs := by
  induction cs with
  | nil => rfl
  | cons c cs ih =>
    have hc := h c List.mem_cons_self
    rw [unifyBreaks, ih fun d hd => h d (List.mem_cons_of_mem c hd), if_neg (by simp [hc])]
    exact fun _ hreturn _ => hc.1 hreturn

/-- A document that is made of lines is the mapping of its entries, unless one of the keys is too
long. -/
theorem parse_document (lines : List Line) :
    parse (Line.document lines) =
      if ∀ e ∈ Line.entries lines, e.key.Short then .ok (Line.node (Line.entries lines))
      else .error .misplaced := by
  have hallowed : (Line.document lines).toList.find? (!isAllowed ·) = none := by
    rw [List.find?_eq_none]
    intro c hc
    rcases mem_document hc with rfl | hinline
    · decide
    · simp only [isInline, Bool.and_eq_true] at hinline
      simp [hinline.1]
  have hunified : unifyBreaks (Line.document lines).toList = (Line.document lines).toList := by
    refine unifyBreaks_eq_self fun c hc => ?_
    rcases mem_document hc with rfl | hinline
    · decide
    · simp only [isInline, Bool.and_eq_true, Bool.not_eq_true', Bool.or_eq_false_iff,
        beq_eq_false_iff_ne] at hinline
      exact ⟨hinline.2.1.2, hinline.2.2⟩
  rw [parse, hallowed]
  simp only [hunified, Token.scan_document]
  split
  · exact Node.ofTokens_tokens _
  · rfl

end CestWriter.Yaml
