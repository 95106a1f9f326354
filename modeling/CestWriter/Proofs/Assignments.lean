import CestWriter.Proofs.Interpolation

/-!
# Which variables a statement assigns

The variables that a statement of the generated code names and those that it assigns, read off its
text from left to right. A variable is assigned by an operator after it, where subscripts may stand
in between, and by an operator that counts it up or down, before or after it. Text in quotes is read
like any other text.

What a reader has met so far decides how it goes on, so the uses in two texts in a row are those in
the first and then those in the second, read from the place that the first leads to.
-/

namespace CestWriter.Assignments

open Interpolation (isNameChar isIdentifier)

/-- What a statement does with a variable. -/
inductive Use where
  /-- The variable occurs. -/
  | names (name : String)
  /-- The variable gets a value. -/
  | assigns (name : String)
deriving Repr, DecidableEq

/-- The variable that a use is about. -/
def Use.subject : Use → String
  | .names name => name
  | .assigns name => name

theorem Use.ne_of_subject_not_mem {u : Use} {names : List String} (hu : u.subject ∉ names) :
    ∀ name ∈ names, u ≠ .names name ∧ u ≠ .assigns name := by
  intro name hname
  constructor
  all_goals
    rintro rfl
    exact hu hname

/-- What is being read. The characters so far are in reverse. -/
inductive Token where
  | none
  /-- A name after its dollar sign. -/
  | name (chars : List Char)
  | operator (chars : List Char)
deriving Repr, DecidableEq

/-- Where a reader stands in a statement. -/
structure Place where
  token : Token := .none
  /-- The variable that an operator at this place applies to. -/
  last : Option String := none
  /-- The same for the places before the open brackets, innermost first. -/
  outer : List (Option String) := []
  /-- Whether an operator counts the next variable up or down. -/
  counted : Bool := false
deriving Repr, DecidableEq

/-- Whether operators are made of this character. -/
def isOperatorChar (c : Char) : Bool :=
  ['=', '+', '-', '*', '/', '.', '%', '&', '|', '^', '?', '<', '>'].contains c

/-- The operators that assign the variable before them, the plain equals sign apart. -/
def assigningOperators : List (List Char) :=
  [['+', '+'], ['-', '-'], ['+', '='], ['-', '='], ['*', '='], ['/', '='], ['.', '='], ['%', '='],
    ['&', '='], ['|', '='], ['^', '='], ['*', '*', '='], ['?', '?', '='], ['<', '<', '='],
    ['>', '>', '=']]

/-- Whether a run of operators assigns the variable before it. An equals sign does, unless it begins
a comparison or an arrow. -/
def assignsBefore : List Char → Bool
  | '=' :: '=' :: _ => false
  | '=' :: '>' :: _ => false
  | '=' :: _ => true
  | operator => assigningOperators.any (·.isPrefixOf operator)

/-- Whether a run of operators begins with one that counts up or down. -/
def beginsCounting : List Char → Bool
  | '+' :: '+' :: _ => true
  | '-' :: '-' :: _ => true
  | _ => false

/-- Whether a run of operators ends with one that counts the variable after it. An operator that
counts the variable before it is taken off first. -/
def countsAfter (last : Option String) (operator : List Char) : Bool :=
  let own := if last.isSome && beginsCounting operator then operator.drop 2 else operator
  beginsCounting own.reverse

namespace Place

/-- Whether a character belongs to what is being read. A name does not begin with a digit. -/
def continues (p : Place) (c : Char) : Bool :=
  match p.token with
  | .none => false
  | .name [] => isNameChar c && !c.isDigit
  | .name _ => isNameChar c
  | .operator _ => isOperatorChar c

/-- Adds a character to what is being read. -/
def push (p : Place) (c : Char) : Place :=
  match p.token with
  | .none => p
  | .name chars => { p with token := .name (c :: chars) }
  | .operator chars => { p with token := .operator (c :: chars) }

/-- Ends what is being read. -/
def close (p : Place) : Place × List Use :=
  match p.token with
  | .none => (p, [])
  | .name [] => ({ outer := p.outer }, [])
  | .name chars =>
    let name := String.ofList chars.reverse
    ({ last := some name, outer := p.outer },
      .names name :: if p.counted then [.assigns name] else [])
  | .operator chars =>
    ({ outer := p.outer, counted := countsAfter p.last chars.reverse },
      if assignsBefore chars.reverse then p.last.toList.map .assigns else [])

/-- Goes on with a character that begins something else. -/
def begin (p : Place) (c : Char) : Place :=
  if c = '$' then { p with token := .name [], last := none }
  else if isOperatorChar c then { p with token := .operator [c] }
  else if c = ' ' || c = '\t' || c = '\n' || c = '\r' then p
  else if c = '[' then { outer := p.last :: p.outer }
  else if c = ']' then { last := p.outer.head?.join, outer := p.outer.tail }
  else { outer := p.outer }

/-- Takes a character. -/
def next (p : Place) (c : Char) : Place × List Use :=
  if p.continues c then (p.push c, []) else (p.close.1.begin c, p.close.2)

/-- Takes a text. -/
def read (p : Place) : List Char → Place × List Use
  | [] => (p, [])
  | c :: cs => (((p.next c).1.read cs).1, (p.next c).2 ++ ((p.next c).1.read cs).2)

end Place

/-- What a statement does with variables, in the order of its text. -/
def uses (statement : String) : List Use :=
  let reading := Place.read {} statement.toList
  reading.2 ++ reading.1.close.2

example : uses "$times_1 = $i_0++;" =
    [.names "times_1", .assigns "times_1", .names "i_0", .assigns "i_0"] := by decide

example : uses "$rows[$i] = --$left == $right;" =
    [.names "rows", .names "i", .assigns "rows", .names "left", .assigns "left", .names "right"] := by
  decide

/-! ## Reading texts one after the other -/

namespace Place

/-- The place inside these brackets at which nothing is pending. -/
def fresh (outer : List (Option String)) : Place :=
  { outer := outer }

/-- The place at the end of a name that may go on. -/
def within (outer : List (Option String)) (name : String) : Place :=
  { token := .name name.toList.reverse, outer := outer }

/-- The place after a variable. -/
def past (outer : List (Option String)) (name : String) : Place :=
  { last := some name, outer := outer }

theorem read_append {p q r : Place} {a b : List Char} {met more : List Use}
    (ha : p.read a = (q, met)) (hb : q.read b = (r, more)) :
    p.read (a ++ b) = (r, met ++ more) := by
  induction a generalizing p met with
  | nil =>
    cases ha
    exact hb
  | cons c a ih =>
    obtain ⟨hplace, hmet⟩ := Prod.mk.inj ha
    have hrest := ih (Prod.ext hplace rfl)
    rw [List.cons_append, read, hrest, ← hmet, List.append_assoc]

theorem read_nameChars (outer : List (Option String)) (first : Char) (chars : List Char)
    {cs : List Char} (h : ∀ c ∈ cs, isNameChar c = true) :
    read { token := .name (first :: chars), outer := outer } cs =
      ({ token := .name (cs.reverse ++ first :: chars), outer := outer }, []) := by
  induction cs generalizing first chars with
  | nil => rfl
  | cons c cs ih =>
    have hnext : next { token := .name (first :: chars), outer := outer } c =
        ({ token := .name (c :: first :: chars), outer := outer }, []) :=
      if_pos (h c List.mem_cons_self)
    rw [read, hnext, ih c (first :: chars) fun d hd => h d (List.mem_cons_of_mem c hd)]
    simp

theorem read_name {name : String} (hname : isIdentifier name.toList = true)
    (outer : List (Option String)) :
    (fresh outer).read ('$' :: name.toList) = (within outer name, []) := by
  obtain ⟨first, chars, hchars, hfirst, hdigit, hrest⟩ :=
    Interpolation.exists_cons_of_isIdentifier hname
  have hbegin : (fresh outer).read ['$'] = ({ token := .name [], outer := outer }, []) := rfl
  have hnext : next { token := .name [], outer := outer } first =
      ({ token := .name [first], outer := outer }, []) :=
    if_pos (by simp [continues, hfirst, hdigit])
  have hone : read { token := .name [], outer := outer } [first] =
      ({ token := .name [first], outer := outer }, []) := by
    rw [read, hnext]
    rfl
  have hread := read_append (read_append hbegin hone) (read_nameChars outer first [] hrest)
  rw [within, hchars]
  simpa using hread

theorem exists_reverse_cons {name : String} (hname : isIdentifier name.toList = true) :
    ∃ last before, name.toList.reverse = last :: before := by
  obtain ⟨first, chars, hchars, -⟩ := Interpolation.exists_cons_of_isIdentifier hname
  refine List.exists_cons_of_ne_nil (List.reverse_ne_nil_iff.mpr ?_)
  rw [hchars]
  exact List.cons_ne_nil first chars

theorem close_within {name : String} (hname : isIdentifier name.toList = true)
    (outer : List (Option String)) :
    (within outer name).close = (past outer name, [.names name]) := by
  obtain ⟨last, before, hreverse⟩ := exists_reverse_cons hname
  have hback : String.ofList (last :: before).reverse = name := by
    rw [← hreverse, List.reverse_reverse, String.ofList_toList]
  rw [within, hreverse, past, ← hback]
  rfl

/-- A variable is met when its name ends. -/
theorem read_variable {name : String} (hname : isIdentifier name.toList = true)
    {outer : List (Option String)} {c : Char} (hc : isNameChar c = false) {cs : List Char}
    {q : Place} {met : List Use} (h : (past outer name).read (c :: cs) = (q, met)) :
    (fresh outer).read ('$' :: name.toList ++ c :: cs) = (q, .names name :: met) := by
  have hends : (within outer name).continues c = false := by
    obtain ⟨last, before, hreverse⟩ := exists_reverse_cons hname
    rw [within, hreverse]
    exact hc
  have hnext : (within outer name).next c = ((past outer name).begin c, [.names name]) := by
    rw [next, hends, close_within hname]
    rfl
  have hpast : (past outer name).next c = ((past outer name).begin c, []) := rfl
  refine read_append (read_name hname outer) ?_
  rw [read, hpast] at h
  obtain ⟨hplace, hmet⟩ := Prod.mk.inj h
  rw [read, hnext, hplace, ← hmet]
  rfl

theorem close_outer (p : Place) : p.close.1.outer = p.outer := by
  obtain ⟨token, last, outer, counted⟩ := p
  cases token with
  | none => rfl
  | name chars => cases chars <;> rfl
  | operator chars => rfl

theorem close_token (p : Place) : p.close.1.token = .none := by
  obtain ⟨token, last, outer, counted⟩ := p
  cases token with
  | none => rfl
  | name chars => cases chars <;> rfl
  | operator chars => rfl

/-- What is pending ends at a character of neither names nor operators. -/
theorem next_of_separator (p : Place) {c : Char} (hname : isNameChar c = false)
    (hoperator : isOperatorChar c = false) : p.next c = (p.close.1.begin c, p.close.2) := by
  obtain ⟨token, last, outer, counted⟩ := p
  refine if_neg ?_
  cases token with
  | none => exact Bool.false_ne_true
  | name chars => cases chars <;> simp [continues, hname]
  | operator chars => simp [continues, hoperator]

theorem read_semicolon (p : Place) : p.read [';'] = (fresh p.outer, p.close.2) := by
  rw [read, next_of_separator p (by decide) (by decide), read, List.append_nil, ← close_outer]
  rfl

/-- After an equals sign between blanks nothing is pending. -/
theorem read_equals (p : Place) : ∃ met, p.read [' ', '=', ' '] = (fresh p.outer, met) := by
  have hblank : p.next ' ' = (p.close.1, p.close.2) :=
    next_of_separator p (by decide) (by decide)
  refine ⟨_, Prod.ext ?_ rfl⟩
  rw [read, hblank, ← close_outer]
  have htoken := close_token p
  generalize p.close.1 = q at htoken ⊢
  obtain ⟨token, last, outer, counted⟩ := q
  subst htoken
  cases last <;> rfl

theorem read_semicolon_blank (p : Place) : p.read [';', ' '] = (fresh p.outer, p.close.2) := by
  have hblank : (fresh p.outer).read [' '] = (fresh p.outer, []) := rfl
  have hread := read_append (read_semicolon p) hblank
  rwa [List.append_nil] at hread

theorem isOperatorChar_of_isNameChar {c : Char} (h : isNameChar c = true) :
    isOperatorChar c = false := by
  rw [Bool.eq_false_iff]
  intro hoperator
  simp only [isOperatorChar, List.contains_eq_mem, decide_eq_true_eq, List.mem_cons,
    List.not_mem_nil, or_false] at hoperator
  rcases hoperator with rfl | rfl | rfl | rfl | rfl | rfl | rfl | rfl | rfl | rfl | rfl | rfl | rfl
  all_goals exact absurd h (by decide)

theorem begin_of_isNameChar (p : Place) {c : Char} (h : isNameChar c = true) :
    p.begin c = fresh p.outer := by
  have hne : ∀ d : Char, isNameChar d = false → c ≠ d := by
    rintro d hd rfl
    exact absurd h (by rw [hd]; exact Bool.false_ne_true)
  simp [begin, isOperatorChar_of_isNameChar h, hne, fresh, show isNameChar '$' = false by decide,
    show isNameChar ' ' = false by decide, show isNameChar '\t' = false by decide,
    show isNameChar '\n' = false by decide, show isNameChar '\r' = false by decide,
    show isNameChar '[' = false by decide, show isNameChar ']' = false by decide]

/-- A word that is not the name of a variable is passed over. -/
theorem read_word (outer : List (Option String)) {cs : List Char}
    (h : ∀ c ∈ cs, isNameChar c = true) : (fresh outer).read cs = (fresh outer, []) := by
  induction cs with
  | nil => rfl
  | cons c cs ih =>
    have hnext : (fresh outer).next c = (fresh outer, []) :=
      Prod.ext (begin_of_isNameChar _ (h c List.mem_cons_self)) rfl
    rw [read, hnext, ih fun d hd => h d (List.mem_cons_of_mem c hd)]
    rfl

/-- The name of a method after its arrow is passed over, and what stands before is not assigned. -/
theorem read_method (outer : List (Option String)) (name : String) {c : Char} {cs : List Char}
    (h : ∀ d ∈ c :: cs, isNameChar d = true) :
    (past outer name).read ('-' :: '>' :: c :: cs) = (fresh outer, []) := by
  have harrow : (past outer name).read ['-', '>'] =
      ({ token := .operator ['>', '-'], last := some name, outer := outer }, []) := rfl
  have hnext : next { token := .operator ['>', '-'], last := some name, outer := outer } c =
      (fresh outer, []) := by
    rw [next, if_neg (by simp [continues, isOperatorChar_of_isNameChar (h c List.mem_cons_self)])]
    exact Prod.ext (begin_of_isNameChar _ (h c List.mem_cons_self)) rfl
  have hfirst : read { token := .operator ['>', '-'], last := some name, outer := outer } [c] =
      (fresh outer, []) := by
    rw [read, hnext]
    rfl
  exact read_append (read_append harrow hfirst)
    (read_word outer fun d hd => h d (List.mem_cons_of_mem c hd))

/-- Nothing before this place can be assigned here, and no variable is being read. -/
structure Idle (p : Place) : Prop where
  token_ne : ∀ chars, p.token ≠ .name chars
  last_eq : p.last = none
  outer_eq : ∀ o ∈ p.outer, o = none

theorem Idle.close_eq {p : Place} (h : p.Idle) : p.close.2 = [] := by
  obtain ⟨token, last, outer, counted⟩ := p
  obtain rfl := h.last_eq
  cases token with
  | none => rfl
  | name chars => exact absurd rfl (h.token_ne chars)
  | operator chars => simp [close]

theorem Idle.close {p : Place} (h : p.Idle) : p.close.1.Idle := by
  refine ⟨fun chars => ?_, ?_, close_outer p ▸ h.outer_eq⟩
  · rw [close_token]
    exact Token.noConfusion
  · obtain ⟨token, last, outer, counted⟩ := p
    cases token with
    | none => exact h.last_eq
    | name chars => exact absurd rfl (h.token_ne chars)
    | operator chars => rfl

theorem Idle.begin {p : Place} (h : p.Idle) {c : Char} (hc : c ≠ '$') : (p.begin c).Idle := by
  rw [Place.begin, if_neg hc]
  split
  · exact ⟨fun _ => Token.noConfusion, h.last_eq, h.outer_eq⟩
  split
  · exact h
  split
  · refine ⟨fun _ => Token.noConfusion, rfl, ?_⟩
    exact List.forall_mem_cons.mpr ⟨h.last_eq, h.outer_eq⟩
  split
  · refine ⟨fun _ => Token.noConfusion, ?_, fun o ho => h.outer_eq o (List.mem_of_mem_tail ho)⟩
    cases houter : p.outer with
    | nil => simp
    | cons o outer => simp [h.outer_eq o (by rw [houter]; exact List.mem_cons_self)]
  · exact ⟨fun _ => Token.noConfusion, rfl, h.outer_eq⟩

theorem Idle.push {p : Place} (h : p.Idle) (c : Char) : (p.push c).Idle := by
  obtain ⟨token, last, outer, counted⟩ := p
  cases token with
  | none => exact h
  | name chars => exact absurd rfl (h.token_ne chars)
  | operator chars => exact ⟨fun _ => Token.noConfusion, h.last_eq, h.outer_eq⟩

theorem Idle.next {p : Place} (h : p.Idle) {c : Char} (hc : c ≠ '$') :
    (p.next c).1.Idle ∧ (p.next c).2 = [] := by
  rw [Place.next]
  split
  · exact ⟨h.push c, rfl⟩
  · exact ⟨h.close.begin hc, h.close_eq⟩

/-- A text without dollar signs neither names nor assigns variables. -/
theorem Idle.read {p : Place} (h : p.Idle) {cs : List Char} (hcs : '$' ∉ cs) :
    (p.read cs).1.Idle ∧ (p.read cs).2 = [] := by
  induction cs generalizing p with
  | nil => exact ⟨h, rfl⟩
  | cons c cs ih =>
    rw [List.mem_cons, not_or] at hcs
    obtain ⟨hidle, hmet⟩ := h.next (Ne.symm hcs.1)
    obtain ⟨hrest, hmore⟩ := ih hidle hcs.2
    refine ⟨hrest, ?_⟩
    rw [Place.read, hmet, hmore]
    rfl

end Place

/-! ## The uses in statements -/

theorem uses_of_read {statement : String} {chars : List Char} {p : Place} {met : List Use}
    (htext : statement.toList = chars) (h : Place.read {} chars = (p, met)) :
    uses statement = met ++ p.close.2 := by
  rw [uses, htext, h]

theorem uses_of_not_mem {s : String} (h : '$' ∉ s.toList) : uses s = [] := by
  have hstart : Place.Idle {} := ⟨fun _ => Token.noConfusion, rfl, List.forall_mem_nil _⟩
  obtain ⟨hidle, hmet⟩ := hstart.read h
  rw [uses, hmet, hidle.close_eq]
  rfl

/-- An assignment to `target` of something that is read from a fresh place. -/
theorem uses_equals {target expr : String} {met : List Use}
    (hexpr : ∀ outer, (Place.fresh outer).read expr.toList = (Place.fresh outer, met)) :
    uses (target ++ " = " ++ expr) = uses (target ++ " = ") ++ met := by
  have htarget : Place.read {} target.toList = (_, _) := rfl
  obtain ⟨first, hequals⟩ := Place.read_equals (Place.read {} target.toList).1
  have hstart := Place.read_append htarget hequals
  have hread := Place.read_append hstart (hexpr _)
  rw [uses_of_read (by simp) hread, uses_of_read (by simp) hstart]
  simp [Place.fresh, Place.close]

section Statements

variable {name : String} (hname : isIdentifier name.toList = true)

include hname

theorem uses_variable : uses ("$" ++ name) = [.names name] := by
  rw [uses_of_read (by simp) (Place.read_name hname []), Place.close_within hname]
  rfl

theorem uses_target : uses ("$" ++ name ++ " = ") = [.names name, .assigns name] := by
  have hequals : (Place.past [] name).read [' ', '=', ' '] = (Place.fresh [], [.assigns name]) := rfl
  rw [uses_of_read (by simp) (Place.read_variable hname (by decide) hequals)]
  rfl

/-- An assignment assigns its variable; the rest are the uses in the expression. -/
theorem uses_assignment (expr : String) :
    uses ("$" ++ name ++ " = " ++ expr ++ ";") = .names name :: .assigns name :: uses expr := by
  have hexpr : Place.read {} expr.toList = (_, _) := rfl
  have hequals : (Place.past [] name).read [' ', '=', ' '] = (Place.fresh [], [.assigns name]) := rfl
  have hread := Place.read_variable hname (by decide) (Place.read_append hequals
    (Place.read_append hexpr (Place.read_semicolon _)))
  rw [uses_of_read (by simp) hread, uses_of_read rfl hexpr]
  simp [Place.fresh, Place.close]

/-- The head of a loop assigns the variable that it counts. -/
theorem uses_head (bound : String) :
    uses ("for ($" ++ name ++ " = 0; $" ++ name ++ " < " ++ bound ++ "; $" ++ name ++ "++) \x7b") =
      .names name :: .assigns name :: .names name :: uses bound ++
        [.names name, .assigns name] := by
  have hfor : (Place.fresh []).read ['f', 'o', 'r', ' ', '('] = (Place.fresh [], []) := rfl
  have hzero : (Place.past [] name).read [' ', '=', ' ', '0', ';', ' '] =
      (Place.fresh [], [.assigns name]) := rfl
  have hless : (Place.past [] name).read [' ', '<', ' '] = (Place.fresh [], []) := rfl
  have hbound : Place.read {} bound.toList = (_, _) := rfl
  have hstep : ∀ outer, (Place.past outer name).read ['+', '+', ')', ' ', '\x7b'] =
      (Place.fresh outer, [.assigns name]) := fun _ => rfl
  have hread := Place.read_append hfor (Place.read_variable hname (by decide)
    (Place.read_append hzero (Place.read_variable hname (by decide)
      (Place.read_append hless (Place.read_append hbound (Place.read_append
        (Place.read_semicolon_blank _) (Place.read_variable hname (by decide) (hstep _))))))))
  rw [uses_of_read (by simp) hread, uses_of_read rfl hbound]
  simp [Place.fresh, Place.close]

/-- The number of elements of a collection. -/
theorem uses_count : uses ("count($" ++ name ++ ")") = [.names name] := by
  have hcount : (Place.fresh []).read ['c', 'o', 'u', 'n', 't', '('] = (Place.fresh [], []) := rfl
  have hclose : (Place.past [] name).read [')'] = (Place.fresh [], []) := rfl
  have hread := Place.read_append hcount (Place.read_variable hname (by decide) hclose)
  rw [uses_of_read (by simp) hread]
  rfl

/-- What is assigned an element of a collection. -/
theorem uses_element {index : String} (hindex : isIdentifier index.toList = true)
    (target : String) :
    uses (target ++ " = $" ++ name ++ "[$" ++ index ++ "];") =
      uses (target ++ " = ") ++ [.names name, .names index] := by
  have hread : ∀ outer, (Place.fresh outer).read ("$" ++ name ++ "[$" ++ index ++ "];").toList =
      (Place.fresh outer, [.names name, .names index]) := by
    intro outer
    have hopen : (Place.past outer name).read ['['] = (Place.fresh (some name :: outer), []) := rfl
    have hclose : (Place.past (some name :: outer) index).read [']', ';'] =
        (Place.fresh outer, []) := rfl
    have hall := Place.read_variable hname (by decide) (Place.read_append hopen
      (Place.read_variable hindex (by decide) hclose))
    simpa using hall
  have htext : target ++ " = $" ++ name ++ "[$" ++ index ++ "];" =
      target ++ " = " ++ ("$" ++ name ++ "[$" ++ index ++ "];") :=
    String.toList_injective (by simp)
  rw [htext, uses_equals hread]

/-- A variable as an argument that others follow. -/
theorem read_argument {outer : List (Option String)} {rest : List Char} {q : Place}
    {met : List Use} (h : (Place.fresh outer).read rest = (q, met)) :
    (Place.fresh outer).read ('$' :: name.toList ++ ',' :: ' ' :: rest) =
      (q, .names name :: met) := by
  have hcomma : (Place.past outer name).read [',', ' '] = (Place.fresh outer, []) := rfl
  exact Place.read_variable hname (by decide) (Place.read_append hcomma h)

/-- A call of a method of a variable. -/
theorem read_call {outer : List (Option String)} {c : Char} {cs rest : List Char}
    (hmethod : ∀ d ∈ c :: cs, Interpolation.isNameChar d = true) {q : Place} {met : List Use}
    (h : (Place.fresh outer).read rest = (q, met)) :
    (Place.fresh outer).read ('$' :: name.toList ++ '-' :: '>' :: c :: (cs ++ '(' :: rest)) =
      (q, .names name :: met) := by
  have hopen : (Place.fresh outer).read ['('] = (Place.fresh outer, []) := rfl
  have hcall := Place.read_append (Place.read_method outer name hmethod) (Place.read_append hopen h)
  exact Place.read_variable hname (by decide) hcall

end Statements

/-- What is assigned the handle of a new window. -/
theorem uses_await (target : String) {timeout : String}
    (h : ∀ c ∈ timeout.toList, isNameChar c = true) :
    uses (target ++ " = $this->waitForWindow($I, $windowHandles, " ++ timeout ++ ");") =
      uses (target ++ " = ") ++ [.names "this", .names "I", .names "windowHandles"] := by
  have hread : ∀ outer, (Place.fresh outer).read
      ("$this->waitForWindow($I, $windowHandles, " ++ timeout ++ ");").toList =
      (Place.fresh outer, [.names "this", .names "I", .names "windowHandles"]) := by
    intro outer
    have hclose : (Place.fresh outer).read [')', ';'] = (Place.fresh outer, []) := rfl
    have harguments := read_argument (show isIdentifier "I".toList = true by decide)
      (read_argument (show isIdentifier "windowHandles".toList = true by decide)
        (Place.read_append (Place.read_word outer h) hclose))
    have hmethod : ∀ d ∈ 'w' :: "aitForWindow".toList, isNameChar d = true :=
      List.all_eq_true.mp (by decide)
    have hall := read_call (show isIdentifier "this".toList = true by decide) hmethod harguments
    simpa using hall
  have htext : target ++ " = $this->waitForWindow($I, $windowHandles, " ++ timeout ++ ");" =
      target ++ " = " ++ ("$this->waitForWindow($I, $windowHandles, " ++ timeout ++ ");") :=
    String.toList_injective (by simp)
  rw [htext, uses_equals hread]

end CestWriter.Assignments
