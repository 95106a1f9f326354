import CestWriter.Exporter
import CestWriter.Proofs.Identifiers
import Mathlib.Data.List.Infix

/-!
# Recorded names as identifiers

Writing the words of a name together takes a name apart at every character that is no ASCII letter
or digit, and changes nothing but the case of first letters. A name that is already one word with
the right first letter stays as it is, so naming twice is naming once.
-/

namespace CestWriter.Identifier

/-- The letters and digits of a text, whatever their case. -/
def letters (s : String) : List Char :=
  (s.toList.filter Char.isAlphanum).map Char.toLower

/-! ## Case -/

theorem toUpper_toUpper (c : Char) : c.toUpper.toUpper = c.toUpper := by
  rcases toUpper_eq_or_isUpper c with hsame | hupper
  · rw [hsame, hsame]
  · rw [isUpper_iff] at hupper
    unfold Char.toUpper at hupper ⊢
    grind

theorem toLower_toLower (c : Char) : c.toLower.toLower = c.toLower := by
  rcases toLower_eq_or_isLower c with hsame | hlower
  · rw [hsame, hsame]
  · rw [isLower_iff] at hlower
    unfold Char.toLower at hlower ⊢
    grind

@[simp] theorem toLower_toUpper (c : Char) : c.toUpper.toLower = c.toLower := by
  by_cases hlower : 'a'.val ≤ c.val ∧ c.val ≤ 'z'.val
  · have hval : c.toUpper.val = c.val + ('A'.val - 'a'.val) := by
      unfold Char.toUpper
      rw [dif_pos hlower]
    have hupper : 'A'.val ≤ c.toUpper.val ∧ c.toUpper.val ≤ 'Z'.val := by grind
    have hback : c.toUpper.toLower.val = c.toUpper.val + ('a'.val - 'A'.val) := by
      unfold Char.toLower
      rw [dif_pos hupper]
    have hsame : c.toLower = c := dif_neg (by grind)
    rw [hsame]
    exact Char.ext (by grind)
  · have hsame : c.toUpper = c := dif_neg hlower
    rw [hsame]

/-! ## Words -/

theorem joinWords_append (start : Bool) (before : List Char) {c : Char}
    (hc : c.isAlphanum = false) (after : List Char) :
    joinWords start (before ++ c :: after) = joinWords start before ++ joinWords true after := by
  induction before generalizing start with
  | nil => simp [joinWords, hc]
  | cons d before ih =>
    rw [List.cons_append, joinWords, joinWords]
    split
    · rw [ih, List.cons_append]
    · exact ih true

theorem joinWords_of_alphanum {cs : List Char} (h : ∀ c ∈ cs, c.isAlphanum = true) :
    joinWords false cs = cs := by
  induction cs with
  | nil => rfl
  | cons c cs ih =>
    rw [List.forall_mem_cons] at h
    rw [joinWords, if_pos h.1, ih h.2]
    rfl

theorem joinWords_cons_of_alphanum {c : Char} {cs : List Char}
    (h : ∀ d ∈ c :: cs, d.isAlphanum = true) : joinWords true (c :: cs) = c.toUpper :: cs := by
  rw [List.forall_mem_cons] at h
  rw [joinWords, if_pos h.1, joinWords_of_alphanum h.2]
  rfl

/-- The first word begins with a capital. -/
theorem toUpper_of_joinWords {cs rest : List Char} {c : Char} (h : joinWords true cs = c :: rest) :
    c.toUpper = c := by
  induction cs with
  | nil => cases h
  | cons d cs ih =>
    rw [joinWords] at h
    split at h
    · cases h
      exact toUpper_toUpper d
    · exact ih h

/-- Joining words drops what is no letter or digit, and changes only the case of letters. -/
theorem map_toLower_joinWords (start : Bool) (cs : List Char) :
    (joinWords start cs).map Char.toLower = (cs.filter Char.isAlphanum).map Char.toLower := by
  induction cs generalizing start with
  | nil => rfl
  | cons c cs ih =>
    rw [joinWords]
    split
    · next hc =>
      rw [List.filter_cons_of_pos hc, List.map_cons, List.map_cons, ih]
      cases start <;> simp
    · next hc => rw [List.filter_cons_of_neg hc, ih]

/-! ## Joined words -/

theorem toList_pascal (s : String) : (pascal s).toList = joinWords true s.toList :=
  String.toList_ofList

theorem isAlphanum_of_mem_pascal {s : String} {c : Char} (h : c ∈ (pascal s).toList) :
    c.isAlphanum = true := by
  rw [toList_pascal] at h
  exact isAlphanum_of_mem_joinWords h

/-- One word only gets a capital. -/
theorem pascal_word {c : Char} {cs : List Char} (h : ∀ d ∈ c :: cs, d.isAlphanum = true) :
    pascal (String.ofList (c :: cs)) = String.ofList (c.toUpper :: cs) := by
  rw [pascal, String.toList_ofList, joinWords_cons_of_alphanum h]

theorem pascal_append (a b : String) {c : Char} (hc : c.isAlphanum = false) :
    pascal (a ++ String.singleton c ++ b) = pascal a ++ pascal b := by
  apply String.toList_injective
  have hchars : (a ++ String.singleton c ++ b).toList = a.toList ++ c :: b.toList := by simp
  rw [toList_pascal, hchars, joinWords_append true _ hc, String.toList_append, toList_pascal,
    toList_pascal]

theorem pascal_pascal (s : String) : pascal (pascal s) = pascal s := by
  cases hjoined : joinWords true s.toList with
  | nil => rw [pascal, pascal, hjoined, String.toList_ofList, joinWords]
  | cons c rest =>
    have hword : ∀ d ∈ c :: rest, d.isAlphanum = true := by
      intro d hd
      rw [← hjoined] at hd
      exact isAlphanum_of_mem_joinWords hd
    have hpascal : pascal s = String.ofList (c :: rest) := by rw [pascal, hjoined]
    rw [hpascal, pascal_word hword, toUpper_of_joinWords hjoined]

theorem letters_pascal (s : String) : letters (pascal s) = letters s := by
  have hall : (joinWords true s.toList).filter Char.isAlphanum = joinWords true s.toList :=
    List.filter_eq_self.mpr fun _ => isAlphanum_of_mem_joinWords
  rw [letters, toList_pascal, hall, map_toLower_joinWords, letters]

/-- The first letter of a name in camel case is small, and all others are as they are with a capital
in front. -/
theorem camel_cases (s : String) :
    (pascal s = "" ∧ camel s = "") ∨
      ∃ c rest, (pascal s).toList = c :: rest ∧ (camel s).toList = c.toLower :: rest := by
  unfold camel
  split
  · next hjoined =>
    refine .inl ⟨?_, rfl⟩
    rw [pascal, hjoined]
  · next c rest hjoined =>
    exact .inr ⟨c, rest, by rw [toList_pascal, hjoined], String.toList_ofList⟩

theorem letters_camel (s : String) : letters (camel s) = letters s := by
  rw [← letters_pascal s]
  obtain ⟨hpascal, hcamel⟩ | ⟨c, rest, hpascal, hcamel⟩ := camel_cases s
  · rw [hpascal, hcamel]
  · have hc : c.isAlphanum = true := by
      apply isAlphanum_of_mem_pascal (s := s)
      rw [hpascal]
      exact List.mem_cons_self
    rw [letters, letters, hpascal, hcamel, List.filter_cons_of_pos hc,
      List.filter_cons_of_pos (isAlphanum_toLower hc), List.map_cons, List.map_cons,
      toLower_toLower]

/-- A word that does not begin with a capital is its own name in camel case. -/
theorem camel_eq_self {s : String} (hword : ∀ c ∈ s.toList, c.isAlphanum = true)
    (hhead : ∀ c ∈ s.toList.head?, c.toLower = c) : camel s = s := by
  apply String.toList_injective
  cases hchars : s.toList with
  | nil =>
    rw [camel, hchars, joinWords]
    rfl
  | cons c rest =>
    rw [hchars] at hword hhead
    rw [camel, hchars, joinWords_cons_of_alphanum hword]
    simp only [String.toList_ofList, toLower_toUpper]
    rw [hhead c rfl]

/-! ## Identifiers -/

theorem lettered_eq_self (start : String) {s : String} (h : IsIdentifier s) :
    lettered start s = s := by
  have hempty : s.isEmpty = false := by
    rw [← Bool.not_eq_true, String.isEmpty_iff]
    exact h.ne_empty
  have hdigit : startsWithDigit s = false := startsWithDigit_eq_false_iff.mpr h.head
  rw [lettered, hempty, hdigit]
  rfl

theorem letters_suffix_lettered (start base : String) :
    letters base <:+ letters (lettered start base) := by
  obtain heq | ⟨heq, -⟩ := lettered_cases start base
  · rw [heq, letters, letters, String.toList_append, List.filter_append, List.map_append]
    exact List.suffix_append _ _
  · rw [heq]

theorem isIdentifier_side : IsIdentifier "Side" :=
  isIdentifier_of_all (by decide) (by decide) (by decide)

theorem toLower_head_method {s : String} {c : Char} (h : c ∈ (method s).toList.head?) :
    c.toLower = c := by
  rw [method_eq_lettered] at h
  obtain heq | ⟨heq, hempty, -⟩ := lettered_cases "test" (camel s)
  · rw [heq, String.toList_append] at h
    cases h
    decide
  · rw [heq] at h
    obtain ⟨-, hcamel⟩ | ⟨d, rest, -, hcamel⟩ := camel_cases s
    · exact absurd hcamel hempty
    · rw [hcamel] at h
      cases h
      exact toLower_toLower d

theorem method_method (s : String) : method (method s) = method s := by
  have hname := isIdentifier_method s
  have hcamel := camel_eq_self hname.alphanum fun _ => toLower_head_method
  rw [method_eq_lettered (method s), hcamel, lettered_eq_self "test" hname]

/-- Recorded names become identifiers. The name of a method is an identifier and its own method
name. Writing words together cuts a name at every character that is no letter or digit and gives
every word a capital, and a name written so stays as it is. The name of a class is an identifier
with the suffix of the configuration behind it. All of them keep the letters and digits of the
name. -/
theorem recorded_names :
    (∀ s, IsIdentifier (method s) ∧ method (method s) = method s ∧
      letters s <:+ letters (method s)) ∧
    (∀ s, pascal (pascal s) = pascal s ∧ letters (pascal s) = letters s) ∧
    (∀ a b c, c.isAlphanum = false →
      pascal (a ++ String.singleton c ++ b) = pascal a ++ pascal b) ∧
    (∀ c cs, (∀ d ∈ c :: cs, d.isAlphanum = true) →
      pascal (String.ofList (c :: cs)) = String.ofList (c.toUpper :: cs)) ∧
    ∀ (x : Exporter) (s : String), ∃ base, x.className s = base ++ x.table.config.classSuffix ∧
      IsIdentifier base ∧ (∃ c rest, base.toList = c :: rest ∧ c.isAlpha = true) ∧
      letters s <:+ letters base := by
  refine ⟨fun s => ⟨isIdentifier_method s, method_method s, ?_⟩,
    fun s => ⟨pascal_pascal s, letters_pascal s⟩, fun a b _ => pascal_append a b,
    fun _ _ => pascal_word, fun x s => ?_⟩
  · rw [method_eq_lettered, ← letters_camel s]
    exact letters_suffix_lettered "test" (camel s)
  · have hbase : IsIdentifier (lettered "Side" (pascal s)) :=
      isIdentifier_lettered isIdentifier_side fun _ => isAlphanum_of_mem_pascal
    refine ⟨lettered "Side" (pascal s), rfl, hbase, hbase.exists_cons, ?_⟩
    rw [← letters_pascal s]
    exact letters_suffix_lettered "Side" (pascal s)

/-- A name of two words between which an accented letter stands, the second of which begins with a
digit. -/
theorem recorded_names_samples :
    'é'.isAlphanum = false ∧
    pascal ("add" ++ String.singleton 'é' ++ "2carts") = pascal "add" ++ pascal "2carts" ∧
    pascal (String.ofList ['a', 'd', 'd']) = String.ofList ['A', 'd', 'd'] ∧
    method "2carts" = "test2carts" ∧ IsIdentifier (method "2carts") ∧
    ∃ base, Exporter.className { table := .standard {} } "2carts" = base ++ "Cest" ∧
      IsIdentifier base := by
  have hword : ∀ d ∈ ['a', 'd', 'd'], d.isAlphanum = true := List.all_eq_true.mp (by decide)
  obtain ⟨hmethods, -, happend, hwords, hclasses⟩ := recorded_names
  obtain ⟨base, hclass, hbase, -⟩ := hclasses { table := .standard {} } "2carts"
  exact ⟨by decide, happend "add" "2carts" 'é' (by decide), hwords 'a' ['d', 'd'] hword,
    by decide, (hmethods "2carts").1, base, hclass, hbase⟩

end CestWriter.Identifier
