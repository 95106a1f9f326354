import CestWriter.Cli.Run

/-!
# Arguments as items

An argument list is read several times: once for the arguments that stand for themselves, where
what follows an option is skipped, and once for the value of each option, where nothing is skipped.
If the list is made of items, all readings agree on what an argument is. So the order of two
neighbours matters only if both stand for themselves or both give a value to one option.
-/

namespace CestWriter.Cli

/-- What an option with a value is about. -/
inductive OptionKind where
  | suite
  | output
  | config
  | templateFolder
deriving Repr, DecidableEq

/-- The spellings of an option. -/
def OptionKind.spellings : OptionKind → List String
  | .suite => ["--suite"]
  | .output => ["--output", "-o"]
  | .config => ["--config", "-c"]
  | .templateFolder => ["--template-dir"]

theorem OptionKind.spellings_subset (kind : OptionKind) : kind.spellings ⊆ valueOptions := by
  cases kind <;> decide

/-- An item of an argument list: an argument that stands for itself, or an option with its value. -/
inductive Item where
  | word (text : String) (hword : text ∉ valueOptions)
  | pair (spelling value : String) (hspelling : spelling ∈ valueOptions)
    (hvalue : value ∉ valueOptions)

namespace Item

/-- The arguments of an item. -/
def arguments : Item → List String
  | word text _ => [text]
  | pair spelling value _ _ => [spelling, value]

/-- The argument that stands for itself, if the item is one. -/
def word? : Item → Option String
  | word text _ => some text
  | pair _ _ _ _ => none

/-- The value that an item gives to an option with these spellings. -/
def value? (spellings : List String) : Item → Option String
  | word _ _ => none
  | pair spelling value _ _ => if spelling ∈ spellings then some value else none

theorem isSome_value?_pair {spellings : List String} {spelling value : String}
    {hspelling : spelling ∈ valueOptions} {hvalue : value ∉ valueOptions} :
    ((pair spelling value hspelling hvalue).value? spellings).isSome ↔ spelling ∈ spellings := by
  by_cases hmem : spelling ∈ spellings <;> simp [value?, hmem]

theorem isSome_value?_of_subset {spellings others : List String} (hsubset : spellings ⊆ others)
    {item : Item} (h : (item.value? spellings).isSome) : (item.value? others).isSome := by
  cases item with
  | word text hword => exact h
  | pair spelling value hspelling hvalue =>
    rw [isSome_value?_pair] at h ⊢
    exact hsubset h

/-- Two items of which the order may matter: both stand for themselves, or both give a value to one
option. -/
def Compete (a b : Item) : Prop :=
  (a.word?.isSome ∧ b.word?.isSome) ∨
    ∃ kind : OptionKind, (a.value? kind.spellings).isSome ∧ (b.value? kind.spellings).isSome

end Item

/-- An option at the end of an argument list, without a value. -/
abbrev LoneOption :=
  { spelling : String // spelling ∈ valueOptions }

/-- The argument list that is made of these items, perhaps with an option without a value at its
end. -/
def argumentsOf (items : List Item) (last : Option LoneOption) : List String :=
  items.flatMap Item.arguments ++ (last.map Subtype.val).toList

/-! ## Reading one item -/

theorem positional_cons_of_not_mem {first : String} (h : first ∉ valueOptions)
    (rest : List String) : positional (first :: rest) = first :: positional rest := by
  cases rest with
  | nil => simp [positional, h]
  | cons second rest => simp [positional, h]

theorem positional_cons_of_mem {first : String} (h : first ∈ valueOptions) (second : String)
    (rest : List String) : positional (first :: second :: rest) = positional rest := by
  simp [positional, h]

theorem optionValue?_cons_of_not_mem {spellings : List String} {first : String}
    (h : first ∉ spellings) (rest : List String) :
    optionValue? spellings (first :: rest) = optionValue? spellings rest := by
  cases rest with
  | nil => rfl
  | cons second rest => simp [optionValue?, h]

theorem positional_item (item : Item) (rest : List String) :
    positional (item.arguments ++ rest) = item.word?.toList ++ positional rest := by
  cases item with
  | word text hword => exact positional_cons_of_not_mem hword rest
  | pair spelling value hspelling hvalue => exact positional_cons_of_mem hspelling value rest

/-- The value of an option is the one that the first item gives, or else that of the rest. Neither a
word nor a value of another option is taken for a spelling. -/
theorem optionValue?_item {spellings : List String} (hsubset : spellings ⊆ valueOptions)
    (item : Item) (rest : List String) :
    optionValue? spellings (item.arguments ++ rest) =
      (item.value? spellings).or (optionValue? spellings rest) := by
  cases item with
  | word text hword =>
    exact optionValue?_cons_of_not_mem (fun hmem => hword (hsubset hmem)) rest
  | pair spelling value hspelling hvalue =>
    have hskip : optionValue? spellings (value :: rest) = optionValue? spellings rest :=
      optionValue?_cons_of_not_mem (fun hmem => hvalue (hsubset hmem)) rest
    by_cases hmem : spelling ∈ spellings
    · simp [Item.arguments, Item.value?, optionValue?, hmem]
    · simp [Item.arguments, Item.value?, optionValue?, hmem, hskip]

/-! ## Reading a list of items -/

theorem positional_lone (last : Option LoneOption) :
    positional (last.map Subtype.val).toList = [] := by
  cases last with
  | none => rfl
  | some last => simp [positional, last.property]

theorem optionValue?_lone (spellings : List String) (last : Option LoneOption) :
    optionValue? spellings (last.map Subtype.val).toList = none := by
  cases last with
  | none => rfl
  | some last => rfl

theorem positional_argumentsOf (items : List Item) (last : Option LoneOption) :
    positional (argumentsOf items last) = items.filterMap Item.word? := by
  induction items with
  | nil => exact positional_lone last
  | cons item items ih =>
    rw [argumentsOf, List.flatMap_cons, List.append_assoc, positional_item, ← argumentsOf, ih]
    cases hword : item.word? <;> simp [hword]

theorem optionValue?_argumentsOf {spellings : List String} (hsubset : spellings ⊆ valueOptions)
    (items : List Item) (last : Option LoneOption) :
    optionValue? spellings (argumentsOf items last) = items.findSome? (Item.value? spellings) := by
  induction items with
  | nil => exact optionValue?_lone spellings last
  | cons item items ih =>
    rw [argumentsOf, List.flatMap_cons, List.append_assoc, optionValue?_item hsubset, ← argumentsOf,
      ih]
    cases hvalue : item.value? spellings <;> simp [hvalue]

/-! ## Exchanging neighbours -/

theorem filterMap_swap {α β : Type} {f : α → Option β} {a b : α}
    (h : ¬ ((f a).isSome ∧ (f b).isSome)) (before after : List α) :
    (before ++ b :: a :: after).filterMap f = (before ++ a :: b :: after).filterMap f := by
  cases ha : f a <;> cases hb : f b <;> simp_all

theorem findSome?_swap {α β : Type} {f : α → Option β} {a b : α}
    (h : ¬ ((f a).isSome ∧ (f b).isSome)) (before after : List α) :
    (before ++ b :: a :: after).findSome? f = (before ++ a :: b :: after).findSome? f := by
  cases ha : f a <;> cases hb : f b <;> simp_all [List.findSome?_append]

/-- What is asked for depends on the words and on the values of the four options only. -/
theorem ofArguments?_congr {args others : List String}
    (hwords : positional others = positional args)
    (hvalues : ∀ kind : OptionKind,
      optionValue? kind.spellings others = optionValue? kind.spellings args) :
    ExportRequest.ofArguments? others = ExportRequest.ofArguments? args := by
  have hsuite := hvalues .suite
  have houtput := hvalues .output
  have hconfig := hvalues .config
  have htemplate := hvalues .templateFolder
  simp only [OptionKind.spellings] at hsuite houtput hconfig htemplate
  simp only [ExportRequest.ofArguments?, hwords, hsuite, houtput, hconfig, htemplate]

/-- So does every run of the program. -/
theorem run_congr {m : Type → Type} [Monad m] (host : Host m) (engine : Engine)
    (verbosity : Verbosity) (name : String) {args others : List String}
    (hwords : positional others = positional args)
    (hvalues : ∀ kind : OptionKind,
      optionValue? kind.spellings others = optionValue? kind.spellings args) :
    run host verbosity (name :: others) engine = run host verbosity (name :: args) engine := by
  have hexport : runExport engine host verbosity others = runExport engine host verbosity args := by
    simp only [runExport, ofArguments?_congr hwords hvalues]
  have hcommand : runCommand host verbosity others = runCommand host verbosity args := by
    simp only [runCommand, hwords]
  simp only [run, dispatch, hexport, hcommand]

/-- An argument list that is made of items, perhaps with an option without a value at its end: the
arguments that stand for themselves are its words in order, and the value of an option is that of
the first pair with one of its spellings, or nothing if there is none. So exchanging two neighbours
that do not compete changes neither of them, nor anything that a run of the program does. -/
theorem argumentsOf_readings (items : List Item) (last : Option LoneOption) :
    positional (argumentsOf items last) = items.filterMap Item.word? ∧
      (∀ spellings, spellings ⊆ valueOptions →
        optionValue? spellings (argumentsOf items last) =
          items.findSome? (Item.value? spellings)) ∧
      ∀ before a b after, items = before ++ a :: b :: after → ¬ a.Compete b →
        positional (argumentsOf (before ++ b :: a :: after) last) =
            positional (argumentsOf items last) ∧
          (∀ (kind : OptionKind) (spellings : List String), spellings ⊆ kind.spellings →
            optionValue? spellings (argumentsOf (before ++ b :: a :: after) last) =
              optionValue? spellings (argumentsOf items last)) ∧
          ∀ (m : Type → Type) [Monad m] (host : Host m) (engine : Engine) (verbosity : Verbosity)
            (name : String),
            run host verbosity (name :: argumentsOf (before ++ b :: a :: after) last) engine =
              run host verbosity (name :: argumentsOf items last) engine := by
  refine ⟨positional_argumentsOf items last,
    fun spellings hsubset => optionValue?_argumentsOf hsubset items last, ?_⟩
  rintro before a b after rfl hcompete
  obtain ⟨hwords, hvalues⟩ := not_or.mp hcompete
  have hpositional : positional (argumentsOf (before ++ b :: a :: after) last) =
      positional (argumentsOf (before ++ a :: b :: after) last) := by
    rw [positional_argumentsOf, positional_argumentsOf, filterMap_swap hwords]
  have hoptions : ∀ (kind : OptionKind) (spellings : List String), spellings ⊆ kind.spellings →
      optionValue? spellings (argumentsOf (before ++ b :: a :: after) last) =
        optionValue? spellings (argumentsOf (before ++ a :: b :: after) last) := by
    intro kind spellings hsubset
    have hknown := List.Subset.trans hsubset kind.spellings_subset
    have hone : ¬ ((a.value? spellings).isSome ∧ (b.value? spellings).isSome) := by
      rintro ⟨ha, hb⟩
      exact hvalues ⟨kind, Item.isSome_value?_of_subset hsubset ha,
        Item.isSome_value?_of_subset hsubset hb⟩
    rw [optionValue?_argumentsOf hknown, optionValue?_argumentsOf hknown, findSome?_swap hone]
  exact ⟨hpositional, hoptions, fun m _ host engine verbosity name =>
    run_congr host engine verbosity name hpositional fun kind =>
      hoptions kind kind.spellings (List.Subset.refl _)⟩

/-- A list with both spellings of an option and one that lacks its value, in two orders. -/
theorem argumentsOf_readings_twoOutputs :
    (positional ["--suite", "Smoke", "shop.side", "-o", "a", "x", "--output", "b", "-c"] =
        ["shop.side", "x"] ∧
      optionValue? ["--output", "-o"]
        ["--suite", "Smoke", "shop.side", "-o", "a", "x", "--output", "b", "-c"] = some "a" ∧
      optionValue? ["--config", "-c"]
        ["--suite", "Smoke", "shop.side", "-o", "a", "x", "--output", "b", "-c"] = none) ∧
    positional ["shop.side", "--suite", "Smoke", "-o", "a", "x", "--output", "b", "-c"] =
        ["shop.side", "x"] ∧
      optionValue? ["--suite"]
        ["shop.side", "--suite", "Smoke", "-o", "a", "x", "--output", "b", "-c"] =
          some "Smoke" := by
  let suite : Item := .pair "--suite" "Smoke" (by decide) (by decide)
  let shop : Item := .word "shop.side" (by decide)
  let others : List Item := [.pair "-o" "a" (by decide) (by decide), .word "x" (by decide),
    .pair "--output" "b" (by decide) (by decide)]
  obtain ⟨hwords, hvalues, hexchange⟩ :=
    argumentsOf_readings (suite :: shop :: others) (some ⟨"-c", by decide⟩)
  have hcompete : ¬ suite.Compete shop := by
    rintro (⟨hword, -⟩ | ⟨kind, -, hvalue⟩)
    · exact absurd hword (by decide)
    · exact absurd hvalue (by simp [shop, Item.value?])
  obtain ⟨hwords', hvalues', -⟩ := hexchange [] suite shop others rfl hcompete
  exact ⟨⟨hwords, hvalues ["--output", "-o"] (by decide), hvalues ["--config", "-c"] (by decide)⟩,
    hwords'.trans hwords,
    (hvalues' .suite ["--suite"] (by decide)).trans (hvalues ["--suite"] (by decide))⟩

end CestWriter.Cli
