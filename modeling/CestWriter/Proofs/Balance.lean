import CestWriter.Proofs.Walk

/-!
# Which tests are accepted

A test is accepted when the emission of every command succeeds and the commands of control flow are
balanced. Balance is said here with one integer that goes up at a command that begins a block and
down at one that ends a block. A test that is not accepted fails with the error of the first command
that offends, or, if no command offends but blocks are still open, at the last command.
-/

namespace CestWriter.Balance

/-- The commands that begin a block. -/
def openers : List String :=
  ["do", "if", "while", "forEach", "times"]

/-- The commands that end a block. -/
def closers : List String :=
  ["end", "repeatIf"]

/-- The commands that end one body of a block and begin another. -/
def dividers : List String :=
  ["else", "elseIf"]

/-- The level after a command. -/
def moved (level : Int) (c : Command) : Int :=
  if c.isDisabled then level
  else if c.name ∈ openers then level + 1
  else if c.name ∈ closers then level - 1
  else level

/-- The level after commands that begin at a level. -/
def levelAfter (level : Int) (commands : List Command) : Int :=
  commands.foldl moved level

/-- The command stands in a block that is still open. -/
def NeedsBlock (c : Command) : Prop :=
  c.isDisabled = false ∧ (c.name ∈ closers ∨ c.name ∈ dividers)

instance (c : Command) : Decidable (NeedsBlock c) :=
  inferInstanceAs (Decidable (_ ∧ _))

/-- What a command at a level reports, if it offends: its emission fails, or it needs an open block
and there is none. -/
def offence? (t : Table) (level : Int) (c : Command) : Option Error :=
  if c.isDisabled then none
  else
    match t.emit level.toNat c with
    | .error error => some error
    | .ok _ => if NeedsBlock c ∧ level < 1 then some (.unbalanced c.name (-1)) else none

/-- None of the commands that begin at a level offends. -/
def NoOffence (t : Table) (level : Int) (commands : List Command) : Prop :=
  ∀ before c after, commands = before ++ c :: after →
    offence? t (levelAfter level before) c = none

/-- The first of the commands that offends reports this error. -/
def FirstOffence (t : Table) (level : Int) (commands : List Command) (error : Error) : Prop :=
  ∃ before c after, commands = before ++ c :: after ∧ NoOffence t level before ∧
    offence? t (levelAfter level before) c = some error

/-! ## Level changes by name and by keyword -/

theorem mem_groups_iff (k : Keyword) :
    (k.name ∈ openers ↔ k.before = 0 ∧ k.after = 1) ∧
    (k.name ∈ closers ↔ k.before = -1 ∧ k.after = 0) ∧
    (k.name ∈ dividers ↔ k.before = -1 ∧ k.after = 1) := by
  cases k <;> decide

theorem ofName?_isSome_of_mem :
    ∀ name ∈ openers ++ closers ++ dividers, (Keyword.ofName? name).isSome = true := by
  decide

theorem not_mem_groups {name : String} (h : Keyword.ofName? name = none) :
    name ∉ openers ∧ name ∉ closers ∧ name ∉ dividers := by
  have hall : name ∉ openers ++ closers ++ dividers := by
    intro hmem
    have hsome := ofName?_isSome_of_mem name hmem
    rw [h] at hsome
    cases hsome
  simpa only [List.mem_append, not_or, and_assoc] using hall

theorem changes_cases (k : Keyword) :
    (k.before = 0 ∧ k.after = 1) ∨ (k.before = -1 ∧ k.after = 0) ∨
      (k.before = -1 ∧ k.after = 1) := by
  cases k <;> decide

theorem moved_enabled (level : Int) {c : Command} (henabled : c.isDisabled = false) :
    moved level c = level + Keyword.beforeOf c.name + Keyword.afterOf c.name := by
  rw [moved, if_neg (by simp [henabled])]
  cases hkeyword : Keyword.ofName? c.name with
  | none =>
    obtain ⟨hopeners, hclosers, -⟩ := not_mem_groups hkeyword
    rw [if_neg hopeners, if_neg hclosers, Keyword.beforeOf_eq_zero hkeyword,
      Keyword.afterOf_eq_zero hkeyword]
    omega
  | some k =>
    have hname := Keyword.ofName?_eq_some_iff.mp hkeyword
    rw [hname, Keyword.beforeOf_name, Keyword.afterOf_name]
    obtain ⟨hopeners, hclosers, -⟩ := mem_groups_iff k
    rcases changes_cases k with ⟨hb, ha⟩ | ⟨hb, ha⟩ | ⟨hb, ha⟩
    · rw [if_pos (hopeners.mpr ⟨hb, ha⟩), hb, ha]
      omega
    · have hnot : k.name ∉ openers := fun h => by have := (hopeners.mp h).1; omega
      rw [if_neg hnot, if_pos (hclosers.mpr ⟨hb, ha⟩), hb, ha]
      omega
    · have hnot : k.name ∉ openers := fun h => by have := (hopeners.mp h).1; omega
      have hnot' : k.name ∉ closers := fun h => by have := (hclosers.mp h).2; omega
      rw [if_neg hnot, if_neg hnot', hb, ha]
      omega

theorem needsBlock_iff {c : Command} (henabled : c.isDisabled = false) :
    NeedsBlock c ↔ Keyword.beforeOf c.name = -1 := by
  simp only [NeedsBlock, henabled, true_and]
  cases hkeyword : Keyword.ofName? c.name with
  | none =>
    obtain ⟨-, hclosers, hdividers⟩ := not_mem_groups hkeyword
    rw [Keyword.beforeOf_eq_zero hkeyword]
    simp [hclosers, hdividers]
  | some k =>
    have hname := Keyword.ofName?_eq_some_iff.mp hkeyword
    obtain ⟨-, hclosers, hdividers⟩ := mem_groups_iff k
    rw [hname, Keyword.beforeOf_name, hclosers, hdividers]
    rcases changes_cases k with ⟨hb, ha⟩ | ⟨hb, ha⟩ | ⟨hb, ha⟩ <;> simp [hb, ha]

theorem beforeOf_cases (name : String) :
    Keyword.beforeOf name = 0 ∨ Keyword.beforeOf name = -1 := by
  cases hkeyword : Keyword.ofName? name with
  | none => exact .inl (Keyword.beforeOf_eq_zero hkeyword)
  | some k =>
    rw [Keyword.ofName?_eq_some_iff.mp hkeyword, Keyword.beforeOf_name]
    rcases changes_cases k with ⟨hb, -⟩ | ⟨hb, -⟩ | ⟨hb, -⟩
    · exact .inl hb
    · exact .inr hb
    · exact .inr hb

theorem afterOf_cases (name : String) :
    Keyword.afterOf name = 0 ∨ Keyword.afterOf name = 1 := by
  cases hkeyword : Keyword.ofName? name with
  | none => exact .inl (Keyword.afterOf_eq_zero hkeyword)
  | some k =>
    rw [Keyword.ofName?_eq_some_iff.mp hkeyword, Keyword.afterOf_name]
    rcases changes_cases k with ⟨-, ha⟩ | ⟨-, ha⟩ | ⟨-, ha⟩
    · exact .inr ha
    · exact .inl ha
    · exact .inr ha

theorem afterOf_nonneg (name : String) : 0 ≤ Keyword.afterOf name := by
  rcases afterOf_cases name with hzero | hone <;> omega

/-! ## One command -/

theorem offence?_disabled (t : Table) (level : Int) {c : Command}
    (hdisabled : c.isDisabled = true) : offence? t level c = none := by
  rw [offence?, if_pos hdisabled]

theorem offence?_emit_error {t : Table} (level : Int) {c : Command} {error : Error}
    (henabled : c.isDisabled = false) (hemit : t.emit level.toNat c = .error error) :
    offence? t level c = some error := by
  rw [offence?, if_neg (by simp [henabled]), hemit]

theorem offence?_emit_ok {t : Table} (level : Int) {c : Command} {e : Emission}
    (henabled : c.isDisabled = false) (hemit : t.emit level.toNat c = .ok e) :
    offence? t level c =
      if NeedsBlock c ∧ level < 1 then some (.unbalanced c.name (-1)) else none := by
  rw [offence?, if_neg (by simp [henabled]), hemit]

/-- A command that does not offend is placed, and the running level moves as the name says. -/
theorem step_of_no_offence {t : Table} (ht : t.IsStandard) {level : Nat} {c : Command}
    (hnone : offence? t level c = none) :
    ∃ next lines, t.step level c = .ok (next, lines) ∧ (next : Int) = moved level c := by
  cases hd : c.isDisabled with
  | true =>
    refine ⟨level, _, Table.step_disabled t level hd, ?_⟩
    rw [moved, if_pos hd]
  | false =>
    cases hemit : t.emit level c with
    | error error =>
      rw [offence?_emit_error level hd hemit] at hnone
      cases hnone
    | ok e =>
      rw [offence?_emit_ok level hd hemit, ite_eq_right_iff] at hnone
      have hfits := Table.fits_of_emit ht hemit
      have hafter := afterOf_nonneg c.name
      have hbefore : 0 ≤ (level : Int) + Keyword.beforeOf c.name := by
        rcases beforeOf_cases c.name with hzero | hminus
        · omega
        · have hlevel : ¬ (level : Int) < 1 := fun hlt =>
            nomatch hnone ⟨(needsBlock_iff hd).mpr hminus, hlt⟩
          omega
      refine ⟨(level + Keyword.beforeOf c.name + Keyword.afterOf c.name).toNat, _,
        Table.step_emit_ok hd hemit hfits (Int.toNat_of_nonneg hbefore) ?_, ?_⟩
      · rw [Int.toNat_of_nonneg hbefore, Int.toNat_of_nonneg (by omega)]
      · rw [moved_enabled _ hd, Int.toNat_of_nonneg (by omega)]

/-- A command that offends stops the test with its error. -/
theorem step_of_offence {t : Table} (ht : t.IsStandard) {level : Nat} {c : Command}
    {error : Error} (hsome : offence? t level c = some error) : t.step level c = .error error := by
  cases hd : c.isDisabled with
  | true =>
    rw [offence?_disabled t level hd] at hsome
    cases hsome
  | false =>
    cases hemit : t.emit level c with
    | error error' =>
      rw [offence?_emit_error level hd hemit] at hsome
      cases hsome
      exact Table.step_emit_error hd hemit
    | ok e =>
      rw [offence?_emit_ok level hd hemit] at hsome
      by_cases hblock : NeedsBlock c ∧ (level : Int) < 1
      · rw [if_pos hblock] at hsome
        cases hsome
        have hminus := (needsBlock_iff hd).mp hblock.1
        rw [Table.step_unbalanced hd hemit (Table.fits_of_emit ht hemit) (by omega), hminus]
        have hlevel : (level : Int) + -1 = -1 := by omega
        rw [hlevel]
      · rw [if_neg hblock] at hsome
        cases hsome

/-! ## All commands of a test -/

theorem levelAfter_append (level : Int) (first second : List Command) :
    levelAfter level (first ++ second) = levelAfter (levelAfter level first) second :=
  List.foldl_append

theorem noOffence_nil (t : Table) (level : Int) : NoOffence t level [] := by
  intro before c after h
  simp at h

theorem noOffence_cons {t : Table} {level : Int} {c : Command} {rest : List Command} :
    NoOffence t level (c :: rest) ↔
      offence? t level c = none ∧ NoOffence t (moved level c) rest := by
  constructor
  · intro h
    refine ⟨h [] c rest rfl, fun before c' after heq => ?_⟩
    exact h (c :: before) c' after (by rw [heq, List.cons_append])
  · rintro ⟨hfirst, hrest⟩ before c' after heq
    cases before with
    | nil =>
      cases heq
      exact hfirst
    | cons b before =>
      cases heq
      exact hrest before c' after rfl

/-- Commands that do not offend are walked through, and the level moves as their names say. -/
theorem walk_of_noOffence {t : Table} (ht : t.IsStandard) {level : Nat} {commands : List Command}
    (hnone : NoOffence t level commands) :
    ∃ final lines, t.walk level commands = .ok (final, lines) ∧
      (final : Int) = levelAfter level commands := by
  induction commands generalizing level with
  | nil => exact ⟨level, [], rfl, rfl⟩
  | cons c rest ih =>
    obtain ⟨hfirst, hrest⟩ := noOffence_cons.mp hnone
    obtain ⟨next, lines, hstep, hnext⟩ := step_of_no_offence ht hfirst
    -- the level of the rule is the running level as long as nothing offends
    rw [← hnext] at hrest
    obtain ⟨final, more, hwalk, hfinal⟩ := ih hrest
    refine ⟨final, lines ++ more, Table.walk_cons hstep hwalk, ?_⟩
    rw [hfinal, hnext]
    rfl

theorem walk_of_firstOffence {t : Table} (ht : t.IsStandard) {level : Nat}
    {commands : List Command} {error : Error} (hfirst : FirstOffence t level commands error) :
    t.walk level commands = .error error := by
  obtain ⟨before, c, after, rfl, hbefore, hoffence⟩ := hfirst
  obtain ⟨mid, lines, hwalk, hmid⟩ := walk_of_noOffence ht hbefore
  rw [← hmid] at hoffence
  rw [Table.walk_append_eq, hwalk]
  change t.continued (c :: after) (mid, lines) = .error error
  rw [Table.continued, Table.walk_cons_eq, step_of_offence ht hoffence]
  rfl

theorem noOffence_or_firstOffence (t : Table) (level : Int) (commands : List Command) :
    NoOffence t level commands ∨ ∃ error, FirstOffence t level commands error := by
  induction commands generalizing level with
  | nil => exact .inl (noOffence_nil t level)
  | cons c rest ih =>
    cases hoffence : offence? t level c with
    | some error => exact .inr ⟨error, [], c, rest, rfl, noOffence_nil t level, hoffence⟩
    | none =>
      rcases ih (moved level c) with hrest | ⟨error, before, c', after, rfl, hbefore, hoffence'⟩
      · exact .inl (noOffence_cons.mpr ⟨hoffence, hrest⟩)
      · exact .inr ⟨error, c :: before, c', after, rfl, noOffence_cons.mpr ⟨hoffence, hbefore⟩,
          hoffence'⟩

/-- The running level of a walk is the level that the names of the commands lead to. -/
theorem walk_level {t : Table} (ht : t.IsStandard) {level final : Nat} {commands : List Command}
    {lines : List Line} (h : t.walk level commands = .ok (final, lines)) :
    (final : Int) = levelAfter level commands := by
  rcases noOffence_or_firstOffence t level commands with hnone | ⟨error, hfirst⟩
  · obtain ⟨final', lines', hwalk, hfinal⟩ := walk_of_noOffence ht hnone
    rw [hwalk] at h
    cases h
    exact hfinal
  · rw [walk_of_firstOffence ht hfirst] at h
    cases h

end CestWriter.Balance
