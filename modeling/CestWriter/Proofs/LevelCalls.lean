import CestWriter.Proofs.Balance

/-!
# Calls on a running level

A running level takes calls in any order and goes on after those that fail. The rules of a call are
said here for integers, so that only the rules keep a level from becoming negative. The level that
is kept as a natural number follows them exactly: no integer that the rules lead to is cut off.
-/

namespace CestWriter.Placement

/-- A call on a running level. -/
inductive Call where
  /-- Places an emission of a command. -/
  | place (command : String) (e : Emission)
  /-- Asks whether every block is closed. -/
  | finish (command : String)

/-- The lines that a call gives, or the error that it reports. -/
abbrev Answer := Except Error (List Line)

/-- The level after a call, and its answer. -/
def Call.perform (level : Nat) : Call → Nat × Answer
  | .place command e => Placement.place level command e
  | .finish command => (level, (Placement.finish level command).map fun _ => [])

/-- What is seen of calls from a level on, after each of them. -/
def outcomes (level : Nat) : List Call → List (Nat × Answer)
  | [] => []
  | call :: rest => call.perform level :: outcomes (call.perform level).1 rest

/-- The rules of a call: from which level it leads to which one, and what it answers. -/
inductive Effect (level : Int) : Call → Int → Answer → Prop
  /-- Neither change leads below zero. Both are made, and the lines stand at the level between
  them. -/
  | placed {command : String} {e : Emission} (base : Nat) (hbase : (base : Int) = level + e.before)
      (hafter : 0 ≤ level + e.before + e.after) :
      Effect level (.place command e) (level + e.before + e.after)
        (.ok (e.lines.map (Line.shift base)))
  /-- The change before the lines leads below zero. No change is made. -/
  | refusedBefore {command : String} {e : Emission} (hbefore : level + e.before < 0) :
      Effect level (.place command e) level (.error (.unbalanced command (level + e.before)))
  /-- The change after the lines leads below zero. The one before them has been made. -/
  | refusedAfter {command : String} {e : Emission} (hbefore : 0 ≤ level + e.before)
      (hafter : level + e.before + e.after < 0) :
      Effect level (.place command e) (level + e.before)
        (.error (.unbalanced command (level + e.before + e.after)))
  /-- Every block is closed. -/
  | finished {command : String} (hlevel : level = 0) : Effect level (.finish command) level (.ok [])
  /-- A block is open. -/
  | unfinished {command : String} (hlevel : level ≠ 0) :
      Effect level (.finish command) level (.error (.unbalanced command level))

/-- The rules, for one call after another. -/
inductive Run : Int → List Call → List (Int × Answer) → Prop
  | nil {level : Int} : Run level [] []
  | cons {level next : Int} {call : Call} {answer : Answer} {calls : List Call}
      {seen : List (Int × Answer)} (hcall : Effect level call next answer)
      (hrest : Run next calls seen) : Run level (call :: calls) ((next, answer) :: seen)

/-- What is seen of a call, the level being an integer. -/
def signed (outcome : Nat × Answer) : Int × Answer :=
  (outcome.1, outcome.2)

/-! ## One call -/

theorem place_eq_error_after {level base : Nat} {e : Emission} (command : String)
    (hbase : (base : Int) = level + e.before) (hneg : (base : Int) + e.after < 0) :
    place level command e = (base, .error (.unbalanced command (base + e.after))) := by
  simp only [place, adjust_eq_ok command hbase, adjust_eq_error command hneg]

/-- By the rules a level that is not negative stays so. -/
theorem Effect.nonneg {level next : Int} {call : Call} {answer : Answer}
    (h : Effect level call next answer) (hlevel : 0 ≤ level) : 0 ≤ next := by
  cases h with
  | placed base hbase hafter => exact hafter
  | refusedBefore hbefore => exact hlevel
  | refusedAfter hbefore hafter => exact hbefore
  | finished hzero => exact hlevel
  | unfinished hopen => exact hlevel

/-- An emission that does not lower the level after its lines is refused before them or not at
all. -/
theorem Effect.eq_of_error {level next : Int} {command : String} {e : Emission} {error : Error}
    (h : Effect level (.place command e) next (.error error)) (hafter : 0 ≤ e.after) :
    next = level := by
  cases h with
  | refusedBefore hbefore => rfl
  | refusedAfter hbefore hneg => omega

/-- The rules have an answer to every call. -/
theorem Effect.total (level : Int) (call : Call) :
    ∃ next answer, Effect level call next answer := by
  cases call with
  | place command e =>
    by_cases hbefore : level + e.before < 0
    · exact ⟨_, _, .refusedBefore hbefore⟩
    rw [Int.not_lt] at hbefore
    by_cases hafter : level + e.before + e.after < 0
    · exact ⟨_, _, .refusedAfter hbefore hafter⟩
    rw [Int.not_lt] at hafter
    obtain ⟨base, hbase⟩ := Int.eq_ofNat_of_zero_le hbefore
    exact ⟨_, _, .placed base hbase.symm hafter⟩
  | finish command =>
    by_cases hlevel : level = 0
    · exact ⟨_, _, .finished hlevel⟩
    · exact ⟨_, _, .unfinished hlevel⟩

/-- What the rules say of a level that is a natural number is what a call on it does. -/
theorem Effect.eq_perform {level : Nat} {next : Int} {call : Call}
    {answer : Answer} (h : Effect level call next answer) :
    (next, answer) = signed (call.perform level) := by
  cases h with
  | @placed command e base hbase hafter =>
    obtain ⟨final, hfinal⟩ := Int.eq_ofNat_of_zero_le hafter
    have hnext : (final : Int) = base + e.after := by rw [hbase, hfinal]
    rw [Call.perform, place_eq_ok command hbase hnext, hfinal]
    rfl
  | @refusedBefore command e hbefore =>
    rw [Call.perform, place_eq_error command hbefore]
    rfl
  | @refusedAfter command e hbefore hafter =>
    obtain ⟨base, hbase⟩ := Int.eq_ofNat_of_zero_le hbefore
    rw [hbase] at hafter
    rw [Call.perform, place_eq_error_after command hbase.symm hafter, hbase]
    rfl
  | @finished command hlevel =>
    rw [Call.perform, finish, if_pos (Int.natCast_eq_zero.mp hlevel)]
    rfl
  | @unfinished command hlevel =>
    rw [Call.perform, finish, if_neg fun hzero => hlevel (Int.natCast_eq_zero.mpr hzero)]
    rfl

theorem effect_iff {level : Nat} {next : Int} {call : Call} {answer : Answer} :
    Effect level call next answer ↔ (next, answer) = signed (call.perform level) := by
  refine ⟨Effect.eq_perform, fun heq => ?_⟩
  obtain ⟨next', answer', heffect⟩ := Effect.total level call
  cases heq.trans heffect.eq_perform.symm
  exact heffect

/-! ## Calls one after another -/

theorem Run.nonneg {level : Int} {calls : List Call} {seen : List (Int × Answer)}
    (h : Run level calls seen) (hlevel : 0 ≤ level) : ∀ outcome ∈ seen, 0 ≤ outcome.1 := by
  induction h with
  | nil => exact List.forall_mem_nil _
  | cons hcall hrest ih =>
    have hnext := hcall.nonneg hlevel
    exact List.forall_mem_cons.mpr ⟨hnext, ih hnext⟩

theorem run_iff {level : Nat} {calls : List Call} {seen : List (Int × Answer)} :
    Run level calls seen ↔ seen = (outcomes level calls).map signed := by
  induction calls generalizing level seen with
  | nil =>
    constructor
    · intro h
      cases h
      rfl
    · rintro rfl
      exact .nil
  | cons call rest ih =>
    rw [outcomes, List.map_cons]
    constructor
    · intro h
      cases h with
      | @cons _ next _ answer _ seen hcall hrest =>
        have heq := effect_iff.mp hcall
        have hnext : next = (call.perform level).1 := congrArg Prod.fst heq
        rw [hnext] at hrest
        rw [heq, ih.mp hrest]
    · rintro rfl
      exact .cons (effect_iff.mpr rfl) (ih.mpr rfl)

end CestWriter.Placement

namespace CestWriter.Table

theorem after_nonneg_of_emit {t : Table} (ht : t.IsStandard) {depth : Nat} {c : Command}
    {e : Emission} (hemit : t.emit depth c = .ok e) : 0 ≤ e.after := by
  rw [(fits_of_emit ht hemit).after_eq]
  rcases Balance.afterOf_cases c.name with hzero | hone <;> omega

end CestWriter.Table

namespace CestWriter.Placement

/-- Calls on a new level, in any order and with any emissions, also after calls that failed, are
seen to do exactly what the rules say, and by the rules the level is never negative. When an emission
by the standard vocabulary is refused, at whatever level, this level stays. -/
theorem calls_follow_rules (calls : List Call) :
    (∀ seen, Run 0 calls seen ↔ seen = (outcomes 0 calls).map signed) ∧
      (∀ seen, Run 0 calls seen → ∀ outcome ∈ seen, 0 ≤ outcome.1) ∧
      ∀ config resolver depth c e,
        ((Table.standard config).withResolver resolver).emit depth c = .ok e →
        ∀ level command error, (place level command e).2 = .error error →
          (place level command e).1 = level := by
  refine ⟨fun seen => run_iff, fun seen h => h.nonneg (Int.le_refl 0), ?_⟩
  intro config resolver depth c e hemit level command error herror
  have hafter := Table.after_nonneg_of_emit (Table.isStandard_withResolver config resolver) hemit
  have heffect : Effect level (.place command e) (place level command e).1 (.error error) :=
    effect_iff.mpr (congrArg (Prod.mk _) herror.symm)
  exact Int.ofNat_inj.mp (heffect.eq_of_error hafter)

/-- Calls that meet every rule: one is refused after its first change, and another one before it. -/
def refusedCalls : List Call :=
  [.place "open" (.block [⟨0, "a;"⟩, ⟨1, "b;"⟩] 0 1), .place "odd" (.block [⟨0, "c;"⟩] 2 (-4)),
    .finish "odd", .place "close" (.block [⟨0, "d;"⟩] (-4) 5),
    .place "close" (.block [⟨1, "e;"⟩] (-1) (-2)), .finish "close"]

theorem calls_follow_rules_refused :
    (∃ seen, Run 0 refusedCalls seen ∧ (∀ outcome ∈ seen, 0 ≤ outcome.1) ∧
      seen = [(1, .ok [⟨0, "a;"⟩, ⟨1, "b;"⟩]), (3, .error (.unbalanced "odd" (-1))),
        (3, .error (.unbalanced "odd" 3)), (3, .error (.unbalanced "close" (-1))),
        (0, .ok [⟨3, "e;"⟩]), (0, .ok [])]) ∧
      ∃ e, ((Table.standard {}).withResolver .standard).emit 0 { name := "else" } = .ok e ∧
        place 0 "else" e = (0, .error (.unbalanced "else" (-1))) := by
  obtain ⟨hrun, hnonneg, hstandard⟩ := calls_follow_rules refusedCalls
  constructor
  · have hseen := (hrun _).mpr rfl
    exact ⟨_, hseen, hnonneg _ hseen, rfl⟩
  · have hemit := @Table.emit_keyword _ (Table.isStandard_withResolver {} .standard)
      { name := "else" } 0 .elseThen rfl
    refine ⟨_, hemit, Prod.ext ?_ rfl⟩
    exact hstandard {} .standard 0 _ _ hemit 0 "else" _ rfl

end CestWriter.Placement
