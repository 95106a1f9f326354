import CestWriter.Exporter
import CestWriter.Proofs.StandardTable

/-!
# Walking through the commands of a test

What one command contributes to a test, and how the contributions of a list of commands follow from
those of its parts. For the standard vocabulary a command moves the running level by the changes
that belong to its name, whatever its emission looks like.
-/

namespace CestWriter

namespace Placement

theorem adjust_eq_ok {level next : Nat} {change : Int} (command : String)
    (hnext : (next : Int) = level + change) : adjust level command change = .ok next := by
  simp only [adjust, ← hnext]
  rw [if_neg (by omega), Int.toNat_natCast]

theorem adjust_eq_error {level : Nat} {change : Int} (command : String)
    (hneg : (level : Int) + change < 0) :
    adjust level command change = .error (.unbalanced command (level + change)) := by
  simp only [adjust, if_pos hneg]

theorem place_eq_ok {level base next : Nat} {e : Emission} (command : String)
    (hbase : (base : Int) = level + e.before) (hnext : (next : Int) = base + e.after) :
    place level command e = (next, .ok (e.lines.map (Line.shift base))) := by
  simp only [place, adjust_eq_ok command hbase, adjust_eq_ok command hnext]

theorem place_eq_error {level : Nat} {e : Emission} (command : String)
    (hneg : (level : Int) + e.before < 0) :
    place level command e = (level, .error (.unbalanced command (level + e.before))) := by
  simp only [place, adjust_eq_error command hneg]

end Placement

namespace Table

open Vocabulary

/-! ## Lists of commands -/

/-- What follows a part of a test: the walk goes on from the level that the part left, and the
lines are put one after the other. -/
def continued (t : Table) (rest : List Command) (part : Nat × List Line) :
    Except Error (Nat × List Line) :=
  (t.walk part.1 rest).map fun r => (r.1, part.2 ++ r.2)

theorem continued_eq_ok {t : Table} {mid final : Nat} {rest : List Command}
    {lines more : List Line} (hrest : t.walk mid rest = .ok (final, more)) :
    t.continued rest (mid, lines) = .ok (final, lines ++ more) := by
  rw [continued, hrest]
  rfl

theorem walk_cons_eq (t : Table) (level : Nat) (c : Command) (rest : List Command) :
    t.walk level (c :: rest) = (t.step level c).bind (t.continued rest) := by
  rw [walk]
  cases t.step level c with
  | error error => rfl
  | ok first =>
    change (t.walk first.1 rest >>= fun r => pure (r.1, first.2 ++ r.2)) = t.continued rest first
    rw [continued]
    cases t.walk first.1 rest with
    | error error => rfl
    | ok r => rfl

theorem walk_append_eq (t : Table) (level : Nat) (commands rest : List Command) :
    t.walk level (commands ++ rest) = (t.walk level commands).bind (t.continued rest) := by
  induction commands generalizing level with
  | nil =>
    change t.walk level rest = (t.walk level rest).map fun r => (r.1, [] ++ r.2)
    cases t.walk level rest with
    | error error => rfl
    | ok r => rfl
  | cons c commands ih =>
    rw [List.cons_append, walk_cons_eq, walk_cons_eq]
    cases t.step level c with
    | error error => rfl
    | ok first =>
      -- both sides put the lines of `first` in front; they differ in how the rest is grouped
      change t.continued (commands ++ rest) first =
        (t.continued commands first).bind (t.continued rest)
      rw [continued, ih, continued]
      cases t.walk first.1 commands with
      | error error => rfl
      | ok mid =>
        change (t.continued rest mid).map _ = t.continued rest (mid.1, first.2 ++ mid.2)
        rw [continued, continued]
        cases t.walk mid.1 rest with
        | error error => rfl
        | ok r => simp only [Except.map, List.append_assoc]

/-- Two parts of a test that both succeed give their lines one after the other. -/
theorem walk_append {t : Table} {level mid final : Nat} {first second : List Command}
    {lines more : List Line} (hfirst : t.walk level first = .ok (mid, lines))
    (hsecond : t.walk mid second = .ok (final, more)) :
    t.walk level (first ++ second) = .ok (final, lines ++ more) := by
  rw [walk_append_eq, hfirst]
  exact continued_eq_ok hsecond

theorem walk_cons {t : Table} {level next final : Nat} {c : Command} {rest : List Command}
    {lines more : List Line} (hstep : t.step level c = .ok (next, lines))
    (hrest : t.walk next rest = .ok (final, more)) :
    t.walk level (c :: rest) = .ok (final, lines ++ more) := by
  rw [walk_cons_eq, hstep]
  exact continued_eq_ok hrest

theorem walk_singleton {t : Table} {level next : Nat} {c : Command} {lines : List Line}
    (hstep : t.step level c = .ok (next, lines)) : t.walk level [c] = .ok (next, lines) := by
  rw [walk_cons hstep rfl, List.append_nil]

theorem renderTest_eq_ok {t : Table} {commands : List Command} {lines : List Line}
    (hwalk : t.walk 0 commands = .ok (0, lines)) : t.renderTest commands = .ok lines := by
  rw [renderTest, hwalk]
  rfl

theorem renderTest_eq_error_of_walk {t : Table} {commands : List Command} {error : Error}
    (hwalk : t.walk 0 commands = .error error) : t.renderTest commands = .error error := by
  rw [renderTest, hwalk]
  rfl

theorem renderTest_eq_error_of_level {t : Table} {commands : List Command} {level : Nat}
    {lines : List Line} (hwalk : t.walk 0 commands = .ok (level, lines)) (hlevel : level ≠ 0) :
    t.renderTest commands = .error (.unbalanced (lastName commands) level) := by
  rw [renderTest, hwalk]
  change (Placement.finish level (lastName commands) >>= fun _ => pure lines) = _
  rw [Placement.finish, if_neg hlevel]
  rfl

/-! ## One command -/

theorem step_disabled (t : Table) (level : Nat) {c : Command} (hdisabled : c.isDisabled = true) :
    t.step level c = .ok (level, commentLines level c.comment ++ [disabledLine level c]) := by
  rw [step, if_pos hdisabled]

theorem step_emit_error {t : Table} {level : Nat} {c : Command} {error : Error}
    (henabled : c.isDisabled = false) (hemit : t.emit level c = .error error) :
    t.step level c = .error error := by
  rw [step, if_neg (by simp [henabled]), hemit]
  rfl

/-- A command whose emission succeeds is placed at the level that it moves to, its comment before
its lines. -/
theorem step_emit_ok {t : Table} {level base next : Nat} {c : Command} {e : Emission}
    (henabled : c.isDisabled = false) (hemit : t.emit level c = .ok e) (hfits : Fits c.name e)
    (hbase : (base : Int) = level + Keyword.beforeOf c.name)
    (hnext : (next : Int) = base + Keyword.afterOf c.name) :
    t.step level c =
      .ok (next, commentLines base c.comment ++ e.lines.map (Line.shift base)) := by
  rw [← hfits.before_eq] at hbase
  rw [← hfits.after_eq] at hnext
  rw [step, if_neg (by simp [henabled]), hemit]
  change (if e = .nothing then _ else _) = _
  by_cases hnothing : e = .nothing
  · subst hnothing
    have hlevel : base = level := by simp only [Emission.before] at hbase; omega
    have hlevel' : next = base := by simp only [Emission.after] at hnext; omega
    subst hlevel hlevel'
    rw [if_pos rfl, Emission.lines, List.map_nil, List.append_nil]
    rfl
  · rw [if_neg hnothing, Placement.place_eq_ok c.name hbase hnext]
    obtain ⟨statement, rest, hlines⟩ := (hfits.placeable hnothing).first
    simp only [hlines, List.map_cons, List.head?_cons, Line.shift, Nat.add_zero]
    rfl

/-- A command that would move below the outermost level is refused. -/
theorem step_unbalanced {t : Table} {level : Nat} {c : Command} {e : Emission}
    (henabled : c.isDisabled = false) (hemit : t.emit level c = .ok e) (hfits : Fits c.name e)
    (hneg : (level : Int) + Keyword.beforeOf c.name < 0) :
    t.step level c = .error (.unbalanced c.name (level + Keyword.beforeOf c.name)) := by
  have hnothing : e ≠ .nothing := by
    rintro rfl
    have hbefore := hfits.before_eq
    simp only [Emission.before] at hbefore
    omega
  rw [← hfits.before_eq] at hneg ⊢
  rw [step, if_neg (by simp [henabled]), hemit]
  change (if e = .nothing then _ else _) = _
  rw [if_neg hnothing, Placement.place_eq_error c.name hneg]
  rfl

end Table

end CestWriter
