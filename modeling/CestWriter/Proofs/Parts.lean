import CestWriter.Proofs.Balance

/-!
# What each command leaves in a test

The lines of a test are those of its commands one after the other. A command leaves its comment, if
it has one, and then its own lines: the line that says it is disabled, or its placed emission. The
comment stands at the level of the first of the own lines.
-/

namespace CestWriter

/-! ## Outcomes of steps -/

theorem map_eq_ok_iff {α β : Type} {x : Except Error α} {f : α → β} {b : β} :
    x.map f = .ok b ↔ ∃ a, x = .ok a ∧ f a = b := by
  cases x with
  | error error => simp [Except.map]
  | ok a => simp [Except.map]

theorem map_eq_error_iff {α β : Type} {x : Except Error α} {f : α → β} {error : Error} :
    x.map f = .error error ↔ x = .error error := by
  cases x with
  | error error' => simp [Except.map]
  | ok a => simp [Except.map]

theorem bind_eq_ok_iff {α β : Type} {x : Except Error α} {f : α → Except Error β} {b : β} :
    x.bind f = .ok b ↔ ∃ a, x = .ok a ∧ f a = .ok b := by
  cases x with
  | error error => simp [Except.bind]
  | ok a => simp [Except.bind]

theorem bind_eq_error_iff {α β : Type} {x : Except Error α} {f : α → Except Error β}
    {error : Error} :
    x.bind f = .error error ↔ x = .error error ∨ ∃ a, x = .ok a ∧ f a = .error error := by
  cases x with
  | error error' => simp [Except.bind]
  | ok a => simp [Except.bind]

/-! ## Parts -/

/-- The level of the first line, or `level` if there is none. -/
def firstLevel (level : Nat) (lines : List Line) : Nat :=
  match lines.head? with
  | some l => l.level
  | none => level

@[simp] theorem firstLevel_nil (level : Nat) : firstLevel level [] = level := rfl

@[simp] theorem firstLevel_cons (level : Nat) (l : Line) (lines : List Line) :
    firstLevel level (l :: lines) = l.level := rfl

/-- What a command leaves in a test. -/
structure Part where
  command : Command
  comment : List Line
  own : List Line

/-- The lines of a part. -/
def Part.lines (p : Part) : List Line :=
  p.comment ++ p.own

namespace Placement

/-- Placing an emission as one outcome: the level after it with its lines, or the error. -/
def outcome (level : Nat) (command : String) (e : Emission) : Except Error (Nat × List Line) :=
  (place level command e).2.map ((place level command e).1, ·)

/-- Placing makes the two changes of the level one after the other. -/
theorem outcome_eq (level : Nat) (command : String) (e : Emission) :
    outcome level command e =
      (adjust level command e.before).bind fun base =>
        (adjust base command e.after).map fun final =>
          (final, e.lines.map (Line.shift base)) := by
  rw [outcome, place]
  cases adjust level command e.before with
  | error error => rfl
  | ok base =>
    change Except.map _ (Prod.snd _) = (adjust base command e.after).map _
    cases hafter : adjust base command e.after with
    | error error => simp only [hafter]; rfl
    | ok final => simp only [hafter]; rfl

theorem adjust_eq_ok_iff {level next : Nat} {command : String} {change : Int} :
    adjust level command change = .ok next ↔ (next : Int) = level + change := by
  refine ⟨fun h => ?_, adjust_eq_ok command⟩
  by_cases hneg : (level : Int) + change < 0
  · rw [adjust_eq_error command hneg] at h
    exact nomatch h
  · obtain ⟨moved, hmoved⟩ := Int.eq_ofNat_of_zero_le (Int.not_lt.mp hneg)
    rw [adjust_eq_ok command hmoved.symm] at h
    cases h
    exact hmoved.symm

/-- An emission is placed exactly when neither change leads below zero. -/
theorem outcome_eq_ok_iff {level next : Nat} {command : String} {e : Emission}
    {lines : List Line} :
    outcome level command e = .ok (next, lines) ↔
      ∃ base : Nat, (base : Int) = level + e.before ∧ (next : Int) = base + e.after ∧
        lines = e.lines.map (Line.shift base) := by
  simp only [outcome_eq, bind_eq_ok_iff, map_eq_ok_iff, adjust_eq_ok_iff, Prod.mk.injEq]
  constructor
  · rintro ⟨base, hbase, final, hfinal, rfl, rfl⟩
    exact ⟨base, hbase, hfinal, rfl⟩
  · rintro ⟨base, hbase, hnext, rfl⟩
    exact ⟨base, hbase, next, hnext, rfl, rfl⟩

theorem outcome_nothing (level : Nat) (command : String) :
    outcome level command .nothing = .ok (level, []) :=
  outcome_eq_ok_iff.mpr ⟨level, (Int.add_zero _).symm, (Int.add_zero _).symm, rfl⟩

theorem outcome_eq_error_iff {level : Nat} {command : String} {e : Emission} {error : Error} :
    outcome level command e = .error error ↔ (place level command e).2 = .error error :=
  map_eq_error_iff

end Placement

namespace Table

/-- The own lines of a command at a level, and the level after it. -/
def contribution (t : Table) (level : Nat) (c : Command) : Except Error (Nat × List Line) :=
  if c.isDisabled then .ok (level, [disabledLine level c])
  else (t.emit level c).bind (Placement.outcome level c.name)

/-- What a command leaves at a level, and the level after it. -/
def part (t : Table) (level : Nat) (c : Command) : Except Error (Nat × Part) :=
  (t.contribution level c).map fun r =>
    (r.1, ⟨c, commentLines (firstLevel level r.2) c.comment, r.2⟩)

/-- What commands leave from a level on, and the level after them. -/
def parts (t : Table) (level : Nat) : List Command → Except Error (Nat × List Part)
  | [] => .ok (level, [])
  | c :: rest =>
    (t.part level c).bind fun first =>
      (t.parts first.1 rest).map fun more => (more.1, first.2 :: more.2)

theorem contribution_disabled (t : Table) (level : Nat) {c : Command}
    (hdisabled : c.isDisabled = true) :
    t.contribution level c = .ok (level, [disabledLine level c]) := by
  rw [contribution, if_pos hdisabled]

theorem contribution_enabled (t : Table) (level : Nat) {c : Command}
    (henabled : c.isDisabled = false) :
    t.contribution level c = (t.emit level c).bind (Placement.outcome level c.name) := by
  rw [contribution, if_neg (by simp [henabled])]

/-- The lines of a step are those of the part that the command leaves. -/
theorem step_eq_part (t : Table) (level : Nat) (c : Command) :
    t.step level c = (t.part level c).map fun r => (r.1, r.2.lines) := by
  rw [part]
  cases hd : c.isDisabled with
  | true =>
    rw [step_disabled t level hd, contribution_disabled t level hd]
    rfl
  | false =>
    rw [step, if_neg (by simp [hd]), contribution_enabled t level hd]
    cases t.emit level c with
    | error error => rfl
    | ok e =>
      change (if e = .nothing then _ else _) =
        ((Placement.outcome level c.name e).map _).map _
      by_cases hnothing : e = .nothing
      · subst hnothing
        rw [if_pos rfl, Placement.outcome_nothing]
        simp only [Except.map, firstLevel_nil, Part.lines, List.append_nil]
        rfl
      · rw [if_neg hnothing, Placement.outcome]
        cases Placement.place level c.name e with
        | mk next result =>
          cases result with
          | error error => rfl
          | ok lines => rfl

/-- A command whose emission can be placed leaves its comment at the level of its first line. -/
theorem part_of_emit {t : Table} {level base next : Nat} {c : Command} {e : Emission}
    (henabled : c.isDisabled = false) (hemit : t.emit level c = .ok e)
    (hbase : (base : Int) = level + e.before) (hnext : (next : Int) = base + e.after) :
    t.part level c = .ok (next,
      { command := c
        comment := commentLines (firstLevel level (e.lines.map (Line.shift base))) c.comment
        own := e.lines.map (Line.shift base) }) := by
  rw [part, contribution_enabled t level henabled, hemit]
  change (Placement.outcome level c.name e).map _ = _
  rw [Placement.outcome_eq_ok_iff.mpr ⟨base, hbase, hnext, rfl⟩]
  rfl

theorem step_of_emit {t : Table} {level base next : Nat} {c : Command} {e : Emission}
    (henabled : c.isDisabled = false) (hemit : t.emit level c = .ok e)
    (hbase : (base : Int) = level + e.before) (hnext : (next : Int) = base + e.after) :
    t.step level c = .ok (next,
      commentLines (firstLevel level (e.lines.map (Line.shift base))) c.comment ++
        e.lines.map (Line.shift base)) := by
  rw [step_eq_part, part_of_emit henabled hemit hbase hnext]
  rfl

/-- What a command that is passed has emitted, and where it was placed. -/
theorem emission_of_step {t : Table} {level next : Nat} {c : Command} {lines : List Line}
    (henabled : c.isDisabled = false) (h : t.step level c = .ok (next, lines)) :
    ∃ (e : Emission) (base : Nat), t.emit level c = .ok e ∧ (base : Int) = level + e.before ∧
      (next : Int) = base + e.after ∧
      lines = commentLines (firstLevel level (e.lines.map (Line.shift base))) c.comment ++
        e.lines.map (Line.shift base) := by
  rw [step_eq_part, map_eq_ok_iff] at h
  obtain ⟨⟨_, p⟩, hpart, heq⟩ := h
  cases heq
  rw [part, map_eq_ok_iff] at hpart
  obtain ⟨⟨_, own⟩, hown, heq⟩ := hpart
  cases heq
  rw [contribution_enabled t level henabled, bind_eq_ok_iff] at hown
  obtain ⟨e, hemit, hplaced⟩ := hown
  obtain ⟨base, hbase, hnext, rfl⟩ := Placement.outcome_eq_ok_iff.mp hplaced
  exact ⟨e, base, hemit, hbase, hnext, rfl⟩

/-- The first line of a placed emission stands at the level that the command moves to; a command
without lines does not move. -/
theorem Fits.firstLevel_eq {name : String} {e : Emission} (h : Fits name e) {level base : Nat}
    (hbase : (base : Int) = level + e.before) :
    firstLevel level (e.lines.map (Line.shift base)) = base := by
  by_cases hnothing : e = .nothing
  · subst hnothing
    have hbase' : (base : Int) = level + 0 := hbase
    change level = base
    omega
  · obtain ⟨statement, rest, hlines⟩ := (h.placeable hnothing).first
    rw [hlines, List.map_cons, firstLevel_cons]
    rfl

/-- The lines of commands are those of the parts that they leave. -/
theorem walk_eq_parts (t : Table) (level : Nat) (commands : List Command) :
    t.walk level commands =
      (t.parts level commands).map fun r => (r.1, r.2.flatMap Part.lines) := by
  induction commands generalizing level with
  | nil => rfl
  | cons c rest ih =>
    rw [walk_cons_eq, step_eq_part, parts]
    cases t.part level c with
    | error error => rfl
    | ok first =>
      change t.continued rest (first.1, first.2.lines) =
        ((t.parts first.1 rest).map _).map _
      rw [continued, ih]
      cases t.parts first.1 rest with
      | error error => rfl
      | ok more => rfl

theorem walk_cons_eq_ok_iff {t : Table} {level final : Nat} {c : Command} {rest : List Command}
    {lines : List Line} :
    t.walk level (c :: rest) = .ok (final, lines) ↔
      ∃ next own more, t.step level c = .ok (next, own) ∧ t.walk next rest = .ok (final, more) ∧
        lines = own ++ more := by
  constructor
  · intro h
    rw [walk_cons_eq, bind_eq_ok_iff] at h
    obtain ⟨⟨next, own⟩, hstep, hrest⟩ := h
    rw [continued, map_eq_ok_iff] at hrest
    obtain ⟨⟨final', more⟩, hmore, heq⟩ := hrest
    cases heq
    exact ⟨next, own, more, hstep, hmore, rfl⟩
  · rintro ⟨next, own, more, hstep, hrest, rfl⟩
    exact walk_cons hstep hrest

theorem walk_append_eq_ok_iff {t : Table} {level final : Nat} {first second : List Command}
    {lines : List Line} :
    t.walk level (first ++ second) = .ok (final, lines) ↔
      ∃ mid own more, t.walk level first = .ok (mid, own) ∧
        t.walk mid second = .ok (final, more) ∧ lines = own ++ more := by
  constructor
  · intro h
    rw [walk_append_eq, bind_eq_ok_iff] at h
    obtain ⟨⟨mid, own⟩, hfirst, hsecond⟩ := h
    rw [continued, map_eq_ok_iff] at hsecond
    obtain ⟨⟨final', more⟩, hmore, heq⟩ := hsecond
    cases heq
    exact ⟨mid, own, more, hfirst, hmore, rfl⟩
  · rintro ⟨mid, own, more, hfirst, hsecond, rfl⟩
    exact walk_append hfirst hsecond

theorem renderTest_eq_ok_iff {t : Table} {commands : List Command} {lines : List Line} :
    t.renderTest commands = .ok lines ↔ t.walk 0 commands = .ok (0, lines) := by
  refine ⟨fun h => ?_, renderTest_eq_ok⟩
  cases hwalk : t.walk 0 commands with
  | error error =>
    rw [renderTest_eq_error_of_walk hwalk] at h
    exact nomatch h
  | ok r =>
    obtain ⟨level, more⟩ := r
    by_cases hlevel : level = 0
    · subst hlevel
      rw [renderTest_eq_ok hwalk] at h
      cases h
      rfl
    · rw [renderTest_eq_error_of_level hwalk hlevel] at h
      exact nomatch h

theorem renderTest_eq_parts (t : Table) (commands : List Command) :
    t.renderTest commands =
      (t.parts 0 commands).bind fun r =>
        (Placement.finish r.1 (lastName commands)).map fun _ => r.2.flatMap Part.lines := by
  rw [renderTest, walk_eq_parts]
  cases t.parts 0 commands with
  | error error => rfl
  | ok r =>
    change (Placement.finish r.1 (lastName commands) >>= fun _ => pure _) = Except.map _ _
    cases Placement.finish r.1 (lastName commands) with
    | error error => rfl
    | ok _ => rfl

/-- The parts of a test that is accepted, and its lines in terms of them. -/
theorem parts_of_renderTest {t : Table} {commands : List Command} {lines : List Line}
    (h : t.renderTest commands = .ok lines) :
    ∃ parts, t.parts 0 commands = .ok (0, parts) ∧ lines = parts.flatMap Part.lines := by
  rw [renderTest_eq_ok_iff, walk_eq_parts, map_eq_ok_iff] at h
  obtain ⟨⟨level, parts⟩, hparts, hlines⟩ := h
  cases hlines
  exact ⟨parts, hparts, rfl⟩

end Table

end CestWriter
