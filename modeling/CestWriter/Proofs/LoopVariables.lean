import CestWriter.Proofs.Assignments
import CestWriter.Proofs.MethodNames
import CestWriter.Proofs.Nesting
import CestWriter.Proofs.WindowLines

/-!
# The variables of loops

A loop over a collection or over a number of rounds keeps what it needs in variables that are made
up for it. Their names end in the level at which the loop stands. A loop in the body of another one
stands at a greater level, so none of the variables that are made up for it belongs to the outer
loop.

The lines of a loop also take over what was recorded: the collection or the number of rounds, the
variable that gets the elements, and the variable for a new window. Where these texts assign a
variable of the outer loop, so do the lines of the inner one.
-/

namespace CestWriter.LoopVariables

open Assignments (Use uses)
open Balance (moved levelAfter levelAfter_append walk_level)
open Interpolation (isIdentifier)

/-- The command begins a loop that has variables of its own. -/
def BeginsLoop (c : Command) : Prop :=
  c.isDisabled = false ∧ (c.name = "forEach" ∨ c.name = "times")

/-- The variables that are made up for a loop. -/
def generated (suffix : String) : List String :=
  ["collection_" ++ suffix, "times_" ++ suffix, "i_" ++ suffix]

/-- The lines of a loop at a level, the names of its variables ending in `suffix`. -/
def loopLines (c : Command) (level : Nat) (suffix : String) : List Line :=
  if c.name = "forEach" then
    [⟨level, "$collection_" ++ suffix ++ " = " ++
        Literal.variableOf (Vocabulary.collectionName c) ++ ";"⟩,
      ⟨level, "for ($i_" ++ suffix ++ " = 0; $i_" ++ suffix ++ " < count($collection_" ++ suffix ++
        "); $i_" ++ suffix ++ "++) \x7b"⟩,
      ⟨level + 1, Literal.variableOf c.valueText ++ " = $collection_" ++ suffix ++ "[$i_" ++ suffix ++
        "];"⟩]
  else
    [⟨level, "$times_" ++ suffix ++ " = " ++ floorText (Text.interpolate c.targetText) ++ ";"⟩,
      ⟨level, "for ($i_" ++ suffix ++ " = 0; $i_" ++ suffix ++ " < $times_" ++ suffix ++ "; $i_" ++
        suffix ++ "++) \x7b"⟩]

/-- The texts that the lines of a loop take over from what was recorded: what it goes through, and
the variable that gets the elements, with the equals sign after it. -/
def loopTexts (c : Command) : List String :=
  if c.name = "forEach" then
    [Literal.variableOf (Vocabulary.collectionName c), Literal.variableOf c.valueText ++ " = "]
  else [floorText (Text.interpolate c.targetText)]

/-- The texts that a loop takes over, with the variable for the window that it opens. -/
def recordedTexts (c : Command) : List String :=
  loopTexts c ++ if c.opensWindow then [Literal.variableOf c.windowHandleName ++ " = "] else []

/-- The body of a loop that stands at level `outer`: the commands that follow, as long as the level
after them is above `outer`. -/
def bodyOf (outer level : Int) : List Command → List Command
  | [] => []
  | c :: rest => if outer < moved level c then c :: bodyOf outer (moved level c) rest else []

/-! ## What the lines of a loop use -/

theorem isWord_of_mem_repr {n : Nat} {c : Char} (h : c ∈ n.repr.toList) :
    (c.isAlphanum || c == '_') = true := by
  rw [Nat.toList_repr] at h
  have hdigit : c.isDigit = true := Nat.isDigit_of_mem_toDigits (by decide) (by decide) h
  rw [Char.isAlphanum, hdigit, Bool.or_true, Bool.true_or]

theorem isIdentifier_numbered {stem : String} (hstem : isIdentifier stem.toList = true) (n : Nat) :
    isIdentifier (stem ++ n.repr).toList = true := by
  rw [String.toList_append]
  cases hchars : stem.toList with
  | nil =>
    rw [hchars] at hstem
    cases hstem
  | cons c cs =>
    rw [hchars, isIdentifier, Bool.and_eq_true, List.all_eq_true] at hstem
    rw [List.cons_append, isIdentifier, Bool.and_eq_true, List.all_eq_true]
    refine ⟨hstem.1, fun d hd => ?_⟩
    rcases List.mem_append.mp hd with hd | hd
    · exact hstem.2 d hd
    · exact isWord_of_mem_repr hd

/-- Besides the variables that are made up for it, a loop uses those of the texts that it takes
over. -/
theorem exists_mem_uses_loopLines_iff {c : Command} (level n : Nat) {u : Use}
    (hu : u.subject ∉ generated n.repr) :
    (∃ l ∈ loopLines c level n.repr, u ∈ uses l.statement) ↔
      ∃ s ∈ loopTexts c, u ∈ uses s := by
  have hne := Use.ne_of_subject_not_mem hu
  have hcollection :=
    isIdentifier_numbered (show isIdentifier "collection_".toList = true by decide) n
  have htimes := isIdentifier_numbered (show isIdentifier "times_".toList = true by decide) n
  have hindex := isIdentifier_numbered (show isIdentifier "i_".toList = true by decide) n
  simp only [generated, List.forall_mem_cons] at hne
  obtain ⟨hnecollection, hnetimes, hneindex, -⟩ := hne
  by_cases hname : c.name = "forEach"
  · have hset : "$collection_" ++ n.repr ++ " = " ++
        Literal.variableOf (Vocabulary.collectionName c) ++ ";" =
        "$" ++ ("collection_" ++ n.repr) ++ " = " ++
          Literal.variableOf (Vocabulary.collectionName c) ++ ";" :=
      String.toList_injective (by simp)
    have hhead : "for ($i_" ++ n.repr ++ " = 0; $i_" ++ n.repr ++ " < count($collection_" ++ n.repr ++
        "); $i_" ++ n.repr ++ "++) \x7b" = "for ($" ++ ("i_" ++ n.repr) ++ " = 0; $" ++
          ("i_" ++ n.repr) ++ " < " ++ ("count($" ++ ("collection_" ++ n.repr) ++ ")") ++ "; $" ++
          ("i_" ++ n.repr) ++ "++) \x7b" :=
      String.toList_injective (by simp)
    have helement : Literal.variableOf c.valueText ++ " = $collection_" ++ n.repr ++ "[$i_" ++ n.repr ++
        "];" = Literal.variableOf c.valueText ++ " = $" ++ ("collection_" ++ n.repr) ++ "[$" ++
          ("i_" ++ n.repr) ++ "];" :=
      String.toList_injective (by simp)
    rw [loopLines, if_pos hname, loopTexts, if_pos hname, hset, hhead, helement]
    simp [Assignments.uses_assignment hcollection, Assignments.uses_head hindex,
      Assignments.uses_count hcollection, Assignments.uses_element hcollection hindex, hnecollection,
      hneindex]
  · have hset : "$times_" ++ n.repr ++ " = " ++ floorText (Text.interpolate c.targetText) ++ ";" =
        "$" ++ ("times_" ++ n.repr) ++ " = " ++ floorText (Text.interpolate c.targetText) ++ ";" :=
      String.toList_injective (by simp)
    have hhead : "for ($i_" ++ n.repr ++ " = 0; $i_" ++ n.repr ++ " < $times_" ++ n.repr ++ "; $i_" ++
        n.repr ++ "++) \x7b" = "for ($" ++ ("i_" ++ n.repr) ++ " = 0; $" ++ ("i_" ++ n.repr) ++ " < " ++
          ("$" ++ ("times_" ++ n.repr)) ++ "; $" ++ ("i_" ++ n.repr) ++ "++) \x7b" :=
      String.toList_injective (by simp)
    rw [loopLines, if_neg hname, loopTexts, if_neg hname, hset, hhead]
    simp [Assignments.uses_assignment htimes, Assignments.uses_head hindex,
      Assignments.uses_variable htimes, hnetimes, hneindex]

/-- The variables of the lines around a command that opens a window, its handle apart. -/
def windowVariables : List String :=
  ["windowHandles", "I", "webdriver", "this"]

theorem uses_snapshotStatement : uses snapshotStatement =
    [.names "windowHandles", .assigns "windowHandles", .names "I", .names "webdriver",
      .names "webdriver"] := by
  decide +kernel

theorem exists_mem_uses_linesWithWindow_iff {c : Command} (henabled : c.isDisabled = false)
    (config : Config) {lines : List Line} (hlines : lines ≠ []) {u : Use}
    (hu : u.subject ∉ windowVariables) :
    (∃ l ∈ linesWithWindow config c lines, u ∈ uses l.statement) ↔
      (∃ l ∈ lines, u ∈ uses l.statement) ∨
        c.opensWindow = true ∧ u ∈ uses (Literal.variableOf c.windowHandleName ++ " = ") := by
  obtain ⟨first, rest, rfl⟩ := List.exists_cons_of_ne_nil hlines
  have hne := Use.ne_of_subject_not_mem hu
  simp only [windowVariables, List.forall_mem_cons] at hne
  obtain ⟨hhandles, hdriver, hweb, hthis, -⟩ := hne
  have hdigits : ∀ n : Nat, ∀ d ∈ n.repr.toList, Interpolation.isNameChar d = true :=
    fun _ _ hd => Interpolation.isNameChar_of_word (isWord_of_mem_repr hd)
  rw [linesWithWindow]
  by_cases hopens : c.opensWindow = true
  · rw [if_pos ⟨henabled, hopens⟩]
    simp [uses_snapshotStatement, Assignments.uses_await _ (hdigits _), hopens, hhandles, hdriver,
      hweb, hthis, Literal.variableOf, or_assoc]
  · rw [if_neg fun hboth => hopens hboth.2]
    simp [hopens]

theorem stems_ne (s s' : String) :
    "collection_" ++ s ≠ "times_" ++ s' ∧ "collection_" ++ s ≠ "i_" ++ s' ∧
      "times_" ++ s ≠ "i_" ++ s' := by
  refine ⟨fun heq => ?_, fun heq => ?_, fun heq => ?_⟩
  all_goals
    have hlist := congrArg String.toList heq
    simp at hlist

/-- Loops at different levels share no variables. -/
theorem not_mem_generated {d e : Nat} (hne : d ≠ e) {name : String}
    (h : name ∈ generated d.repr) : name ∉ generated e.repr := by
  have hinj : ∀ stem, stem ++ d.repr ≠ stem ++ e.repr := fun stem heq =>
    hne (MethodName.numbered_name_inj heq)
  obtain ⟨hct, hci, hti⟩ := stems_ne d.repr e.repr
  obtain ⟨htc, hic, hit⟩ := stems_ne e.repr d.repr
  simp only [generated, List.mem_cons, List.not_mem_nil, or_false, not_or] at h ⊢
  rcases h with rfl | rfl | rfl
  · exact ⟨hinj _, hct, hci⟩
  · exact ⟨htc.symm, hinj _, hti⟩
  · exact ⟨hic.symm, hit.symm, hinj _⟩

theorem not_mem_windowVariables {s name : String} (h : name ∈ generated s) :
    name ∉ windowVariables := by
  simp only [generated, windowVariables, List.mem_cons, List.not_mem_nil, or_false, not_or] at h ⊢
  rcases h with rfl | rfl | rfl
  all_goals
    refine ⟨fun heq => ?_, fun heq => ?_, fun heq => ?_, fun heq => ?_⟩
    all_goals
      have hlist := congrArg String.toList heq
      simp at hlist

theorem loopLines_ne_nil (c : Command) (level : Nat) (suffix : String) :
    loopLines c level suffix ≠ [] := by
  unfold loopLines
  split
  all_goals exact List.cons_ne_nil _ _

/-- A loop uses a variable of a loop at another level exactly where a text that it takes over
does. -/
theorem exists_mem_uses_iff {c : Command} (henabled : c.isDisabled = false) (config : Config)
    (level : Nat) {d e : Nat} (hne : d ≠ e) {u : Use} (hu : u.subject ∈ generated d.repr) :
    (∃ l ∈ linesWithWindow config c (loopLines c level e.repr), u ∈ uses l.statement) ↔
      ∃ s ∈ recordedTexts c, u ∈ uses s := by
  rw [exists_mem_uses_linesWithWindow_iff henabled config (loopLines_ne_nil c level e.repr)
    (not_mem_windowVariables hu), exists_mem_uses_loopLines_iff level e (not_mem_generated hne hu),
    recordedTexts]
  by_cases hopens : c.opensWindow = true
  · simp [hopens, or_and_right, exists_or]
  · simp [hopens]

/-- A loop over a collection whose recorded names are identifiers assigns, of the variables of a
loop at another level, the one that was recorded for the elements. -/
theorem exists_assigns_iff {c : Command} (henabled : c.isDisabled = false) (config : Config)
    (level : Nat) {d e : Nat} (hne : d ≠ e) (hname : c.name = "forEach")
    (hcollection : isIdentifier (Vocabulary.collectionName c).toList = true)
    (hvalue : isIdentifier c.valueText.toList = true) (hopens : c.opensWindow = false)
    {name : String} (hgenerated : name ∈ generated d.repr) :
    (∃ l ∈ linesWithWindow config c (loopLines c level e.repr),
      Use.assigns name ∈ uses l.statement) ↔ name = c.valueText := by
  rw [exists_mem_uses_iff henabled config level hne (u := .assigns name) hgenerated, recordedTexts,
    loopTexts, if_pos hname, hopens]
  simp [Literal.variableOf, Assignments.uses_variable hcollection, Assignments.uses_target hvalue]

/-! ## Where loops stand -/

theorem keyword_of_beginsLoop {c : Command} (h : BeginsLoop c) :
    ∃ k : Keyword, c.name = k.name ∧ k.before = 0 ∧ k.after = 1 ∧
      ∀ level : Nat, (Vocabulary.keywordLines c level k).map (Line.shift level) =
        loopLines c level level.repr := by
  rcases h with ⟨-, hname | hname⟩
  · refine ⟨.forEach, hname, rfl, rfl, fun level => ?_⟩
    rw [loopLines, if_pos hname]
    rfl
  · have hother : c.name ≠ "forEach" := by
      rw [hname]
      decide
    refine ⟨.times, hname, rfl, rfl, fun level => ?_⟩
    rw [loopLines, if_neg hother]
    rfl

/-- A loop is placed at the running level, which is the end of the names of its variables. -/
theorem step_loop {t : Table} (ht : t.IsStandard) {c : Command} (h : BeginsLoop c) (d : Nat) :
    t.step d c = .ok (d + 1,
      commentLines d c.comment ++ linesWithWindow t.config c (loopLines c d d.repr)) := by
  obtain ⟨k, hname, hbefore, hafter, hlines⟩ := keyword_of_beginsLoop h
  have hemit : t.emit d c = _ := Table.emit_keyword ht hname
  have hbase : (d : Int) = d + Keyword.beforeOf c.name := by
    rw [hname, Keyword.beforeOf_name, hbefore, Int.add_zero]
  have hnext : ((d + 1 : Nat) : Int) = d + Keyword.afterOf c.name := by
    rw [hname, Keyword.afterOf_name, hafter]
    rfl
  have hstep := Table.step_emit_ok h.1 hemit (Table.fits_of_emit ht hemit) hbase hnext
  have hplaceable := Vocabulary.placeable_keywordLines c d k
  rw [hstep, Vocabulary.map_shift_withWindow (e := .block (Vocabulary.keywordLines c d k) _ _) h.1
    t.config (fun _ => hplaceable), Emission.lines, hlines]

theorem moved_loop (level : Int) {c : Command} (h : BeginsLoop c) : moved level c = level + 1 := by
  obtain ⟨k, hname, hbefore, hafter, -⟩ := keyword_of_beginsLoop h
  rw [Balance.moved_enabled level h.1, hname, Keyword.beforeOf_name, Keyword.afterOf_name, hbefore,
    hafter, Int.add_zero]

theorem bodyOf_prefix (outer level : Int) (commands : List Command) :
    bodyOf outer level commands <+: commands := by
  induction commands generalizing level with
  | nil => exact List.prefix_rfl
  | cons c rest ih =>
    rw [bodyOf]
    split
    · exact List.prefix_cons_inj c |>.mpr (ih (moved level c))
    · exact List.nil_prefix

/-- A command in the body of a loop is met at a level above that of the loop. -/
theorem level_in_bodyOf {outer level : Int} {commands inner more : List Command} {c : Command}
    (hlevel : outer < level) (h : bodyOf outer level commands = inner ++ c :: more) :
    outer < levelAfter level inner := by
  induction commands generalizing level inner with
  | nil => simp [bodyOf] at h
  | cons b commands ih =>
    rw [bodyOf] at h
    split at h
    · next habove =>
      cases inner with
      | nil => exact hlevel
      | cons b' inner =>
        obtain ⟨rfl, htail⟩ := List.cons.inj h
        have hrest : outer < levelAfter (moved level b) inner := ih habove htail
        exact hrest
    · simp at h

/-- Where the loops of an accepted test stand, and what they are called. -/
theorem loop_of_walk {t : Table} (ht : t.IsStandard) {commands before after : List Command}
    {c : Command} {lines : List Line} (hwalk : t.walk 0 commands = .ok (0, lines))
    (hsplit : commands = before ++ c :: after) (hloop : BeginsLoop c) :
    ∃ (d : Nat) (first rest : List Line), t.walk 0 before = .ok (d, first) ∧
      (d : Int) = levelAfter 0 before ∧
      lines = first ++ (commentLines d c.comment ++
        linesWithWindow t.config c (loopLines c d d.repr)) ++ rest := by
  subst hsplit
  obtain ⟨d, first, second, hbefore, hrest, rfl⟩ := Table.walk_append_eq_ok_iff.mp hwalk
  obtain ⟨next, own, rest, hstep, -, rfl⟩ := Table.walk_cons_eq_ok_iff.mp hrest
  rw [step_loop ht hloop] at hstep
  cases hstep
  refine ⟨d, first, rest, hbefore, walk_level ht hbefore, ?_⟩
  simp only [List.append_assoc]

/-- In a test that is accepted, a loop that is met at level `d` has variables that end in `d`, and
its head stands at level `d`. A loop in its body is met at another level, so the variables that are
made up for the two differ. The lines of the inner loop name or assign a variable of the outer one
exactly where a text that was recorded for it does. If names were recorded for its collection and
its elements, that is so exactly if the variable for the elements is one of the outer loop. -/
theorem renderTest_loop_variables (config : Config) (resolver : Resolver)
    (commands : List Command) (lines : List Line)
    (hok : ((Table.standard config).withResolver resolver).renderTest commands = .ok lines) :
    (∀ before c after, commands = before ++ c :: after → BeginsLoop c →
      ∃ (d : Nat) (first rest : List Line),
        ((Table.standard config).withResolver resolver).walk 0 before = .ok (d, first) ∧
        (d : Int) = levelAfter 0 before ∧
        lines = first ++ (commentLines d c.comment ++
          linesWithWindow config c (loopLines c d d.repr)) ++ rest) ∧
    (∀ before c following inner c' more, commands = before ++ c :: following →
      BeginsLoop c → BeginsLoop c' →
      bodyOf (levelAfter 0 before) (levelAfter 0 (before ++ [c])) following =
        inner ++ c' :: more →
      ∃ d e : Nat, (d : Int) = levelAfter 0 before ∧
        (e : Int) = levelAfter 0 (before ++ c :: inner) ∧ d.repr ≠ e.repr ∧
        (∀ name ∈ generated d.repr, name ∉ generated e.repr) ∧
        (∀ name ∈ generated d.repr, ∀ u ∈ [Use.names name, Use.assigns name],
          ((∃ l ∈ linesWithWindow config c' (loopLines c' e e.repr), u ∈ uses l.statement) ↔
            ∃ s ∈ recordedTexts c', u ∈ uses s)) ∧
        (c'.name = "forEach" → isIdentifier (Vocabulary.collectionName c').toList = true →
          isIdentifier c'.valueText.toList = true → c'.opensWindow = false →
          ∀ name ∈ generated d.repr,
            ((∃ l ∈ linesWithWindow config c' (loopLines c' e e.repr),
              Use.assigns name ∈ uses l.statement) ↔ name = c'.valueText))) := by
  have ht := Table.isStandard_withResolver config resolver
  have hwalk := Table.renderTest_eq_ok_iff.mp hok
  refine ⟨fun before c after hsplit hloop => loop_of_walk ht hwalk hsplit hloop, ?_⟩
  intro before c following inner c' more hsplit hloop hloop' hbody
  obtain ⟨d, -, -, -, hd, -⟩ := loop_of_walk ht hwalk hsplit hloop
  -- the inner loop is a command of the test as well, after the outer one and the commands between
  obtain ⟨rest, hfollowing⟩ := bodyOf_prefix (levelAfter 0 before)
    (levelAfter 0 (before ++ [c])) following
  have hsplit' : commands = (before ++ c :: inner) ++ c' :: (more ++ rest) := by
    rw [hsplit, ← hfollowing, hbody]
    simp
  obtain ⟨e, -, -, -, he, -⟩ := loop_of_walk ht hwalk hsplit' hloop'
  have hlevel : levelAfter 0 (before ++ [c]) = levelAfter 0 before + 1 := by
    rw [levelAfter_append]
    exact moved_loop _ hloop
  have hbelow : levelAfter 0 before < levelAfter (levelAfter 0 (before ++ [c])) inner :=
    level_in_bodyOf (by rw [hlevel]; exact Int.lt_succ _) hbody
  rw [← levelAfter_append, List.append_assoc, List.singleton_append, ← hd, ← he] at hbelow
  have hne : d ≠ e := by omega
  have hsuffix : d.repr ≠ e.repr := fun heq =>
    hne (MethodName.numbered_name_inj (congrArg ("i_" ++ ·) heq))
  refine ⟨d, e, hd, he, hsuffix, fun name => not_mem_generated hne, fun name hname u hu => ?_,
    fun hforEach hcollection hvalue hopens name => ?_⟩
  · have hsubject : u.subject ∈ generated d.repr := by
      rw [List.mem_cons, List.mem_singleton] at hu
      rcases hu with rfl | rfl
      all_goals exact hname
    exact exists_mem_uses_iff hloop'.1 config e hne hsubject
  · exact exists_assigns_iff hloop'.1 config e hne hforEach hcollection hvalue hopens

/-- A loop over rows. -/
def outerLoop : Command :=
  { name := "forEach", target := some "rows", value := some "row" }

/-- A loop over two rounds. -/
def innerLoop : Command :=
  { name := "times", target := some "2" }

/-- A command of control flow of which nothing but the name is recorded. -/
def bare (k : Keyword) : Keyed k :=
  ⟨{ name := k.name }, rfl⟩

/-- The one loop inside the other, in the second branch of a conditional. -/
def nestedLoops : Forest :=
  .cons (.loop .forEach ⟨outerLoop, rfl⟩
    (.cons (.conditional ⟨{ name := "if", target := some "true" }, rfl⟩ .nil
      (.elseThen (bare .elseThen) (.cons (.loop .times ⟨innerLoop, rfl⟩ .nil (bare .endBlock)) .nil)
        (bare .endBlock))) .nil)
    (bare .endBlock)) .nil

theorem floorText_innerLoop : floorText (Text.interpolate innerLoop.targetText) = "2" := by
  rw [Text.interpolate, Text.Piece.decompose_of_not_mem (by decide) (by decide)]
  decide

theorem loopLines_innerLoop : loopLines innerLoop 2 "2" =
    [⟨2, "$times_2 = 2;"⟩, ⟨2, "for ($i_2 = 0; $i_2 < $times_2; $i_2++) \x7b"⟩] := by
  rw [loopLines, floorText_innerLoop]
  decide

theorem renderTest_nestedLoops :
    ∃ lines, ((Table.standard {}).withResolver .standard).renderTest nestedLoops.commands =
        .ok lines ∧
      (∃ first rest, lines = first ++ loopLines innerLoop 2 "2" ++ rest) ∧
      loopLines innerLoop 2 "2" =
        [⟨2, "$times_2 = 2;"⟩, ⟨2, "for ($i_2 = 0; $i_2 < $times_2; $i_2++) \x7b"⟩] ∧
      ∀ l ∈ loopLines innerLoop 2 "2", ∀ name ∈ ["collection_0", "times_0", "i_0"],
        Use.names name ∉ uses l.statement ∧ Use.assigns name ∉ uses l.statement := by
  have ht := Table.isStandard_withResolver {} .standard
  have hemits : ∀ c ∈ nestedLoops.commands, c.isDisabled = false →
      ((Table.standard {}).withResolver .standard).Emits c := by
    intro c hc henabled
    simp only [nestedLoops, Forest.commands, Tree.commands, Branches.commands, List.nil_append,
      List.cons_append, List.append_nil, List.mem_cons, List.not_mem_nil, or_false] at hc
    rcases hc with rfl | rfl | rfl | rfl | rfl | rfl | rfl
    · exact Table.emits_keyword ht (k := .forEach) rfl
    · exact Table.emits_keyword ht (k := .ifThen) rfl
    · exact Table.emits_keyword ht (k := .elseThen) rfl
    · exact Table.emits_keyword ht (k := .times) rfl
    · exact Table.emits_keyword ht (k := .endBlock) rfl
    · exact Table.emits_keyword ht (k := .endBlock) rfl
    · exact Table.emits_keyword ht (k := .endBlock) rfl
  have hok := Table.renderTest_eq_ok (Table.walk_forest ht 0 nestedLoops hemits)
  have hcommands : nestedLoops.commands =
      [] ++ outerLoop :: [{ name := "if", target := some "true" }, { name := "else" }, innerLoop,
        { name := "end" }, { name := "end" }, { name := "end" }] := by
    simp only [nestedLoops, Forest.commands, Tree.commands, Branches.commands]
    rfl
  have houter : BeginsLoop outerLoop := ⟨by decide, .inl rfl⟩
  have hinner : BeginsLoop innerLoop := ⟨by decide, .inr rfl⟩
  obtain ⟨hheaders, hapart⟩ := renderTest_loop_variables {} .standard _ _ hok
  obtain ⟨d, e, hd, he, -, -, huses, -⟩ := hapart [] outerLoop _
    [{ name := "if", target := some "true" }, { name := "else" }] innerLoop
    [{ name := "end" }, { name := "end" }] hcommands houter hinner (by decide +kernel)
  obtain ⟨e', first, rest, -, he', hlines⟩ := hheaders
    [outerLoop, { name := "if", target := some "true" }, { name := "else" }] innerLoop _ hcommands
    hinner
  have hzero : d = 0 := Int.ofNat_inj.mp (hd.trans (by decide +kernel))
  have htwo : e = 2 := Int.ofNat_inj.mp (he.trans (by decide +kernel))
  have htwo' : e' = 2 := Int.ofNat_inj.mp (he'.trans (by decide +kernel))
  subst hzero htwo htwo'
  have hnone : ∀ u : Use, ¬ ∃ s ∈ recordedTexts innerLoop, u ∈ uses s := by
    rintro u ⟨s, hs, hu⟩
    have htexts : recordedTexts innerLoop = ["2"] := by
      rw [recordedTexts, loopTexts, floorText_innerLoop]
      rfl
    rw [htexts, List.mem_singleton] at hs
    subst hs
    rw [Assignments.uses_of_not_mem (by decide)] at hu
    exact List.not_mem_nil hu
  refine ⟨_, hok, ⟨first, rest, hlines⟩, loopLines_innerLoop, fun l hl name hname => ⟨?_, ?_⟩⟩
  · exact fun hu => hnone _ ((huses name hname _ (by simp)).mp ⟨l, hl, hu⟩)
  · exact fun hu => hnone _ ((huses name hname _ (by simp)).mp ⟨l, hl, hu⟩)

/-- A loop whose elements go to the variable that counts the loop around it. -/
def counterLoop : Command :=
  { name := "forEach", target := some "cols", value := some "i_0" }

/-- The elements of an inner loop overwrite the counter of the loop around it. -/
theorem renderTest_counterLoop :
    ((Table.standard {}).withResolver .standard).renderTest
        [outerLoop, counterLoop, { name := "end" }, { name := "end" }] = .ok
      [⟨0, "$collection_0 = $rows;"⟩,
        ⟨0, "for ($i_0 = 0; $i_0 < count($collection_0); $i_0++) \x7b"⟩,
        ⟨1, "$row = $collection_0[$i_0];"⟩,
        ⟨1, "$collection_1 = $cols;"⟩,
        ⟨1, "for ($i_1 = 0; $i_1 < count($collection_1); $i_1++) \x7b"⟩,
        ⟨2, "$i_0 = $collection_1[$i_1];"⟩,
        ⟨1, "\x7d"⟩, ⟨0, "\x7d"⟩] ∧
      bodyOf (levelAfter 0 []) (levelAfter 0 [outerLoop])
        [counterLoop, { name := "end" }, { name := "end" }] = [counterLoop, { name := "end" }] ∧
      "i_0" ∈ generated (Nat.repr 0) ∧ Use.assigns "i_0" ∈ uses "$i_0 = $collection_1[$i_1];" := by
  have ht := Table.isStandard_withResolver {} .standard
  have hend : ∀ n : Nat, ((Table.standard {}).withResolver .standard).step (n + 1) { name := "end" } =
      .ok (n, [⟨n, "\x7d"⟩]) := by
    intro n
    have hlevel : (n : Int) = (n + 1 : Nat) + Keyword.endBlock.before := by
      change (n : Int) = (n + 1 : Nat) + -1
      omega
    exact Table.step_of_emit (by decide) (Table.emit_keyword ht (k := .endBlock) rfl) hlevel rfl
  have hrows : Vocabulary.collectionName outerLoop = "rows" := by
    rw [Vocabulary.collectionName, Text.interpolate,
      Text.Piece.decompose_of_not_mem (by decide) (by decide)]
    decide
  have hcols : Vocabulary.collectionName counterLoop = "cols" := by
    rw [Vocabulary.collectionName, Text.interpolate,
      Text.Piece.decompose_of_not_mem (by decide) (by decide)]
    decide
  have houter := step_loop ht (show BeginsLoop outerLoop from ⟨by decide, .inl rfl⟩) 0
  have hinner := step_loop ht (show BeginsLoop counterLoop from ⟨by decide, .inl rfl⟩) 1
  rw [loopLines, hrows] at houter
  rw [loopLines, hcols] at hinner
  refine ⟨?_, by decide +kernel, by decide, by decide⟩
  rw [Table.renderTest_eq_ok (Table.walk_cons houter (Table.walk_cons hinner
    (Table.walk_cons (hend 1) (Table.walk_singleton (hend 0)))))]
  refine congrArg Except.ok ?_
  decide

end CestWriter.LoopVariables
