import CestWriter.Proofs.BracedVocabulary

/-!
# Indentation and the depth of braces

In a test whose texts are tidy every line stands as deep as braces are open before it, one level
less if it begins by closing one. The comment of a command that ends or divides a block stands next
to the line that closes the block, so it is one level less as well. At the end of the test as many
braces have been closed as were opened.
-/

namespace CestWriter.Braces

open Balance (NeedsBlock)

/-- The lines that a command leaves. Its comment is marked if the command ends or divides a
block. -/
def marked (p : Part) : List (Line × Bool) :=
  p.comment.map (·, decide (NeedsBlock p.command)) ++ unmarked p.own

theorem map_fst_marked (p : Part) : (marked p).map Prod.fst = p.lines := by
  rw [marked, List.map_append, map_fst_unmarked, map_fst_pair]
  rfl

theorem map_fst_flatMap_marked (parts : List Part) :
    (parts.flatMap marked).map Prod.fst = parts.flatMap Part.lines := by
  rw [List.map_flatMap]
  exact congrArg (parts.flatMap ·) (funext map_fst_marked)

/-! ## One command -/

theorem flat_comment {comment : String} (h : Tidy comment.toList) : Flat ("// " ++ comment) :=
  Flat.append (by decide) h.net_eq_zero

theorem netLines_commentLines {comment : String} (h : Tidy comment.toList) (level : Nat) :
    netLines (commentLines level comment) = 0 := by
  rw [commentLines]
  split
  · rfl
  · rw [netLines_cons, netLines_nil, (flat_comment h).2]
    rfl

theorem follows_commentLines {comment : String} (h : Tidy comment.toList) {level : Nat}
    {depth : Int} {mark : Bool} (hlevel : (level : Int) = depth - if mark then 1 else 0) :
    Follows depth ((commentLines level comment).map (·, mark)) := by
  rw [commentLines]
  split
  · trivial
  · refine ⟨?_, trivial⟩
    have houtdent : outdent ("// " ++ comment) mark = if mark then 1 else 0 := by
      cases mark with
      | false => exact outdent_of_leads (flat_comment h).1
      | true => rw [outdent, Bool.or_true]
    rw [houtdent]
    exact hlevel

theorem flat_disabledLine {c : Command} (hc : TidyCommand c) (level : Nat) :
    Flat (disabledLine level c).statement := by
  have hname : net (Text.trimmed (Text.dropLeading '/' c.name)) = 0 := by
    rw [net_trimmed, Text.dropLeading, net_ofList, netOf_dropWhile (by decide) (by decide)]
    exact hc.name.net_eq_zero
  refine Flat.append (by decide) (net_intercalate (by decide) fun part hpart => ?_)
  have hmem := (List.mem_filter.mp hpart).1
  simp only [List.mem_cons, List.not_mem_nil, or_false] at hmem
  rcases hmem with rfl | rfl | rfl
  · exact hname
  · exact hc.target.net_eq_zero
  · exact hc.value.net_eq_zero

/-- The own lines of a command follow the braces, and the level after them is the depth. They begin
one level less than the command stands if the command needs a block. -/
theorem follows_contribution {config : Config} {level next : Nat} {c : Command}
    {own : List Line} (hown : (Table.standard config).contribution level c = .ok (next, own))
    (hc : TidyCommand c) (hwindow : ∀ k : Keyword, c.name = k.name → c.opensWindow = false) :
    Follows level (unmarked own) ∧ (next : Int) = level + netLines own ∧
      (firstLevel level own : Int) = level - if decide (NeedsBlock c) then 1 else 0 := by
  cases hd : c.isDisabled with
  | true =>
    rw [Table.contribution_disabled _ level hd] at hown
    cases hown
    have hflat := flat_disabledLine hc level
    have hneeds : ¬ NeedsBlock c := fun h => Bool.false_ne_true (h.1.symm.trans hd)
    refine ⟨hflat.follows rfl trivial, ?_, ?_⟩
    · rw [netLines_cons, netLines_nil, hflat.2]
      omega
    · rw [if_neg (by simpa using hneeds), Int.sub_zero]
      rfl
  | false =>
    rw [Table.contribution_enabled _ level hd, bind_eq_ok_iff] at hown
    obtain ⟨e, hemit, hplaced⟩ := hown
    obtain ⟨base, hbase, hnext, rfl⟩ := Placement.outcome_eq_ok_iff.mp hplaced
    have hbraced := braced_of_emit hemit hc hwindow
    have hstandard : (Table.standard config).IsStandard := rfl
    have hfits := Table.fits_of_emit hstandard hemit
    refine ⟨?_, ?_, ?_⟩
    · have hshifted := hbraced.follows.shift base
      have hlevel : (base : Int) + -e.before = level := by omega
      rwa [hlevel] at hshifted
    · rw [netLines_shift, hbraced.net_eq]
      omega
    · rw [hfits.firstLevel_eq hbase, hbase, hfits.before_eq]
      simp only [Balance.needsBlock_iff hd, decide_eq_true_eq]
      split
      · next hminus =>
        rw [hminus]
        rfl
      · next hminus =>
        have hzero := (Balance.beforeOf_cases c.name).resolve_right hminus
        omega

theorem follows_part {config : Config} {level next : Nat} {c : Command} {p : Part}
    (hpart : (Table.standard config).part level c = .ok (next, p)) (hc : TidyCommand c)
    (hwindow : ∀ k : Keyword, c.name = k.name → c.opensWindow = false) :
    Follows level (marked p) ∧ (next : Int) = level + netLines p.lines := by
  rw [Table.part, map_eq_ok_iff] at hpart
  obtain ⟨⟨next', own⟩, hown, heq⟩ := hpart
  cases heq
  obtain ⟨hfollows, hnext, hfirst⟩ := follows_contribution hown hc hwindow
  have hcomment := netLines_commentLines hc.comment (firstLevel level own)
  refine ⟨follows_append.mpr ⟨follows_commentLines hc.comment hfirst, ?_⟩, ?_⟩
  · rw [map_fst_pair, hcomment, Int.add_zero]
    exact hfollows
  · rw [Part.lines, netLines_append, hcomment, Int.zero_add]
    exact hnext

/-! ## All commands of a test -/

theorem follows_parts {config : Config} {commands : List Command} {level final : Nat}
    {parts : List Part} (hparts : (Table.standard config).parts level commands = .ok (final, parts))
    (htidy : ∀ c ∈ commands, TidyCommand c)
    (hwindow : ∀ c ∈ commands, ∀ k : Keyword, c.name = k.name → c.opensWindow = false) :
    Follows level (parts.flatMap marked) ∧
      (final : Int) = level + netLines (parts.flatMap Part.lines) := by
  -- the running level is the depth of the braces, before every command and after it
  induction commands generalizing level parts with
  | nil =>
    cases hparts
    exact ⟨trivial, (Int.add_zero _).symm⟩
  | cons c rest ih =>
    rw [List.forall_mem_cons] at htidy hwindow
    rw [Table.parts, bind_eq_ok_iff] at hparts
    obtain ⟨⟨next, first⟩, hfirst, hrest⟩ := hparts
    rw [map_eq_ok_iff] at hrest
    obtain ⟨⟨final', more⟩, hmore, heq⟩ := hrest
    cases heq
    obtain ⟨hfollows, hnext⟩ := follows_part hfirst htidy.1 hwindow.1
    obtain ⟨hfollows', hfinal⟩ := ih hmore htidy.2 hwindow.2
    refine ⟨?_, ?_⟩
    · rw [List.flatMap_cons, follows_append, map_fst_marked, ← hnext]
      exact ⟨hfollows, hfollows'⟩
    · rw [List.flatMap_cons, netLines_append, ← Int.add_assoc, ← hnext]
      exact hfinal

theorem Follows.level_eq {depth : Int} {before after : List (Line × Bool)} {l : Line} {mark : Bool}
    (h : Follows depth (before ++ (l, mark) :: after)) :
    (l.level : Int) = depth + netLines (before.map Prod.fst) - outdent l.statement mark :=
  (follows_append.mp h).2.1

/-- Every line of an accepted test stands as deep as braces are open before it, and one level less
if it begins by closing one or is the comment of a command that ends or divides a block. In all, as
many braces are closed as are opened. -/
theorem renderTest_brace_depth (config : Config) (commands : List Command) (lines : List Line)
    (hok : (Table.standard config).renderTest commands = .ok lines)
    (htidy : ∀ c ∈ commands, TidyCommand c)
    (hwindow : ∀ c ∈ commands, ∀ k : Keyword, c.name = k.name → c.opensWindow = false) :
    ∃ parts, (Table.standard config).parts 0 commands = .ok (0, parts) ∧
      (parts.flatMap marked).map Prod.fst = lines ∧
      (∀ before l closing after, parts.flatMap marked = before ++ (l, closing) :: after →
        (l.level : Int) = netLines (before.map Prod.fst) -
          if closes l.statement || closing then 1 else 0) ∧
      (lines.flatMap fun l => l.statement.toList).count '\x7b' =
        (lines.flatMap fun l => l.statement.toList).count '\x7d' := by
  obtain ⟨parts, hparts, rfl⟩ := Table.parts_of_renderTest hok
  obtain ⟨hfollows, hfinal⟩ := follows_parts hparts htidy hwindow
  refine ⟨parts, hparts, map_fst_flatMap_marked parts, ?_, ?_⟩
  · intro before l closing after hsplit
    rw [hsplit] at hfollows
    have hlevel := hfollows.level_eq
    rwa [Int.natCast_zero, Int.zero_add] at hlevel
  · rw [netLines, netOf] at hfinal
    omega

theorem tidyCommand_of_not_mem {c : Command}
    (h : ∀ s ∈ [c.name, c.comment, c.targetText, c.valueText, c.windowHandleName],
      '\x7b' ∉ s.toList ∧ '\x7d' ∉ s.toList) : TidyCommand c := by
  simp only [List.forall_mem_cons] at h
  obtain ⟨hname, hcomment, htarget, hvalue, hwindow, -⟩ := h
  exact {
    name := tidy_of_not_mem hname.1 hname.2
    comment := tidy_of_not_mem hcomment.1 hcomment.2
    target := tidy_of_not_mem htarget.1 htarget.2
    value := tidy_of_not_mem hvalue.1 hvalue.2
    windowHandleName := tidy_of_not_mem hwindow.1 hwindow.2 }

/-- A condition on a variable. -/
def ifReady : Command :=
  { name := "if", target := some "$\x7bready\x7d", comment := "when ready" }

/-- A callback on the driver, in a step that opens a window. -/
def handleOfMain : Command :=
  { name := "storeWindowHandle", target := some "main", opensWindow := true,
    windowHandleName := "popup" }

def otherwise : Command :=
  { name := "else", comment := "otherwise" }

def disabledClick : Command :=
  { name := "//click", target := some "id=x" }

def annotatedEnd : Command :=
  { name := "end", comment := "done" }

theorem step_annotatedEnd :
    (Table.standard {}).step 1 annotatedEnd = .ok (0, [⟨0, "// done"⟩, ⟨0, "\x7d"⟩]) := by
  have hstandard : (Table.standard {}).IsStandard := rfl
  exact Table.step_of_emit (by decide) (Table.emit_keyword hstandard (k := .endBlock) rfl)
    (show ((0 : Nat) : Int) = (1 : Nat) + -1 by decide) rfl

theorem tidyCommand_ifReady : TidyCommand ifReady where
  name := tidy_of_not_mem (by decide) (by decide)
  comment := tidy_of_not_mem (by decide) (by decide)
  target := by
    have hreference : Text.reference? ifReady.targetText.toList = some ("ready".toList, []) := by
      decide
    intro chars hchars
    rw [Text.Piece.decompose_of_reference hreference, Text.decompose] at hchars
    cases List.mem_singleton.mp hchars
  value := tidy_of_not_mem (by decide) (by decide)
  windowHandleName := tidy_of_not_mem (by decide) (by decide)

/-- A condition with two branches. The first holds a callback between the lines for a window, so
its middle line stands two levels deep; comments stand before all lines of control flow. -/
theorem renderTest_brace_depth_branches :
    ∃ (lines : List Line) (parts : List Part),
      (Table.standard {}).renderTest
        [ifReady, handleOfMain, otherwise, disabledClick, annotatedEnd] = .ok lines ∧
      lines.map Line.level = [0, 0, 1, 1, 2, 1, 1, 0, 0, 1, 0, 0] ∧
      (Table.standard {}).parts 0
        [ifReady, handleOfMain, otherwise, disabledClick, annotatedEnd] = .ok (0, parts) ∧
      (parts.flatMap marked).map Prod.fst = lines ∧
      (∀ before l closing after, parts.flatMap marked = before ++ (l, closing) :: after →
        (l.level : Int) = netLines (before.map Prod.fst) -
          if closes l.statement || closing then 1 else 0) ∧
      (lines.flatMap fun l => l.statement.toList).count '\x7b' =
        (lines.flatMap fun l => l.statement.toList).count '\x7d' := by
  have hstandard : (Table.standard {}).IsStandard := rfl
  have hmain : (handleOfMain.name, Vocabulary.storeWindowHandle) ∈ Vocabulary.standard := by
    simp [Vocabulary.standard, Vocabulary.storing, handleOfMain]
  have hif : (Table.standard {}).step 0 ifReady = .ok (1,
      [⟨0, "// when ready"⟩, ⟨0, "if (" ++ Vocabulary.condition ifReady ++ ") \x7b"⟩]) :=
    Table.step_of_emit (by decide) (Table.emit_keyword hstandard (k := .ifThen) rfl) rfl rfl
  have hhandle : (Table.standard {}).step 1 handleOfMain = .ok (1,
      [⟨1, Vocabulary.snapshotLine.statement⟩,
        ⟨1, Literal.variableOf "main" ++ " = " ++ Emission.callbackOpen⟩,
        ⟨2, "return $webdriver->getWindowHandle();"⟩, ⟨1, Emission.callbackClose⟩,
        ⟨1, (Vocabulary.awaitLine handleOfMain {}).statement⟩]) :=
    Table.step_of_emit (by decide) (Table.emit_of_mem_standard hstandard hmain) rfl rfl
  have helse : (Table.standard {}).step 1 otherwise = .ok (1,
      [⟨0, "// otherwise"⟩, ⟨0, "\x7d else \x7b"⟩]) :=
    Table.step_of_emit (by decide) (Table.emit_keyword hstandard (k := .elseThen) rfl)
      (show ((0 : Nat) : Int) = (1 : Nat) + -1 by decide) rfl
  have hclick : (Table.standard {}).step 1 disabledClick = .ok (1, [disabledLine 1 disabledClick]) :=
    Table.step_disabled _ 1 (by decide)
  have hok := Table.renderTest_eq_ok (Table.walk_cons hif (Table.walk_cons hhandle
    (Table.walk_cons helse (Table.walk_cons hclick (Table.walk_singleton step_annotatedEnd)))))
  have htidy : ∀ c ∈ [ifReady, handleOfMain, otherwise, disabledClick, annotatedEnd],
      TidyCommand c := by
    simp only [List.forall_mem_cons]
    exact ⟨tidyCommand_ifReady, tidyCommand_of_not_mem (by decide),
      tidyCommand_of_not_mem (by decide), tidyCommand_of_not_mem (by decide),
      tidyCommand_of_not_mem (by decide), List.forall_mem_nil _⟩
  have hwindow : ∀ c ∈ [ifReady, handleOfMain, otherwise, disabledClick, annotatedEnd],
      ∀ k : Keyword, c.name = k.name → c.opensWindow = false := by
    simp only [List.forall_mem_cons]
    refine ⟨fun _ _ => rfl, fun k hk => ?_, fun _ _ => rfl, fun _ _ => rfl, fun _ _ => rfl,
      List.forall_mem_nil _⟩
    exact absurd hk (by cases k <;> decide)
  obtain ⟨parts, hparts, hlines, hlevels, hcount⟩ :=
    renderTest_brace_depth {} _ _ hok htidy hwindow
  exact ⟨_, parts, hok, rfl, hparts, hlines, hlevels, hcount⟩

/-- The braces alone do not say where the comment of a command that ends a block stands. -/
theorem comment_level_ne_brace_depth :
    ∃ lines before l after,
      (Table.standard {}).renderTest [{ name := "if", target := some "true" }, annotatedEnd] =
        .ok lines ∧
      (∀ c ∈ [{ name := "if", target := some "true" }, annotatedEnd], TidyCommand c) ∧
      (∀ c ∈ [{ name := "if", target := some "true" }, annotatedEnd], c.opensWindow = false) ∧
      lines = before ++ l :: after ∧
      (l.level : Int) ≠ netLines before - if closes l.statement then 1 else 0 := by
  have hstandard : (Table.standard {}).IsStandard := rfl
  have htidy : TidyCommand { name := "if", target := some "true" } :=
    tidyCommand_of_not_mem (by decide)
  have hif : (Table.standard {}).step 0 { name := "if", target := some "true" } = .ok (1,
      [⟨0, "if (" ++ Vocabulary.condition { name := "if", target := some "true" } ++ ") \x7b"⟩]) :=
    Table.step_of_emit (by decide) (Table.emit_keyword hstandard (k := .ifThen) rfl) rfl rfl
  refine ⟨_, [_], ⟨0, "// done"⟩, [⟨0, "\x7d"⟩],
    Table.renderTest_eq_ok (Table.walk_cons hif (Table.walk_singleton step_annotatedEnd)), ?_, ?_,
    rfl, ?_⟩
  · simp only [List.forall_mem_cons]
    exact ⟨htidy, tidyCommand_of_not_mem (by decide), List.forall_mem_nil _⟩
  · decide
  · rw [netLines_cons, netLines_nil, net_append, net_append, (flat_condition htidy).2]
    decide

end CestWriter.Braces
