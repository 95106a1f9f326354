import CestWriter.Proofs.ClassMembers
import CestWriter.Proofs.Cuts
import CestWriter.Proofs.Trimming
import CestWriter.Proofs.Walk

/-!
# Disabled commands as comments

A disabled command leaves its comment and a line that names it, both as comments of one line. The
recorded text in them is not looked at, so a line feed in it ends the comment. All lines of a test
of disabled commands are comments exactly when the lines after such line feeds are comments of
their own accord.
-/

namespace CestWriter

/-! ## Comments -/

/-- The line is a comment, after spaces and tabs. -/
def IsComment (line : List Char) : Prop :=
  "//".toList <+: line.dropWhile fun c => c == ' ' || c == '\t'

instance (line : List Char) : Decidable (IsComment line) :=
  inferInstanceAs (Decidable (_ <+: _))

/-- All lines of the text are empty or comments. -/
def AllComments (text : List Char) : Prop :=
  ∀ line ∈ Text.pieces '\n' text, line ≠ [] → IsComment line

/-- All lines of the text after its first are empty or comments. -/
def ContinuesAsComment (text : String) : Prop :=
  ∀ line ∈ (Text.pieces '\n' text.toList).tail, line ≠ [] → IsComment line

instance (text : List Char) : Decidable (AllComments text) :=
  inferInstanceAs (Decidable (∀ line ∈ _, _ → _))

instance (text : String) : Decidable (ContinuesAsComment text) :=
  inferInstanceAs (Decidable (∀ line ∈ _, _ → _))

/-- What the line of a disabled command says of it. -/
def disabledText (c : Command) : String :=
  " ".intercalate ([Text.trimmed (Text.dropLeading '/' c.name), c.targetText, c.valueText].filter
    (!·.isEmpty))

theorem continuesAsComment_of_not_mem {text : String} (h : '\n' ∉ text.toList) :
    ContinuesAsComment text := by
  rw [ContinuesAsComment, Text.pieces_of_not_mem h]
  exact fun line hline => nomatch hline

/-- After the beginning of a comment, only the further lines of a text matter. -/
theorem allComments_append_iff {start : List Char} (hstart : "//".toList <+: start)
    (hline : '\n' ∉ start) (text : String) :
    AllComments (start ++ text.toList) ↔ ContinuesAsComment text := by
  obtain ⟨first, rest, hpieces⟩ :=
    List.exists_cons_of_ne_nil (Text.pieces_ne_nil '\n' text.toList)
  have hfirst : IsComment (start ++ first) := by
    obtain ⟨more, rfl⟩ := hstart
    exact ⟨more ++ first, rfl⟩
  rw [AllComments, ContinuesAsComment, Text.pieces_append_of_not_mem hline hpieces, hpieces,
    List.forall_mem_cons, List.tail_cons]
  exact ⟨And.right, fun hrest => ⟨fun _ => hfirst, hrest⟩⟩

theorem allComments_commentLines_iff (level : Nat) (comment : String) :
    (∀ l ∈ commentLines level comment, AllComments l.statement.toList) ↔
      ContinuesAsComment comment := by
  unfold commentLines
  split
  · next hempty =>
    rw [String.isEmpty_iff] at hempty
    subst hempty
    exact iff_of_true (fun l hl => nomatch hl) (continuesAsComment_of_not_mem (by simp))
  · rw [List.forall_mem_singleton, String.toList_append]
    exact allComments_append_iff (by decide) (by decide) comment

theorem allComments_disabledLine_iff (level : Nat) (c : Command) :
    AllComments (disabledLine level c).statement.toList ↔ ContinuesAsComment (disabledText c) := by
  rw [disabledLine, String.toList_append]
  exact allComments_append_iff (by decide) (by decide) (disabledText c)

/-- A disabled command whose name, target and value hold no line feed leaves a line without one. -/
theorem newline_not_mem_disabledText {c : Command} (hname : '\n' ∉ c.name.toList)
    (htarget : '\n' ∉ c.targetText.toList) (hvalue : '\n' ∉ c.valueText.toList) :
    '\n' ∉ (disabledText c).toList := by
  apply Text.not_mem_intercalate (by decide)
  intro part hpart
  have hmem := (List.mem_filter.mp hpart).1
  simp only [List.mem_cons, List.not_mem_nil, or_false] at hmem
  rcases hmem with rfl | rfl | rfl
  · intro hnewline
    exact hname (Text.mem_of_mem_dropLeading (Text.mem_of_mem_trimmed hnewline))
  · exact htarget
  · exact hvalue

/-! ## Tests of disabled commands -/

/-- The lines that a disabled command leaves at a level. -/
def disabledLines (level : Nat) (c : Command) : List Line :=
  commentLines level c.comment ++ [disabledLine level c]

theorem Table.walk_disabled (t : Table) (level : Nat) {commands : List Command}
    (h : ∀ c ∈ commands, c.isDisabled = true) :
    t.walk level commands = .ok (level, commands.flatMap (disabledLines level)) := by
  induction commands with
  | nil => rfl
  | cons c commands ih =>
    rw [List.forall_mem_cons] at h
    exact walk_cons (step_disabled t level h.1) (ih h.2)

theorem renderTest_disabled (t : Table) {commands : List Command}
    (h : ∀ c ∈ commands, c.isDisabled = true) :
    t.renderTest commands = .ok (commands.flatMap (disabledLines 0)) :=
  Table.renderTest_eq_ok (t.walk_disabled 0 h)

/-- The lines of disabled commands stand at level zero and are not empty, so they are written
without indentation. -/
theorem render_of_mem_disabledLines (unit : String) {c : Command} {l : Line}
    (h : l ∈ disabledLines 0 c) : l.render unit = l.statement := by
  rcases List.mem_append.mp h with hcomment | hdisabled
  · unfold commentLines at hcomment
    split at hcomment
    · exact nomatch hcomment
    · rw [List.mem_singleton] at hcomment
      subst hcomment
      exact Exporter.render_at_zero (by simp) unit
  · rw [List.mem_singleton] at hdisabled
    subst hdisabled
    exact Exporter.render_at_zero (by simp) unit

theorem toList_renderLines_disabled (unit : String) (commands : List Command) :
    (renderLines unit (commands.flatMap (disabledLines 0))).toList =
      ['\n'].intercalate ((commands.flatMap (disabledLines 0)).map (·.statement.toList)) := by
  rw [renderLines, String.toList_intercalate, List.map_map]
  congr 1
  apply List.map_congr_left
  intro l hl
  obtain ⟨c, -, hc⟩ := List.mem_flatMap.mp hl
  rw [Function.comp_apply, render_of_mem_disabledLines unit hc]

theorem allComments_intercalate_iff (parts : List (List Char)) :
    AllComments (['\n'].intercalate parts) ↔ ∀ part ∈ parts, AllComments part := by
  cases parts with
  | nil => exact iff_of_true (by decide) (fun part hpart => nomatch hpart)
  | cons part parts =>
    rw [AllComments, Text.pieces_intercalate '\n' (List.cons_ne_nil part parts)]
    simp only [List.mem_flatMap, AllComments]
    constructor
    · intro h part' hpart' line hline
      exact h line ⟨part', hpart', hline⟩
    · rintro h line ⟨part', hpart', hline⟩
      exact h part' hpart' line hline

theorem allComments_disabledLines_iff (c : Command) :
    (∀ l ∈ disabledLines 0 c, AllComments l.statement.toList) ↔
      ContinuesAsComment c.comment ∧ ContinuesAsComment (disabledText c) := by
  rw [disabledLines, List.forall_mem_append, allComments_commentLines_iff,
    List.forall_mem_singleton, allComments_disabledLine_iff]

/-- A test of disabled commands can always be rendered. Its lines are all comments exactly when the
comment of every command, and what is said of the command, go on as comments after their line
feeds; they do if there are no line feeds in what was recorded. -/
theorem renderTest_disabled_comments_iff (t : Table) (commands : List Command)
    (hdisabled : ∀ c ∈ commands, c.isDisabled = true) (unit : String) :
    ∃ lines, t.renderTest commands = .ok lines ∧
      (AllComments (renderLines unit lines).toList ↔
        ∀ c ∈ commands, ContinuesAsComment c.comment ∧ ContinuesAsComment (disabledText c)) ∧
      ((∀ c ∈ commands, '\n' ∉ c.comment.toList ∧ '\n' ∉ c.name.toList ∧
          '\n' ∉ c.targetText.toList ∧ '\n' ∉ c.valueText.toList) →
        AllComments (renderLines unit lines).toList) := by
  have hiff : AllComments (renderLines unit (commands.flatMap (disabledLines 0))).toList ↔
      ∀ c ∈ commands, ContinuesAsComment c.comment ∧ ContinuesAsComment (disabledText c) := by
    rw [toList_renderLines_disabled, allComments_intercalate_iff]
    simp only [← allComments_disabledLines_iff, List.forall_mem_map, List.mem_flatMap]
    constructor
    · intro h c hc l hl
      exact h l ⟨c, hc, hl⟩
    · rintro h l ⟨c, hc, hl⟩
      exact h c hc l hl
  refine ⟨_, renderTest_disabled t hdisabled, hiff, fun hplain => hiff.mpr fun c hc => ?_⟩
  obtain ⟨hcomment, hname, htarget, hvalue⟩ := hplain c hc
  exact ⟨continuesAsComment_of_not_mem hcomment,
    continuesAsComment_of_not_mem (newline_not_mem_disabledText hname htarget hvalue)⟩

/-- A disabled command with a comment, and one whose comment has a second line that is a comment. -/
def disabledCommands : List Command :=
  [{ name := "//type", target := some "id=q", value := some "x", comment := "later" },
    { name := "// click", comment := "not now\n  // nor here" }]

theorem renderTest_disabledCommands_comments :
    (∀ c ∈ disabledCommands, c.isDisabled = true) ∧
    ∃ lines, (Table.standard {}).renderTest disabledCommands = .ok lines ∧
      AllComments (renderLines "\t" lines).toList := by
  have hdisabled : ∀ c ∈ disabledCommands, c.isDisabled = true := by decide
  obtain ⟨lines, hlines, hiff, -⟩ :=
    renderTest_disabled_comments_iff (Table.standard {}) disabledCommands hdisabled "\t"
  refine ⟨hdisabled, lines, hlines, hiff.mpr ?_⟩
  decide

/-- The second line of the comment on a disabled command is not a comment. -/
theorem renderTest_disabled_brokenComment :
    ∃ lines, (Table.standard {}).renderTest [{ name := "//click", comment := "a\nb" }] =
        .ok lines ∧
      lines = [⟨0, "// a\nb"⟩, ⟨0, "// disabled: click"⟩] ∧
      ['b'] ∈ Text.pieces '\n' (renderLines "    " lines).toList ∧ ¬ IsComment ['b'] := by
  exact ⟨_, renderTest_disabled _ (by decide), by decide, by decide, by decide⟩

end CestWriter
