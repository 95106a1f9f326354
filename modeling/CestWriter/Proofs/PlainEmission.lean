import CestWriter.Vocabulary.Standard

/-!
# Plain emissions

Apart from the commands of control flow and those that only concern the recorder, every command of
the standard vocabulary has a plain emission: it leaves the running level as it is, begins and ends
at it, stays within one level of it, and writes no empty statement. Nor do the emitters of these
commands look at the depth.
-/

namespace CestWriter

/-- Lines that can be placed as the text of one command: there is a first one, which stands at the
level of the command, and no line stands more than one level deeper or is empty. -/
structure Placeable (lines : List Line) : Prop where
  first : ∃ statement rest, lines = ⟨0, statement⟩ :: rest
  level_le : ∀ l ∈ lines, l.level ≤ 1
  statement_ne : ∀ l ∈ lines, l.statement ≠ ""

/-- An emission that leaves the running level as it is and whose last line stands at it. -/
structure Emission.Plain (e : Emission) : Prop where
  before_eq : e.before = 0
  after_eq : e.after = 0
  placeable : Placeable e.lines
  last_level : ∀ l ∈ e.lines.getLast?, l.level = 0

theorem Emission.plain_statement {s : String} (hs : s ≠ "") : (Emission.statement s).Plain where
  before_eq := rfl
  after_eq := rfl
  placeable := {
    first := ⟨s, [], rfl⟩
    level_le := by simp [Emission.lines]
    statement_ne := by simpa [Emission.lines] using hs }
  last_level := by simp [Emission.lines]

/-- A line of a callback opens or closes it, or is a statement of its body. -/
theorem Emission.mem_lines_callback {body : List String} {binding : Option String} {l : Line}
    (hl : l ∈ (Emission.callback body binding).lines) :
    (l.level = 0 ∧ l.statement ≠ "") ∨ ∃ s ∈ body, l = ⟨1, s⟩ := by
  simp only [Emission.lines, List.cons_append, List.mem_cons, List.mem_append, List.mem_map,
    List.not_mem_nil, or_false] at hl
  rcases hl with rfl | ⟨s, hs, rfl⟩ | rfl
  · refine .inl ⟨rfl, ?_⟩
    cases binding <;> simp [callbackOpen]
  · exact .inr ⟨s, hs, rfl⟩
  · exact .inl ⟨rfl, by simp [callbackClose]⟩

theorem Emission.plain_callback {body : List String} (hbody : ∀ s ∈ body, s ≠ "")
    (binding : Option String) : (Emission.callback body binding).Plain where
  before_eq := rfl
  after_eq := rfl
  placeable := {
    first := ⟨_, _, rfl⟩
    level_le := by
      intro l hl
      rcases mem_lines_callback hl with ⟨hlevel, -⟩ | ⟨s, -, rfl⟩
      · omega
      · exact Nat.le_refl 1
    statement_ne := by
      intro l hl
      rcases mem_lines_callback hl with ⟨-, hstatement⟩ | ⟨s, hs, rfl⟩
      · exact hstatement
      · exact hbody s hs }
  last_level := by
    intro l hl
    simp only [Emission.lines, List.getLast?_concat, Option.mem_some_iff] at hl
    rw [← hl]

/-- A block that changes no level is as plain as its lines are placeable. -/
theorem Emission.plain_block {lines : List Line} (hlines : Placeable lines)
    (hlast : ∀ l ∈ lines.getLast?, l.level = 0) : (Emission.block lines 0 0).Plain :=
  ⟨rfl, rfl, hlines, hlast⟩

namespace Vocabulary

/-- If there is a result, it is a plain emission. -/
def YieldsPlain (result : Except Error Emission) : Prop :=
  ∀ e, result = .ok e → e.Plain

theorem yieldsPlain_ok {e : Emission} (he : e.Plain) : YieldsPlain (.ok e) := by
  intro e' h
  cases h
  exact he

theorem yieldsPlain_error (error : Error) : YieldsPlain (.error error) := by
  intro e h
  cases h

theorem yieldsPlain_bind {α : Type} {x : Except Error α} {f : α → Except Error Emission}
    (hf : ∀ a, YieldsPlain (f a)) : YieldsPlain (x >>= f) := by
  cases x with
  | error error => exact yieldsPlain_error error
  | ok a => exact hf a

/-- An emitter that does not look at the depth and whose emissions are plain. -/
structure IsPlain (emitter : Emitter) : Prop where
  depth_irrelevant : ∀ resolver config depth depth' c,
    emitter ⟨resolver, config, depth⟩ c = emitter ⟨resolver, config, depth'⟩ c
  yieldsPlain : ∀ ctx c, YieldsPlain (emitter ctx c)

/-! ## Calls of an actor method -/

theorem plain_callStatement (method arguments : String) :
    (callStatement method arguments).Plain :=
  Emission.plain_statement (by simp)

theorem yieldsPlain_onElement (method : String) (ctx : Context) (target value : String) :
    YieldsPlain (onElement method ctx target value) :=
  yieldsPlain_bind fun _ => yieldsPlain_ok (Emission.plain_statement (by simp))

@[simp] theorem isPlain_targetCall (method : String) : IsPlain (targetCall method) where
  depth_irrelevant _ _ _ _ _ := rfl
  yieldsPlain ctx c := yieldsPlain_onElement method ctx c.targetText ""

@[simp] theorem isPlain_targetAndTextCall (method : String) :
    IsPlain (targetAndTextCall method) where
  depth_irrelevant _ _ _ _ _ := rfl
  yieldsPlain ctx c := yieldsPlain_onElement method ctx c.targetText (Literal.text c.valueText)

@[simp] theorem isPlain_textCall (method : String) : IsPlain (textCall method) where
  depth_irrelevant _ _ _ _ _ := rfl
  yieldsPlain _ _ := yieldsPlain_ok (plain_callStatement _ _)

@[simp] theorem isPlain_bareCall (method : String) : IsPlain (bareCall method) where
  depth_irrelevant _ _ _ _ _ := rfl
  yieldsPlain _ _ := yieldsPlain_ok (plain_callStatement _ _)

theorem yieldsPlain_onDriver {body : String → List String} (ctx : Context) (c : Command)
    (hbody : ∀ element, ∀ s ∈ body element, s ≠ "") : YieldsPlain (onDriver body ctx c) :=
  yieldsPlain_bind fun element => yieldsPlain_ok (Emission.plain_callback (hbody element) none)

/-! ## Acting on the page -/

@[simp] theorem isPlain_optionCall (method : String) : IsPlain (optionCall method) where
  depth_irrelevant _ _ _ _ _ := rfl
  yieldsPlain ctx c := yieldsPlain_bind fun label =>
    yieldsPlain_onElement method ctx c.targetText (Literal.text label)

@[simp] theorem isPlain_dragAndDrop : IsPlain dragAndDrop where
  depth_irrelevant _ _ _ _ _ := rfl
  yieldsPlain _ _ := yieldsPlain_bind fun _ => yieldsPlain_bind fun _ =>
    yieldsPlain_ok (plain_callStatement _ _)

@[simp] theorem isPlain_editContent : IsPlain editContent where
  depth_irrelevant _ _ _ _ _ := rfl
  yieldsPlain ctx c := yieldsPlain_onDriver ctx c (by simp)

@[simp] theorem isPlain_mouseButton (method : String) : IsPlain (mouseButton method) where
  depth_irrelevant _ _ _ _ _ := rfl
  yieldsPlain ctx c := yieldsPlain_onDriver ctx c (by simp)

@[simp] theorem isPlain_mouseMoveAt : IsPlain mouseMoveAt where
  depth_irrelevant _ _ _ _ _ := rfl
  yieldsPlain ctx c := by
    unfold mouseMoveAt
    split
    · exact (isPlain_targetCall _).yieldsPlain ctx c
    · split
      · exact yieldsPlain_error _
      · exact yieldsPlain_onElement _ ctx _ _

@[simp] theorem isPlain_mouseOut : IsPlain mouseOut where
  depth_irrelevant _ _ _ _ _ := rfl
  yieldsPlain _ _ := yieldsPlain_ok (plain_callStatement _ _)

@[simp] theorem isPlain_openPage : IsPlain openPage where
  depth_irrelevant _ _ _ _ _ := rfl
  yieldsPlain _ _ := yieldsPlain_ok (plain_callStatement _ _)

@[simp] theorem isPlain_pause : IsPlain pause where
  depth_irrelevant _ _ _ _ _ := rfl
  yieldsPlain _ _ := yieldsPlain_ok (plain_callStatement _ _)

@[simp] theorem isPlain_run : IsPlain run where
  depth_irrelevant _ _ _ _ _ := rfl
  yieldsPlain _ _ := yieldsPlain_ok (Emission.plain_statement (by simp))

@[simp] theorem isPlain_sendKeys : IsPlain sendKeys where
  depth_irrelevant _ _ _ _ _ := rfl
  yieldsPlain ctx _ := yieldsPlain_onElement _ ctx _ _

@[simp] theorem isPlain_setSpeed : IsPlain setSpeed where
  depth_irrelevant _ _ _ _ _ := rfl
  yieldsPlain _ _ := yieldsPlain_ok (plain_callStatement _ _)

@[simp] theorem isPlain_setWindowSize : IsPlain setWindowSize where
  depth_irrelevant _ _ _ _ _ := rfl
  yieldsPlain ctx c := by
    unfold setWindowSize
    split
    · exact yieldsPlain_error _
    · exact yieldsPlain_ok (plain_callStatement _ _)

@[simp] theorem isPlain_echo : IsPlain echo where
  depth_irrelevant _ _ _ _ _ := rfl
  yieldsPlain _ _ := yieldsPlain_ok (plain_callStatement _ _)

@[simp] theorem isPlain_answerPrompt : IsPlain answerPrompt where
  depth_irrelevant _ _ _ _ _ := rfl
  yieldsPlain _ _ := yieldsPlain_ok <| Emission.plain_block
    { first := ⟨_, _, rfl⟩
      level_le := by simp
      statement_ne := by simp }
    (by simp)

/-! ## Frames and windows -/

@[simp] theorem isPlain_selectFrame : IsPlain selectFrame where
  depth_irrelevant _ _ _ _ _ := rfl
  yieldsPlain ctx c := by
    unfold selectFrame
    split
    · exact yieldsPlain_ok (Emission.plain_callback (by simp) none)
    · split
      · exact yieldsPlain_ok (Emission.plain_callback (by simp) none)
      · exact yieldsPlain_onDriver ctx c (by simp)

theorem yieldsPlain_selectNumbered (index : String) : YieldsPlain (selectNumbered index) := by
  simp only [selectNumbered]
  split
  · exact yieldsPlain_ok (Emission.plain_callback (by simp) none)
  · exact yieldsPlain_error _

@[simp] theorem isPlain_selectWindow : IsPlain selectWindow where
  depth_irrelevant _ _ _ _ _ := rfl
  yieldsPlain ctx c := by
    unfold selectWindow
    split
    · exact yieldsPlain_ok (plain_callStatement _ _)
    · split
      · exact yieldsPlain_ok (plain_callStatement _ _)
      · split
        · exact yieldsPlain_selectNumbered _
        · exact yieldsPlain_error _

/-! ## Checking the page -/

@[simp] theorem isPlain_assertVariable : IsPlain assertVariable where
  depth_irrelevant _ _ _ _ _ := rfl
  yieldsPlain _ _ := yieldsPlain_ok (plain_callStatement _ _)

@[simp] theorem isPlain_assertEnabled (assertion : String) : IsPlain (assertEnabled assertion) where
  depth_irrelevant _ _ _ _ _ := rfl
  yieldsPlain ctx c := yieldsPlain_onDriver ctx c (by simp)

@[simp] theorem isPlain_textCheck (method : String) : IsPlain (textCheck method) where
  depth_irrelevant _ _ _ _ _ := rfl
  yieldsPlain _ _ := yieldsPlain_bind fun _ => yieldsPlain_ok (plain_callStatement _ _)

/-! ## Storing values and running scripts -/

theorem assign_ne_empty (name expr : String) : Literal.assign name expr ≠ "" := by
  unfold Literal.assign
  split <;> simp

theorem plain_assign (name expr : String) : (Emission.statement (Literal.assign name expr)).Plain :=
  Emission.plain_statement (assign_ne_empty name expr)

@[simp] theorem isPlain_store : IsPlain store where
  depth_irrelevant _ _ _ _ _ := rfl
  yieldsPlain _ _ := yieldsPlain_ok (plain_assign _ _)

@[simp] theorem isPlain_storeAttribute : IsPlain storeAttribute where
  depth_irrelevant _ _ _ _ _ := rfl
  yieldsPlain ctx c := by
    unfold storeAttribute
    split
    · exact yieldsPlain_error _
    · refine yieldsPlain_bind fun grab => yieldsPlain_ok (Emission.plain_block ?_ (by simp))
      exact {
        first := ⟨_, _, rfl⟩
        level_le := by simp
        statement_ne := by simp [assign_ne_empty] }

@[simp] theorem isPlain_storeJson : IsPlain storeJson where
  depth_irrelevant _ _ _ _ _ := rfl
  yieldsPlain _ _ := yieldsPlain_ok (plain_assign _ _)

@[simp] theorem isPlain_storeGrabbed (method : String) : IsPlain (storeGrabbed method) where
  depth_irrelevant _ _ _ _ _ := rfl
  yieldsPlain _ _ := yieldsPlain_bind fun _ => yieldsPlain_ok (plain_assign _ _)

@[simp] theorem isPlain_storeTitle : IsPlain storeTitle where
  depth_irrelevant _ _ _ _ _ := rfl
  yieldsPlain _ _ := yieldsPlain_ok (plain_assign _ _)

@[simp] theorem isPlain_storeWindowHandle : IsPlain storeWindowHandle where
  depth_irrelevant _ _ _ _ _ := rfl
  yieldsPlain _ _ := yieldsPlain_ok (Emission.plain_callback (by simp) _)

@[simp] theorem isPlain_storeCount : IsPlain storeCount where
  depth_irrelevant _ _ _ _ _ := rfl
  yieldsPlain _ _ := yieldsPlain_bind fun _ => yieldsPlain_ok (plain_assign _ _)

@[simp] theorem isPlain_executeScript : IsPlain executeScript where
  depth_irrelevant _ _ _ _ _ := rfl
  yieldsPlain _ _ := yieldsPlain_ok (plain_assign _ _)

@[simp] theorem isPlain_executeAsyncScript : IsPlain executeAsyncScript where
  depth_irrelevant _ _ _ _ _ := rfl
  yieldsPlain _ _ := yieldsPlain_ok (plain_assign _ _)

@[simp] theorem isPlain_runScript : IsPlain runScript where
  depth_irrelevant _ _ _ _ _ := rfl
  yieldsPlain _ _ := yieldsPlain_ok (plain_callStatement _ _)

/-! ## Waiting for the page -/

@[simp] theorem isPlain_waitFor (method : String) : IsPlain (waitFor method) where
  depth_irrelevant _ _ _ _ _ := rfl
  yieldsPlain ctx _ := yieldsPlain_onElement method ctx _ _

@[simp] theorem isPlain_waitUntil (condition : String → String) :
    IsPlain (waitUntil condition) where
  depth_irrelevant _ _ _ _ _ := rfl
  yieldsPlain ctx c := yieldsPlain_onDriver ctx c (by simp)

@[simp] theorem isPlain_waitForText : IsPlain waitForText where
  depth_irrelevant _ _ _ _ _ := rfl
  yieldsPlain _ _ := yieldsPlain_bind fun _ => yieldsPlain_ok (plain_callStatement _ _)

/-! ## The groups of the vocabulary -/

theorem isPlain_of_mem_interactions : ∀ entry ∈ interactions, IsPlain entry.2 := by
  simp [interactions, mouseMove]

theorem isPlain_of_mem_checks : ∀ entry ∈ checks, IsPlain entry.2 := by
  simp [checks]

theorem isPlain_of_mem_dialogChecks : ∀ entry ∈ dialogChecks, IsPlain entry.2 := by
  simp [dialogChecks]

theorem isPlain_of_mem_storing : ∀ entry ∈ storing, IsPlain entry.2 := by
  simp [storing]

theorem isPlain_of_mem_waiting : ∀ entry ∈ waiting, IsPlain entry.2 := by
  simp [waiting]

/-- A command of the standard vocabulary only concerns the recorder, belongs to control flow, or
has a plain emitter. -/
theorem standard_cases {name : String} {emitter : Emitter} (h : (name, emitter) ∈ standard) :
    (name ∈ recorderOnly ∧ emitter = skip) ∨
      (∃ k : Keyword, name = k.name ∧ emitter = controlFlow k) ∨ IsPlain emitter := by
  simp only [standard, List.mem_append, List.mem_map, Prod.mk.injEq] at h
  rcases h with ((((((h | h) | h) | h) | h) | h) | h) | h
  · obtain ⟨n, hn, rfl, rfl⟩ := h
    exact .inl ⟨hn, rfl⟩
  · obtain ⟨k, -, rfl, rfl⟩ := h
    exact .inr (.inl ⟨k, rfl, rfl⟩)
  · exact .inr (.inr (isPlain_of_mem_interactions _ h))
  · obtain ⟨entry, hentry, -, rfl⟩ := h
    exact .inr (.inr (isPlain_of_mem_checks _ hentry))
  · obtain ⟨entry, hentry, -, rfl⟩ := h
    exact .inr (.inr (isPlain_of_mem_checks _ hentry))
  · exact .inr (.inr (isPlain_of_mem_dialogChecks _ h))
  · exact .inr (.inr (isPlain_of_mem_storing _ h))
  · exact .inr (.inr (isPlain_of_mem_waiting _ h))

end Vocabulary

end CestWriter
