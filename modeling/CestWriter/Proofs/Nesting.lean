import CestWriter.Proofs.Walk

/-!
# Nested blocks

A test is a flat list of commands, and its nesting is only implied by the commands of control flow
in it. Here nested blocks are trees. Writing the commands of a forest down one after the other and
rendering them with one running level gives the same lines as printing the forest by recursion,
where every body is printed one level deeper than the commands around it.
-/

namespace CestWriter

/-- A command of control flow. Everything about it but its name is free. -/
structure Keyed (k : Keyword) where
  command : Command
  name_eq : command.name = k.name

/-- A command outside control flow: a disabled one, or one of the standard vocabulary. -/
structure Leaf where
  command : Command
  outside : command.isDisabled = true ∨
    (command.name ∈ Vocabulary.standard.map (·.1) ∧ Keyword.ofName? command.name = none)

/-- The kinds of loops. -/
inductive Loop where
  | whileLoop
  | doLoop
  | times
  | forEach

/-- The command that begins a loop. -/
def Loop.opener : Loop → Keyword
  | .whileLoop => .whileLoop
  | .doLoop => .doLoop
  | .times => .times
  | .forEach => .forEach

/-- The command that ends a loop. -/
def Loop.closer : Loop → Keyword
  | .doLoop => .repeatIf
  | .whileLoop | .times | .forEach => .endBlock

mutual

/-- A command, or a block with its bodies. -/
inductive Tree where
  | leaf (c : Leaf)
  | conditional (head : Keyed .ifThen) (body : Forest) (branches : Branches)
  | loop (kind : Loop) (head : Keyed kind.opener) (body : Forest) (last : Keyed kind.closer)

/-- Trees one after another. -/
inductive Forest where
  | nil
  | cons (tree : Tree) (rest : Forest)

/-- What follows the first body of a conditional: further conditions with their bodies, then at most
one body without a condition, then the end. -/
inductive Branches where
  | close (last : Keyed .endBlock)
  | elseThen (head : Keyed .elseThen) (body : Forest) (last : Keyed .endBlock)
  | elseIf (head : Keyed .elseIf) (body : Forest) (branches : Branches)

end

mutual

/-- The commands of a tree, in the order in which they were recorded. -/
def Tree.commands : Tree → List Command
  | .leaf c => [c.command]
  | .conditional head body branches => head.command :: (body.commands ++ branches.commands)
  | .loop _ head body last => head.command :: (body.commands ++ [last.command])

/-- The commands of a forest. -/
def Forest.commands : Forest → List Command
  | .nil => []
  | .cons tree rest => tree.commands ++ rest.commands

/-- The commands of the branches of a conditional. -/
def Branches.commands : Branches → List Command
  | .close last => [last.command]
  | .elseThen head body last => head.command :: (body.commands ++ [last.command])
  | .elseIf head body branches => head.command :: (body.commands ++ branches.commands)

end

namespace Table

/-- The lines that a command emits at a depth, relative to where it stands. -/
def ownLines (t : Table) (depth : Nat) (c : Command) : List Line :=
  match t.emit depth c with
  | .ok e => e.lines
  | .error _ => []

/-- Prints one command at a depth: its comment, and then the line that a disabled command leaves or
the lines that the command emits. -/
def printCommand (t : Table) (depth : Nat) (c : Command) : List Line :=
  commentLines depth c.comment ++
    if c.isDisabled then [disabledLine depth c]
    else (t.ownLines depth c).map (Line.shift depth)

end Table

mutual

/-- Prints a tree: the commands of a block at the depth of the block, its bodies one deeper. -/
def Tree.print (t : Table) (depth : Nat) : Tree → List Line
  | .leaf c => t.printCommand depth c.command
  | .conditional head body branches =>
    t.printCommand depth head.command ++ (body.print t (depth + 1) ++ branches.print t depth)
  | .loop _ head body last =>
    t.printCommand depth head.command ++
      (body.print t (depth + 1) ++ t.printCommand depth last.command)

/-- Prints the trees of a forest one after another. -/
def Forest.print (t : Table) (depth : Nat) : Forest → List Line
  | .nil => []
  | .cons tree rest => tree.print t depth ++ rest.print t depth

/-- Prints the branches of a conditional that stands at a depth. -/
def Branches.print (t : Table) (depth : Nat) : Branches → List Line
  | .close last => t.printCommand depth last.command
  | .elseThen head body last =>
    t.printCommand depth head.command ++
      (body.print t (depth + 1) ++ t.printCommand depth last.command)
  | .elseIf head body branches =>
    t.printCommand depth head.command ++ (body.print t (depth + 1) ++ branches.print t depth)

end

/-! ## One command -/

namespace Table

open Vocabulary

theorem ownLines_eq {t : Table} {depth : Nat} {c : Command} {e : Emission}
    (hemit : t.emit depth c = .ok e) : t.ownLines depth c = e.lines := by
  rw [ownLines, hemit]

theorem printCommand_disabled (t : Table) (depth : Nat) {c : Command}
    (hdisabled : c.isDisabled = true) :
    t.printCommand depth c = commentLines depth c.comment ++ [disabledLine depth c] := by
  rw [printCommand, if_pos hdisabled]

theorem printCommand_enabled {t : Table} {depth : Nat} {c : Command} {e : Emission}
    (henabled : c.isDisabled = false) (hemit : t.emit depth c = .ok e) :
    t.printCommand depth c =
      commentLines depth c.comment ++ e.lines.map (Line.shift depth) := by
  rw [printCommand, if_neg (by simp [henabled]), ownLines_eq hemit]

theorem isDisabled_keyword {c : Command} {k : Keyword} (hname : c.name = k.name) :
    c.isDisabled = false := by
  rw [Command.isDisabled, hname]
  cases k <;> decide

/-- A command outside control flow is placed at the running level and leaves it. -/
theorem step_leaf {t : Table} (ht : t.IsStandard) (depth : Nat) (c : Leaf)
    (hemits : c.command.isDisabled = false → t.Emits c.command) :
    t.step depth c.command = .ok (depth, t.printCommand depth c.command) := by
  rcases c.outside with hdisabled | ⟨-, hkeyword⟩
  · rw [step_disabled t depth hdisabled, printCommand_disabled t depth hdisabled]
  · cases hd : c.command.isDisabled with
    | true => rw [step_disabled t depth hd, printCommand_disabled t depth hd]
    | false =>
      obtain ⟨e, hemit⟩ := (emits_iff_forall_depth ht).mp (hemits hd) depth
      rw [printCommand_enabled hd hemit]
      refine step_emit_ok hd hemit (fits_of_emit ht hemit) ?_ ?_
      · rw [Keyword.beforeOf_eq_zero hkeyword, Int.add_zero]
      · rw [Keyword.afterOf_eq_zero hkeyword, Int.add_zero]

/-- A command of control flow is placed where its first change of the level leads to. The header of
a loop is emitted for the level before that change, so there the change has to be none. -/
theorem step_keyed {t : Table} (ht : t.IsStandard) {k : Keyword} (c : Keyed k)
    {level base next : Nat} (hbase : (base : Int) = level + k.before)
    (hnext : (next : Int) = base + k.after) (hheader : k.isLoopHeader = true → base = level) :
    t.step level c.command = .ok (next, t.printCommand base c.command) := by
  -- the command is emitted for the running level but printed for the one it is placed at
  have hfree : t.emit level c.command = t.emit base c.command := by
    cases hloop : k.isLoopHeader with
    | true => rw [hheader hloop]
    | false =>
      refine emit_depth ht level base fun k' hk' => ?_
      have hsame : k = k' := by
        have hname := Keyword.ofName?_eq_some_iff.mpr hk'
        rw [c.name_eq, Keyword.ofName?_name] at hname
        exact Option.some.inj hname
      rw [← hsame, hloop]
  have henabled := isDisabled_keyword c.name_eq
  have hemit : t.emit base c.command = _ := emit_keyword ht c.name_eq
  rw [printCommand_enabled henabled hemit]
  rw [← hfree] at hemit
  refine step_emit_ok henabled hemit (fits_of_emit ht hemit) ?_ ?_
  · rw [c.name_eq, Keyword.beforeOf_name, hbase]
  · rw [c.name_eq, Keyword.afterOf_name, hnext]

theorem step_opener {t : Table} (ht : t.IsStandard) (depth : Nat) {k : Keyword} (c : Keyed k)
    (hbefore : k.before = 0) (hafter : k.after = 1) :
    t.step depth c.command = .ok (depth + 1, t.printCommand depth c.command) := by
  apply step_keyed ht c
  · rw [hbefore, Int.add_zero]
  · rw [hafter]
    omega
  · intro _
    rfl

theorem step_divider {t : Table} (ht : t.IsStandard) (depth : Nat) {k : Keyword} (c : Keyed k)
    (hbefore : k.before = -1) (hafter : k.after = 1) (hheader : k.isLoopHeader = false) :
    t.step (depth + 1) c.command = .ok (depth + 1, t.printCommand depth c.command) := by
  apply step_keyed ht c
  · rw [hbefore]
    omega
  · rw [hafter]
    omega
  · intro h
    rw [hheader] at h
    cases h

theorem step_closer {t : Table} (ht : t.IsStandard) (depth : Nat) {k : Keyword} (c : Keyed k)
    (hbefore : k.before = -1) (hafter : k.after = 0) (hheader : k.isLoopHeader = false) :
    t.step (depth + 1) c.command = .ok (depth, t.printCommand depth c.command) := by
  apply step_keyed ht c
  · rw [hbefore]
    omega
  · rw [hafter, Int.add_zero]
  · intro h
    rw [hheader] at h
    cases h

theorem loop_opener_changes (kind : Loop) : kind.opener.before = 0 ∧ kind.opener.after = 1 := by
  cases kind <;> exact ⟨rfl, rfl⟩

theorem loop_closer_changes (kind : Loop) :
    kind.closer.before = -1 ∧ kind.closer.after = 0 ∧ kind.closer.isLoopHeader = false := by
  cases kind <;> exact ⟨rfl, rfl, rfl⟩

/-- A header, a body and what ends the block give their lines one after the other. -/
theorem walk_block {t : Table} {level inner final : Nat} {head : Command}
    {body rest : List Command} {first lines more : List Line}
    (hhead : t.step level head = .ok (inner, first))
    (hbody : t.walk inner body = .ok (inner, lines))
    (hrest : t.walk inner rest = .ok (final, more)) :
    t.walk level (head :: (body ++ rest)) = .ok (final, first ++ (lines ++ more)) :=
  walk_cons hhead (walk_append hbody hrest)

/-! ## Forests -/

mutual

/-- The commands of a tree give the lines of the tree and lead back to the level it stands at. -/
theorem walk_tree {t : Table} (ht : t.IsStandard) (depth : Nat) (tree : Tree)
    (hemits : ∀ c ∈ tree.commands, c.isDisabled = false → t.Emits c) :
    t.walk depth tree.commands = .ok (depth, tree.print t depth) := by
  match tree with
  | .leaf c =>
    simp only [Tree.commands, Tree.print] at hemits ⊢
    exact walk_singleton (step_leaf ht depth c (hemits c.command List.mem_cons_self))
  | .conditional head body branches =>
    simp only [Tree.commands, Tree.print, List.forall_mem_cons, List.forall_mem_append] at hemits ⊢
    obtain ⟨-, hbody, hbranches⟩ := hemits
    exact walk_block (step_opener ht depth head rfl rfl) (walk_forest ht (depth + 1) body hbody)
      (walk_branches ht depth branches hbranches)
  | .loop kind head body last =>
    simp only [Tree.commands, Tree.print, List.forall_mem_cons, List.forall_mem_append] at hemits ⊢
    obtain ⟨-, hbody, -⟩ := hemits
    obtain ⟨hopens, hdeepens⟩ := loop_opener_changes kind
    obtain ⟨hleaves, hstays, hheader⟩ := loop_closer_changes kind
    exact walk_block (step_opener ht depth head hopens hdeepens)
      (walk_forest ht (depth + 1) body hbody)
      (walk_singleton (step_closer ht depth last hleaves hstays hheader))

theorem walk_forest {t : Table} (ht : t.IsStandard) (depth : Nat) (forest : Forest)
    (hemits : ∀ c ∈ forest.commands, c.isDisabled = false → t.Emits c) :
    t.walk depth forest.commands = .ok (depth, forest.print t depth) := by
  match forest with
  | .nil =>
    simp only [Forest.commands, Forest.print]
    rfl
  | .cons tree rest =>
    simp only [Forest.commands, Forest.print, List.forall_mem_append] at hemits ⊢
    obtain ⟨htree, hrest⟩ := hemits
    exact walk_append (walk_tree ht depth tree htree) (walk_forest ht depth rest hrest)

/-- The branches of a conditional are met inside its first body, one level deeper than where they
are printed. -/
theorem walk_branches {t : Table} (ht : t.IsStandard) (depth : Nat) (branches : Branches)
    (hemits : ∀ c ∈ branches.commands, c.isDisabled = false → t.Emits c) :
    t.walk (depth + 1) branches.commands = .ok (depth, branches.print t depth) := by
  match branches with
  | .close last =>
    simp only [Branches.commands, Branches.print]
    exact walk_singleton (step_closer ht depth last rfl rfl rfl)
  | .elseThen head body last =>
    simp only [Branches.commands, Branches.print, List.forall_mem_cons,
      List.forall_mem_append] at hemits ⊢
    obtain ⟨-, hbody, -⟩ := hemits
    exact walk_block (step_divider ht depth head rfl rfl rfl)
      (walk_forest ht (depth + 1) body hbody)
      (walk_singleton (step_closer ht depth last rfl rfl rfl))
  | .elseIf head body branches =>
    simp only [Branches.commands, Branches.print, List.forall_mem_cons,
      List.forall_mem_append] at hemits ⊢
    obtain ⟨-, hbody, hbranches⟩ := hemits
    exact walk_block (step_divider ht depth head rfl rfl rfl)
      (walk_forest ht (depth + 1) body hbody) (walk_branches ht depth branches hbranches)

end

/-- Rendering the commands of a forest whose emissions all succeed gives the printed forest. -/
theorem renderTest_forest (config : Config) (resolver : Resolver) (forest : Forest)
    (hemits : ∀ c ∈ forest.commands, c.isDisabled = false →
      ((standard config).withResolver resolver).Emits c) :
    ((standard config).withResolver resolver).renderTest forest.commands =
      .ok (forest.print ((standard config).withResolver resolver) 0) :=
  renderTest_eq_ok (walk_forest (isStandard_withResolver config resolver) 0 forest hemits)

/-- A click that opens a window. -/
def sampleClick : Command :=
  { name := "click", target := some "id=help", comment := "open the help", opensWindow := true,
    windowHandleName := "help" }

/-- A loop around a conditional with three branches, one of which holds a disabled command. -/
def sampleForest : Forest :=
  .cons (.loop .times ⟨{ name := "times", target := some "3" }, rfl⟩
    (.cons (.conditional ⟨{ name := "if", target := some "$\x7bn\x7d > 1" }, rfl⟩
      (.cons (.leaf ⟨sampleClick, .inr ⟨by decide +kernel, by decide⟩⟩) .nil)
      (.elseIf ⟨{ name := "elseIf", target := some "true" }, rfl⟩
        (.cons (.leaf ⟨{ name := "//type", value := some "x" }, .inl (by decide)⟩) .nil)
        (.elseThen ⟨{ name := "else" }, rfl⟩ .nil
          ⟨{ name := "end", comment := "done" }, rfl⟩))) .nil)
    ⟨{ name := "end" }, rfl⟩) .nil

theorem emits_sampleClick : ((standard {}).withResolver .standard).Emits sampleClick := by
  have hmem : ("click", targetCall "click") ∈ Vocabulary.standard := by
    simp [Vocabulary.standard, interactions]
  refine ⟨0, ?_⟩
  rw [emit_of_mem_standard (isStandard_withResolver {} .standard) hmem]
  exact ⟨_, rfl⟩

theorem renderTest_sampleForest :
    (∀ c ∈ sampleForest.commands, c.isDisabled = false →
      ((standard {}).withResolver .standard).Emits c) ∧
    ((standard {}).withResolver .standard).renderTest sampleForest.commands =
      .ok (sampleForest.print ((standard {}).withResolver .standard) 0) := by
  have hstandard := isStandard_withResolver {} .standard
  have hemits : ∀ c ∈ sampleForest.commands, c.isDisabled = false →
      ((standard {}).withResolver .standard).Emits c := by
    intro c hc henabled
    simp only [sampleForest, Forest.commands, Tree.commands, Branches.commands, List.nil_append,
      List.cons_append, List.append_nil, List.mem_cons, List.not_mem_nil, or_false] at hc
    rcases hc with rfl | rfl | rfl | rfl | rfl | rfl | rfl | rfl
    · exact emits_keyword hstandard (k := .times) rfl
    · exact emits_keyword hstandard (k := .ifThen) rfl
    · exact emits_sampleClick
    · exact emits_keyword hstandard (k := .elseIf) rfl
    · exact absurd henabled (by decide)
    · exact emits_keyword hstandard (k := .elseThen) rfl
    · exact emits_keyword hstandard (k := .endBlock) rfl
    · exact emits_keyword hstandard (k := .endBlock) rfl
  exact ⟨hemits, renderTest_forest {} .standard sampleForest hemits⟩

end Table

end CestWriter
