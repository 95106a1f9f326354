import CestWriter.Proofs.MethodNames
import CestWriter.Proofs.WindowLines

/-!
# The shape of emissions

What a table with the standard vocabulary emits for a command is fixed by the name of the command up
to the texts in it. The level changes are those of its keyword, only the commands of the recorder
have no lines, and the lines of all others begin at the level of the command and go at most one
level deeper. Of the depth only the headers of loops take notice, and these differ at any two
depths.
-/

namespace CestWriter

theorem Keyword.isLoopHeader_iff (k : Keyword) :
    k.isLoopHeader = true ↔ k.name = "forEach" ∨ k.name = "times" := by
  cases k <;> decide

namespace Vocabulary

/-- The lines for a window can be taken away again. -/
theorem lines_eq_of_withWindow {c : Command} {config : Config} {e e' : Emission}
    (he : e.isEmpty = false) (he' : e'.isEmpty = false)
    (h : withWindow c config e = withWindow c config e') : e.lines = e'.lines := by
  cases hopens : c.opensWindow with
  | false =>
    rw [withWindow, withWindow, hopens] at h
    exact congrArg Emission.lines h
  | true =>
    rw [withWindow, withWindow, hopens, he, he'] at h
    have hlines : snapshotLine :: e.lines ++ [awaitLine c config] =
        snapshotLine :: e'.lines ++ [awaitLine c config] := congrArg Emission.lines h
    exact (List.cons.inj (List.append_cancel_right hlines)).2

/-- The variable that is set in front of a loop tells the depth. -/
theorem depth_eq_of_assignment {stem expr : String} {depth depth' : Nat}
    (h : stem ++ depth.repr ++ " = " ++ expr ++ ";" =
      stem ++ depth'.repr ++ " = " ++ expr ++ ";") : depth = depth' := by
  rw [String.append_left_inj, String.append_left_inj, String.append_left_inj] at h
  exact MethodName.numbered_name_inj h

theorem depth_eq_of_keywordLines {c : Command} {depth depth' : Nat} {k : Keyword}
    (hk : k.isLoopHeader = true) (h : keywordLines c depth k = keywordLines c depth' k) :
    depth = depth' := by
  have hfirst := congrArg (fun lines => lines.head?.map Line.statement) h
  cases k with
  | forEach => exact depth_eq_of_assignment (Option.some.inj hfirst)
  | times => exact depth_eq_of_assignment (Option.some.inj hfirst)
  | doLoop | ifThen | elseIf | elseThen | endBlock | whileLoop | repeatIf => cases hk

end Vocabulary

namespace Table

open Vocabulary

theorem keyword_of_loop_name {name : String} (h : name = "forEach" ∨ name = "times") :
    ∃ k : Keyword, name = k.name ∧ k.isLoopHeader = true := by
  rcases h with rfl | rfl
  · exact ⟨.forEach, rfl, rfl⟩
  · exact ⟨.times, rfl, rfl⟩

section Standard

variable {t : Table} (ht : t.IsStandard) {c : Command} {depth depth' : Nat}

include ht

/-- The headers of a loop at two depths are different. -/
theorem depth_eq_of_emit (hname : c.name = "forEach" ∨ c.name = "times")
    (h : t.emit depth c = t.emit depth' c) : depth = depth' := by
  obtain ⟨k, hk, hloop⟩ := keyword_of_loop_name hname
  rw [emit_keyword ht hk, emit_keyword ht hk] at h
  have hempty : ∀ d, (Emission.block (keywordLines c d k) k.before k.after).isEmpty = false :=
    fun d => isEmpty_eq_false_of_placeable (placeable_keywordLines c d k)
  exact depth_eq_of_keywordLines hloop
    (lines_eq_of_withWindow (hempty depth) (hempty depth') (Except.ok.inj h))

theorem emit_eq_emit_iff :
    t.emit depth c = t.emit depth' c ↔
      depth = depth' ∨ (c.name ≠ "forEach" ∧ c.name ≠ "times") := by
  constructor
  · intro h
    by_cases hname : c.name = "forEach" ∨ c.name = "times"
    · exact .inl (depth_eq_of_emit ht hname h)
    · exact .inr (not_or.mp hname)
  · rintro (rfl | hother)
    · rfl
    · refine emit_depth ht depth depth' fun k hk => ?_
      rw [Bool.eq_false_iff, ne_eq, Keyword.isLoopHeader_iff, ← hk]
      exact not_or.mpr hother

end Standard

/-- Whatever its parameters are, however locators are resolved and the table is configured, and
whether or not it opens a window, a command of the standard vocabulary that has an emission has one
of the following shape. The level changes are those of the keyword of that name, or none. There is
nothing to write exactly for the commands of the recorder; for all others there are lines, none of
them is empty, the first stands at the level of the command, and none more than one level deeper.
The same is emitted at every depth, except for the headers of loops, which are different at every
other depth. -/
theorem emission_shape (config : Config) (resolver : Resolver) (depth : Nat) (c : Command)
    (e : Emission) (hok : ((standard config).withResolver resolver).emit depth c = .ok e) :
    (∀ k, Keyword.ofName? c.name = some k → e.before = k.before ∧ e.after = k.after) ∧
      (Keyword.ofName? c.name = none → e.before = 0 ∧ e.after = 0) ∧
      (e = .nothing ↔ c.name ∈ recorderNames) ∧
      (c.name ∉ recorderNames →
        e.isEmpty = false ∧ (∀ l ∈ e.lines, l.statement ≠ "") ∧
          (∃ first rest, e.lines = first :: rest ∧ first.level = 0) ∧
          ∀ l ∈ e.lines, l.level = 0 ∨ l.level = 1) ∧
      ∀ depth', ((standard config).withResolver resolver).emit depth' c = .ok e ↔
        depth' = depth ∨ (c.name ≠ "forEach" ∧ c.name ≠ "times") := by
  have ht := isStandard_withResolver config resolver
  have hfits := fits_of_emit ht hok
  have hnothing : e = .nothing ↔ c.name ∈ recorderNames :=
    hfits.nothing_iff.trans mem_recorderOnly_iff
  refine ⟨fun k hk => ?_, fun hnone => ?_, hnothing, fun hname => ?_, fun depth' => ?_⟩
  · have hk' := Keyword.ofName?_eq_some_iff.mp hk
    rw [hfits.before_eq, hfits.after_eq, hk']
    exact ⟨Keyword.beforeOf_name k, Keyword.afterOf_name k⟩
  · rw [hfits.before_eq, hfits.after_eq]
    exact ⟨Keyword.beforeOf_eq_zero hnone, Keyword.afterOf_eq_zero hnone⟩
  · have hplaceable := hfits.placeable fun heq => hname (hnothing.mp heq)
    obtain ⟨statement, rest, hlines⟩ := hplaceable.first
    refine ⟨isEmpty_eq_false_of_placeable hplaceable, hplaceable.statement_ne,
      ⟨⟨0, statement⟩, rest, hlines, rfl⟩, fun l hl => ?_⟩
    have hle := hplaceable.level_le l hl
    omega
  · rw [← hok]
    exact emit_eq_emit_iff ht

/-- A loop over the cells of a row that opens a window. -/
def cellLoop : Command :=
  { name := "forEach", target := some "$\x7brow\x7d", value := some "cell", opensWindow := true,
    windowHandleName := "detail" }

/-- The header of a loop that opens a window, three blocks deep: its lines are not those of depth
two. -/
theorem emission_shape_cellLoop :
    ∃ e, ((standard {}).withResolver .standard).emit 3 cellLoop = .ok e ∧
      e.before = 0 ∧ e.after = 1 ∧ e.lines.map Line.level = [0, 0, 0, 1, 0] ∧
      (∀ l ∈ e.lines, l.statement ≠ "") ∧
      ((standard {}).withResolver .standard).emit 2 cellLoop ≠ .ok e := by
  have ht := isStandard_withResolver {} .standard
  have hok := @emit_keyword _ ht cellLoop 3 .forEach rfl
  have hshape := emission_shape {} .standard 3 cellLoop _ hok
  obtain ⟨hkeyword, -, -, hlines, hdepth⟩ := hshape
  obtain ⟨hbefore, hafter⟩ := hkeyword .forEach rfl
  obtain ⟨-, hstatements, -⟩ := hlines (by decide)
  refine ⟨_, hok, hbefore, hafter, rfl, hstatements, fun hsame => ?_⟩
  rcases (hdepth 2).mp hsame with htwo | ⟨hname, -⟩
  · exact absurd htwo (by decide)
  · exact hname rfl

end Table

end CestWriter
