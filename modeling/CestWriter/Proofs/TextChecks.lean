import CestWriter.Proofs.Pieces
import CestWriter.Proofs.StandardTable

/-!
# Checks of a text

A command that checks a text calls a method with the recorded value and the locator of the target.
With a target the value is a literal. Without one the recorded value stands in the call as it is, so
the generated code takes it for an expression. No value is its own literal: a literal holds two
quotes more than the text that it is made from. So the call has the value as a literal exactly if a
target is recorded.
-/

namespace CestWriter

namespace Literal

/-- Writing references as variables drops braces and nothing else. -/
theorem count_interpolate (s : String) :
    (Text.interpolate s).toList.count '"' = s.toList.count '"' := by
  rw [Text.interpolate, String.toList_ofList]
  generalize s.toList = cs
  fun_induction Text.decompose cs with
  | case1 => rfl
  | case2 c cs name rest h hlength ih =>
    obtain ⟨heq, -, -⟩ := Text.reference?_eq_some_iff.mp h
    rw [heq]
    simp [Text.Piece.interpolated, ih]
  | case3 c cs h ih =>
    rw [Text.Piece.flatMap_push _ (fun _ => rfl), List.count_cons, List.count_cons, ih]

/-- Escaping puts backslashes in front of quotes and keeps the quotes. -/
theorem count_escape (s : String) : (escape s).toList.count '"' = s.toList.count '"' := by
  rw [escape, String.toList_ofList]
  induction s.toList with
  | nil => rfl
  | cons c cs ih =>
    have hone : (escapeChar c).count '"' = [c].count '"' := by
      unfold escapeChar
      split
      · exact List.count_cons_of_ne (by decide)
      · rfl
    rw [List.flatMap_cons, List.count_append, hone, ih, ← List.count_append, List.singleton_append]

/-- The quotes around a literal are two more than those of the text. -/
theorem count_text (s : String) : (text s).toList.count '"' = s.toList.count '"' + 2 := by
  have hbody := (count_escape (Text.interpolate s)).trans (count_interpolate s)
  simp [text, quote, hbody]

end Literal

namespace TextCheck

open Vocabulary

/-- The commands that check a text, each with the method that it calls. -/
def methods : List (String × String) := [
  ("verifyText", "see"),
  ("assertText", "see"),
  ("verifyNotText", "dontSee"),
  ("assertNotText", "dontSee")]

/-- The statement that calls a method of the actor. -/
def statementOf (method arguments : String) : String :=
  "$I->" ++ method ++ "(" ++ arguments ++ ");"

/-- The statement calls one of the methods with the value as a literal, alone or in front of the
locator of the target. -/
def IsQuotedCall (resolver : Resolver) (c : Command) (statement : String) : Prop :=
  ∃ method ∈ ["see", "dontSee"],
    statement = statementOf method (Literal.quote (Text.interpolate c.valueText)) ∨
    ∃ locator, resolver.strict c.targetText = .ok locator ∧ statement =
      statementOf method (Literal.quote (Text.interpolate c.valueText) ++ ", " ++ locator)

theorem method_mem {name method : String} (h : (name, method) ∈ methods) :
    method ∈ ["see", "dontSee"] := by
  simp only [methods, List.mem_cons, List.not_mem_nil, Prod.mk.injEq, or_false] at h
  rcases h with ⟨-, rfl⟩ | ⟨-, rfl⟩ | ⟨-, rfl⟩ | ⟨-, rfl⟩
  all_goals decide

theorem mem_standard {name method : String} (h : (name, method) ∈ methods) :
    (name, textCheck method) ∈ Vocabulary.standard := by
  simp only [methods, List.mem_cons, List.not_mem_nil, Prod.mk.injEq, or_false] at h
  rcases h with ⟨rfl, rfl⟩ | ⟨rfl, rfl⟩ | ⟨rfl, rfl⟩ | ⟨rfl, rfl⟩
  all_goals simp [Vocabulary.standard, checks]

/-! ## Calls with and without a literal -/

theorem count_statementOf {method : String} (h : method ∈ ["see", "dontSee"])
    (arguments : String) :
    (statementOf method arguments).toList.count '"' = arguments.toList.count '"' := by
  have hmethod : ∀ method ∈ ["see", "dontSee"], method.toList.count '"' = 0 := by decide
  simp [statementOf, hmethod method h]

/-- A call with the value as it is recorded is not one with the value as a literal. -/
theorem not_isQuotedCall_bare (resolver : Resolver) (c : Command) {method : String}
    (hmethod : method ∈ ["see", "dontSee"]) :
    ¬ IsQuotedCall resolver c (statementOf method c.valueText) := by
  have hbare := count_statementOf hmethod c.valueText
  have hliteral : (Literal.quote (Text.interpolate c.valueText)).toList.count '"' =
      c.valueText.toList.count '"' + 2 := Literal.count_text c.valueText
  rintro ⟨other, hother, heq | ⟨locator, -, heq⟩⟩
  · rw [heq, count_statementOf hother, hliteral] at hbare
    omega
  · rw [heq, count_statementOf hother, String.toList_append, String.toList_append,
      List.count_append, List.count_append, hliteral] at hbare
    omega

theorem callStatement_eq (method arguments : String) :
    callStatement method arguments = .statement (statementOf method arguments) := by
  rw [callStatement, call, statementOf, String.append_assoc]
  rfl

/-! ## What is emitted -/

section Standard

variable {t : Table} (ht : t.IsStandard) {depth : Nat} {c : Command} {method : String}
  (hname : (c.name, method) ∈ methods)

include ht hname

/-- Without a target the value stands in the call as it is recorded. -/
theorem emit_without_target (htarget : c.targetText = "") :
    t.emit depth c =
      .ok (withWindow c t.config (.statement (statementOf method c.valueText))) := by
  rw [Table.emit_of_mem_standard ht (mem_standard hname), ← callStatement_eq, textCheck,
    textArguments, htarget]
  rfl

/-- With a target the value is a literal. -/
theorem emit_with_target (htarget : c.targetText ≠ "") (hvalue : c.valueText ≠ "") :
    t.emit depth c = (t.resolver.strict c.targetText).map fun locator =>
      withWindow c t.config (.statement (statementOf method
        (Literal.quote (Text.interpolate c.valueText) ++ ", " ++ locator))) := by
  rw [Table.emit_of_mem_standard ht (mem_standard hname), textCheck, textArguments,
    if_neg (by simpa using htarget)]
  cases t.resolver.strict c.targetText with
  | error error => rfl
  | ok locator =>
    change Except.ok (withWindow c t.config (callStatement method
      (if c.valueText.isEmpty then locator else Literal.text c.valueText ++ ", " ++ locator))) = _
    rw [if_neg (by simpa using hvalue), callStatement_eq]
    rfl

end Standard

/-- A check of a text that is not empty, when it can be emitted, is emitted as one call, with the
lines for a window that the command opens. The call has the text as a literal exactly if a target is
recorded. If none is, the command is always emitted, and the recorded text stands in the call as it
is. -/
theorem check_quoted_iff (config : Config) (resolver : Resolver) (depth : Nat) (c : Command)
    (method : String) (hname : (c.name, method) ∈ methods) (hvalue : c.valueText ≠ "") :
    (∀ e, ((Table.standard config).withResolver resolver).emit depth c = .ok e →
      ∃ statement, e = withWindow c config (.statement statement) ∧
        (IsQuotedCall resolver c statement ↔ c.targetText ≠ "")) ∧
      (c.targetText = "" → ((Table.standard config).withResolver resolver).emit depth c =
        .ok (withWindow c config (.statement (statementOf method c.valueText)))) := by
  have ht := Table.isStandard_withResolver config resolver
  have hmethod := method_mem hname
  refine ⟨fun e hok => ?_, emit_without_target ht hname⟩
  by_cases htarget : c.targetText = ""
  · rw [emit_without_target ht hname htarget] at hok
    refine ⟨statementOf method c.valueText, (Except.ok.inj hok).symm, ?_⟩
    exact iff_of_false (not_isQuotedCall_bare resolver c hmethod) (not_not_intro htarget)
  · rw [emit_with_target ht hname htarget hvalue] at hok
    change (resolver.strict c.targetText).map _ = _ at hok
    cases hstrict : resolver.strict c.targetText with
    | error error =>
      rw [hstrict] at hok
      cases hok
    | ok locator =>
      rw [hstrict] at hok
      refine ⟨_, (Except.ok.inj hok).symm, iff_of_true ?_ htarget⟩
      exact ⟨method, hmethod, .inr ⟨locator, hstrict, rfl⟩⟩

/-- A check that a text with quotes is not there. -/
def warningCheck : Command :=
  { name := "assertNotText", target := some "id=msg", value := some "say \"stop\"" }

/-- A check of a text without a target; the text is also an expression. -/
def exitCheck : Command :=
  { name := "verifyText", value := some "exit()" }

theorem check_quoted_of_warningCheck :
    warningCheck.valueText ≠ "" ∧ warningCheck.targetText ≠ "" ∧
      ∃ statement, ((Table.standard {}).withResolver .standard).emit 0 warningCheck =
          .ok (.statement statement) ∧
        IsQuotedCall .standard warningCheck statement := by
  have hname : (warningCheck.name, "dontSee") ∈ methods := by decide
  have hvalue : warningCheck.valueText ≠ "" := by decide
  have htarget : warningCheck.targetText ≠ "" := by decide
  have ht := Table.isStandard_withResolver {} .standard
  have hok := @emit_with_target _ ht 0 _ _ hname htarget hvalue
  obtain ⟨statement, heq, hquoted⟩ :=
    (check_quoted_iff {} .standard 0 warningCheck "dontSee" hname hvalue).1 _ hok
  exact ⟨hvalue, htarget, statement, hok.trans (congrArg Except.ok heq), hquoted.mpr htarget⟩

/-- The text of a check without a target becomes an expression of the generated code. -/
theorem check_bare_of_exitCheck :
    exitCheck.valueText ≠ "" ∧
      ((Table.standard {}).withResolver .standard).emit 0 exitCheck =
        .ok (.statement "$I->see(exit());") ∧
      ¬ IsQuotedCall .standard exitCheck "$I->see(exit());" := by
  have ht := Table.isStandard_withResolver {} .standard
  have hname : (exitCheck.name, "see") ∈ methods := by decide
  have hbare := @emit_without_target _ ht 0 _ _ hname (by decide)
  exact ⟨by decide, hbare, not_isQuotedCall_bare .standard exitCheck (method_mem hname)⟩

end TextCheck

end CestWriter
