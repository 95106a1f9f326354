import CestWriter.Proofs.Cuts
import CestWriter.Proofs.KeyParts
import CestWriter.Proofs.StandardTable
import CestWriter.Proofs.WrittenPieces

/-!
# Interpolated text

Interpolation writes every reference of a text as a variable, without its braces. It finds the same
references as the reading of keystrokes does. What is left has no reference: a variable begins with
a dollar sign, which no reference has inside, and goes on with a word, so no brace follows the
dollar sign. Interpolating once more therefore changes nothing, and the handle of a window, which is
interpolated twice, is written as if it were interpolated once.
-/

namespace CestWriter

namespace Text

/-- References around a variable of the generated code lie before or behind it. -/
theorem bars_variable {name : List Char} (hne : name ≠ []) (hword : ∀ c ∈ name, isWord c = true) :
    Bars ('$' :: name) := by
  intro before after h
  have hborder : ∀ c ∈ ('$' :: name ++ after).head?, IsBorder c := by
    intro c hc
    cases hc
    decide
  have hdollar : '$' ∉ name := fun hmem => absurd (hword '$' hmem) (by decide)
  rcases h.of_border hborder with hbefore | hvariable
  · exact .inl hbefore
  · right
    rcases hasReference_cons.mp hvariable with hfound | hbehind
    · -- the name does not begin with a brace
      exfalso
      obtain ⟨⟨other, rest⟩, hsome⟩ := Option.ne_none_iff_exists'.mp hfound
      obtain ⟨heq, -, -⟩ := reference?_eq_some_iff.mp hsome
      obtain ⟨c, tail, rfl⟩ := List.exists_cons_of_ne_nil hne
      obtain ⟨rfl, -⟩ := List.cons.inj (List.cons.inj heq).2
      exact absurd (hword _ List.mem_cons_self) (by decide)
    · exact hbehind.of_append_left hdollar

theorem toList_interpolate (s : String) :
    (interpolate s).toList = (decompose s.toList).flatMap Piece.interpolated :=
  String.toList_ofList

/-- Interpolation leaves no reference. -/
theorem not_hasReference_interpolate (s : String) : ¬ HasReference (interpolate s).toList := by
  rw [toList_interpolate]
  refine Piece.not_hasReference_flatMap (fun _ => rfl) (Piece.canonical_decompose s.toList) ?_
  intro name hname
  obtain ⟨hne, hword⟩ := Piece.isProper_of_mem_decompose s.toList _ hname
  exact bars_variable hne hword

/-- A text without references is interpolated to itself. -/
theorem interpolate_of_not_hasReference {s : String} (h : ¬ HasReference s.toList) :
    interpolate s = s := by
  apply String.toList_injective
  rw [toList_interpolate, Piece.flatMap_decompose_of_not_hasReference (fun _ => rfl) h]

/-- A text that gets no variable has no reference. -/
theorem interpolate_eq_self_of_not_mem {s : String} (h : '$' ∉ (interpolate s).toList) :
    interpolate s = s := by
  rw [toList_interpolate] at h
  have hsame : ∀ piece ∈ decompose s.toList, piece.interpolated = piece.recorded := by
    intro piece hpiece
    cases piece with
    | literal cs => rfl
    | reference name => exact absurd (List.mem_flatMap.mpr ⟨_, hpiece, List.mem_cons_self⟩) h
  apply String.toList_injective
  rw [toList_interpolate, List.flatMap_congr hsame, Piece.flatMap_recorded_decompose]

theorem interpolate_interpolate (s : String) : interpolate (interpolate s) = interpolate s :=
  interpolate_of_not_hasReference (not_hasReference_interpolate s)

end Text

namespace KeyPart

open Vocabulary

/-- A part as it stands in interpolated text. -/
def interpolated : KeyPart → String
  | .text s => s
  | .key name => "$KEY_" ++ name
  | .variableRef name => "$" ++ name

theorem toList_interpolated (part : KeyPart) :
    part.interpolated.toList = part.toPiece.interpolated := by
  cases part with
  | text s => rfl
  | key name => simp [interpolated, toPiece, Text.Piece.interpolated]
  | variableRef name => simp [interpolated, toPiece, Text.Piece.interpolated]

/-- Interpolation and the reading of keystrokes find the same references. -/
theorem interpolate_eq_join (s : String) :
    Text.interpolate s = String.join ((ofRecorded s).map interpolated) := by
  apply String.toList_injective
  rw [toList_join_map toList_interpolated, map_toPiece_ofRecorded, Text.toList_interpolate]

theorem handleExpr_eq (handle : String) :
    handleExpr handle =
      if Literal.startsWithVariable (Text.interpolate handle) then Text.interpolate handle
      else Literal.quote (Text.interpolate handle) := by
  rw [handleExpr, Literal.text, Text.interpolate_interpolate]

theorem emit_selectWindow_handle {t : Table} (ht : t.IsStandard) {depth : Nat} {c : Command}
    (hname : c.name = "selectWindow") {handle : String}
    (htarget : c.targetText = "handle=" ++ handle) :
    t.emit depth c =
      .ok (withWindow c t.config (callStatement "switchToWindow" (handleExpr handle))) := by
  have hmem : (c.name, selectWindow) ∈ Vocabulary.standard := by
    simp [Vocabulary.standard, interactions, hname]
  rw [Table.emit_of_mem_standard ht hmem, selectWindow, Text.after?_eq_some_iff.mpr htarget]
  rfl

/-- A text is interpolated to what its parts are as keystrokes, one after the other, with special
keys and other variables written as variables. The result has no reference, and interpolating it
once more changes nothing. So a window that is selected by its handle gets the handle as a literal
of the text that is interpolated once, or as it is if that begins with a variable. -/
theorem interpolate_keyParts :
    (∀ s, Text.interpolate s = String.join ((ofRecorded s).map interpolated) ∧
      ¬ Text.HasReference (Text.interpolate s).toList ∧
      Text.interpolate (Text.interpolate s) = Text.interpolate s) ∧
    ∀ config resolver depth (c : Command) handle, c.name = "selectWindow" →
      c.targetText = "handle=" ++ handle →
      ((Table.standard config).withResolver resolver).emit depth c =
        .ok (withWindow c config (callStatement "switchToWindow"
          (if Literal.startsWithVariable (Text.interpolate handle) then Text.interpolate handle
          else Literal.quote (Text.interpolate handle)))) := by
  refine ⟨fun s => ⟨interpolate_eq_join s, Text.not_hasReference_interpolate s,
    Text.interpolate_interpolate s⟩, ?_⟩
  intro config resolver depth c handle hname htarget
  rw [← handleExpr_eq]
  exact emit_selectWindow_handle (Table.isStandard_withResolver config resolver) hname htarget

/-- A handle with a reference between the signs of another one. -/
def nestedHandle : Command :=
  { name := "selectWindow", target := some "handle=w$\x7b$\x7bn\x7d\x7d" }

theorem interpolate_nestedHandle :
    Text.interpolate "w$\x7b$\x7bn\x7d\x7d" = "w$\x7b$n\x7d" := by
  have hreference :
      Text.reference? ['$', '\x7b', 'n', '\x7d', '\x7d'] = some (['n'], ['\x7d']) := by
    decide
  have hchars : "w$\x7b$\x7bn\x7d\x7d".toList =
      ['w', '$', '\x7b', '$', '\x7b', 'n', '\x7d', '\x7d'] := by
    decide
  rw [Text.interpolate, hchars, Text.Piece.decompose_cons_of_none (by decide),
    Text.Piece.decompose_cons_of_none (by decide), Text.Piece.decompose_cons_of_none (by decide),
    Text.Piece.decompose_of_reference hreference,
    Text.Piece.decompose_of_not_mem (by decide) (by decide)]
  decide

/-- Dropping the braces of the inner reference makes no reference of the outer signs. -/
theorem interpolate_keyParts_nestedHandle :
    nestedHandle.targetText = "handle=" ++ "w$\x7b$\x7bn\x7d\x7d" ∧
      ((Table.standard {}).withResolver .standard).emit 0 nestedHandle =
        .ok (.statement "$I->switchToWindow(\"w$\x7b$n\x7d\");") := by
  have htarget : nestedHandle.targetText = "handle=" ++ "w$\x7b$\x7bn\x7d\x7d" := by decide
  have hemit := interpolate_keyParts.2 {} .standard 0 nestedHandle _ rfl htarget
  rw [interpolate_nestedHandle] at hemit
  exact ⟨htarget, hemit⟩

end KeyPart

end CestWriter
