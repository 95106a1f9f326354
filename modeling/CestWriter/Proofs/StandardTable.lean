import CestWriter.Proofs.PlainEmission
import CestWriter.Proofs.Registry
import CestWriter.Table

/-!
# Emission by the standard vocabulary

A table with the standard vocabulary emits nothing for the commands of the recorder, a block with
the level changes of its keyword for a command of control flow, and a plain emission for all other
commands that it knows. Opening a window adds lines and keeps the level changes. Only the lines of
loop headers depend on the depth; whether emission succeeds, and with which error it fails, never
does.
-/

namespace CestWriter

namespace Keyword

theorem ofName?_name (k : Keyword) : ofName? k.name = some k := by
  cases k <;> decide

theorem ofName?_eq_some_iff {name : String} {k : Keyword} :
    ofName? name = some k ↔ name = k.name := by
  constructor
  · intro h
    have hfound := List.find?_some h
    exact (beq_iff_eq.mp hfound).symm
  · rintro rfl
    exact ofName?_name k

theorem mem_all (k : Keyword) : k ∈ all := by
  cases k <;> decide

/-- The change of the level before the lines of a command of this name. -/
def beforeOf (name : String) : Int :=
  match ofName? name with
  | some k => k.before
  | none => 0

/-- The change of the level after the lines of a command of this name. -/
def afterOf (name : String) : Int :=
  match ofName? name with
  | some k => k.after
  | none => 0

@[simp] theorem beforeOf_name (k : Keyword) : beforeOf k.name = k.before := by
  rw [beforeOf, ofName?_name]

@[simp] theorem afterOf_name (k : Keyword) : afterOf k.name = k.after := by
  rw [afterOf, ofName?_name]

theorem after_nonneg (k : Keyword) : 0 ≤ k.after := by
  cases k <;> decide

theorem beforeOf_eq_zero {name : String} (h : ofName? name = none) : beforeOf name = 0 := by
  rw [beforeOf, h]

theorem afterOf_eq_zero {name : String} (h : ofName? name = none) : afterOf name = 0 := by
  rw [afterOf, h]

/-- Whether a command is the header of a loop over a collection or a number of times. -/
def isLoopHeader : Keyword → Bool
  | .forEach | .times => true
  | _ => false

end Keyword

namespace Vocabulary

/-! ## Lines around a command that opens a window -/

theorem Placeable.windowed {lines : List Line} (h : Placeable lines) (c : Command)
    (config : Config) : Placeable (snapshotLine :: lines ++ [awaitLine c config]) where
  first := ⟨_, _, rfl⟩
  level_le := by
    intro l hl
    simp only [List.cons_append, List.mem_cons, List.mem_append, List.not_mem_nil, or_false] at hl
    rcases hl with rfl | hl | rfl
    · exact Nat.zero_le 1
    · exact h.level_le l hl
    · exact Nat.zero_le 1
  statement_ne := by
    intro l hl
    simp only [List.cons_append, List.mem_cons, List.mem_append, List.not_mem_nil, or_false] at hl
    rcases hl with rfl | hl | rfl
    · simp [snapshotLine]
    · exact h.statement_ne l hl
    · simp [awaitLine]

@[simp] theorem withWindow_before (c : Command) (config : Config) (e : Emission) :
    (withWindow c config e).before = e.before := by
  unfold withWindow
  split <;> rfl

@[simp] theorem withWindow_after (c : Command) (config : Config) (e : Emission) :
    (withWindow c config e).after = e.after := by
  unfold withWindow
  split <;> rfl

@[simp] theorem withWindow_nothing (c : Command) (config : Config) :
    withWindow c config .nothing = .nothing := by
  simp [withWindow, Emission.isEmpty]

theorem placeable_withWindow {e : Emission} (h : Placeable e.lines) (c : Command)
    (config : Config) : Placeable (withWindow c config e).lines := by
  unfold withWindow
  split
  · exact Placeable.windowed h c config
  · exact h

/-- The lines for a window end at the level of the command. -/
theorem last_level_withWindow {e : Emission} {bound : Int} (hbound : 0 ≤ bound)
    (h : ∀ l ∈ e.lines.getLast?, (l.level : Int) ≤ bound) (c : Command) (config : Config) :
    ∀ l ∈ (withWindow c config e).lines.getLast?, (l.level : Int) ≤ bound := by
  unfold withWindow
  split
  · intro l hl
    rw [Emission.lines, List.getLast?_concat, Option.mem_some_iff] at hl
    rw [← hl]
    exact hbound
  · exact h

/-- An emission with placeable lines is not the empty one. -/
theorem ne_nothing_of_placeable {e : Emission} (h : Placeable e.lines) : e ≠ .nothing := by
  rintro rfl
  obtain ⟨statement, rest, heq⟩ := h.first
  cases heq

theorem placeable_keywordLines (c : Command) (depth : Nat) (k : Keyword) :
    Placeable (keywordLines c depth k) := by
  cases k
  all_goals exact {
    first := ⟨_, _, rfl⟩
    level_le := by simp [keywordLines]
    statement_ne := by simp [keywordLines] }

/-- Only a command that opens a block may leave its last line inside it. -/
theorem last_level_keywordLines (c : Command) (depth : Nat) (k : Keyword) :
    ∀ l ∈ (keywordLines c depth k).getLast?, (l.level : Int) ≤ k.after := by
  cases k <;> simp [keywordLines, Keyword.after]

theorem keywordLines_depth (c : Command) (depth depth' : Nat) {k : Keyword}
    (h : k.isLoopHeader = false) : keywordLines c depth k = keywordLines c depth' k := by
  cases k <;> first | rfl | exact absurd h (by decide)

/-- The commands that are known from the start have distinct names. -/
theorem standard_names_nodup : (standard.map (·.1)).Nodup := by
  decide +kernel

theorem keyword_mem_standard (k : Keyword) : (k.name, controlFlow k) ∈ standard := by
  simp only [standard, List.mem_append, List.mem_map]
  have hkeyword : ∃ j ∈ Keyword.all, (j.name, controlFlow j) = (k.name, controlFlow k) :=
    ⟨k, k.mem_all, rfl⟩
  exact .inl (.inl (.inl (.inl (.inl (.inl (.inr hkeyword))))))

/-- The names of the commands that only concern the recorder. -/
def recorderNames : List String :=
  ["answerOnNextPrompt", "chooseCancelOnNextConfirmation", "chooseCancelOnNextPrompt",
    "chooseOkOnNextConfirmation", "debugger"]

theorem mem_recorderOnly_iff {name : String} : name ∈ recorderOnly ↔ name ∈ recorderNames :=
  Iff.rfl

theorem recorder_mem_standard {name : String} (h : name ∈ recorderOnly) :
    (name, skip) ∈ standard := by
  simp [standard, h]

end Vocabulary

namespace Table

open Vocabulary

theorem get?_standardEmitters_eq_some_iff {name : String} {emitter : Emitter} :
    standardEmitters.get? name = some emitter ↔ (name, emitter) ∈ Vocabulary.standard :=
  Registry.get?_ofList_eq_some_iff standard_names_nodup

/-- The table has the standard vocabulary and no other commands. How locators are resolved and how
the table is configured is left open. -/
def IsStandard (t : Table) : Prop :=
  t.emitters = standardEmitters

theorem isStandard_withResolver (config : Config) (resolver : Resolver) :
    ((standard config).withResolver resolver).IsStandard :=
  rfl

/-- The emission of the command succeeds. By `emits_iff_forall_depth` the depth does not matter. -/
def Emits (t : Table) (c : Command) : Prop :=
  ∃ depth e, t.emit depth c = .ok e

theorem get?_register (t : Table) (name key : String) (emitter : Emitter) :
    (t.register name emitter).emitters.get? key =
      if key = name then some emitter else t.emitters.get? key :=
  Registry.get?_insert t.emitters name key emitter

/-- What a table emits for a command is what the emitter of that name makes of it, with the lines
for a window that the command opens. -/
theorem emit_of_get? {t : Table} {c : Command} {emitter : Emitter} (depth : Nat)
    (h : t.emitters.get? c.name = some emitter) :
    t.emit depth c = (emitter ⟨t.resolver, t.config, depth⟩ c).map (withWindow c t.config) := by
  unfold emit
  rw [h]
  change (emitter ⟨t.resolver, t.config, depth⟩ c >>= fun e => pure (withWindow c t.config e)) = _
  cases emitter ⟨t.resolver, t.config, depth⟩ c with
  | error error => rfl
  | ok e => rfl

theorem emit_unknown {t : Table} {c : Command} (depth : Nat)
    (h : t.emitters.get? c.name = none) : t.emit depth c = .error (.unknownCommand c.name) := by
  unfold emit
  rw [h]

section Standard

variable {t : Table} (ht : t.IsStandard) {c : Command} {depth depth' : Nat}

include ht

theorem emit_of_mem_standard {emitter : Emitter} (h : (c.name, emitter) ∈ Vocabulary.standard) :
    t.emit depth c = (emitter ⟨t.resolver, t.config, depth⟩ c).map (withWindow c t.config) := by
  apply emit_of_get?
  rw [ht]
  exact get?_standardEmitters_eq_some_iff.mpr h

/-- A command of control flow always has an emission: a block with the level changes of its
keyword. -/
theorem emit_keyword {k : Keyword} (hname : c.name = k.name) :
    t.emit depth c =
      .ok (withWindow c t.config (.block (keywordLines c depth k) k.before k.after)) := by
  rw [emit_of_mem_standard ht (hname ▸ keyword_mem_standard k)]
  rfl

theorem emit_recorderOnly (hname : c.name ∈ recorderOnly) : t.emit depth c = .ok .nothing := by
  rw [emit_of_mem_standard ht (recorder_mem_standard hname)]
  exact congrArg Except.ok (withWindow_nothing c t.config)

/-- A command is known and has a place in the vocabulary, or it is unknown at every depth. -/
theorem mem_standard_or_unknown (c : Command) :
    (∃ emitter, (c.name, emitter) ∈ Vocabulary.standard) ∨
      ∀ depth, t.emit depth c = .error (.unknownCommand c.name) := by
  cases hget : t.emitters.get? c.name with
  | none => exact .inr fun depth => emit_unknown depth hget
  | some emitter =>
    rw [ht] at hget
    exact .inl ⟨emitter, get?_standardEmitters_eq_some_iff.mp hget⟩

/-! ## Depth -/

theorem emit_depth (depth depth' : Nat)
    (hname : ∀ k : Keyword, c.name = k.name → k.isLoopHeader = false) :
    t.emit depth c = t.emit depth' c := by
  rcases mem_standard_or_unknown ht c with ⟨emitter, hmem⟩ | hunknown
  · rw [emit_of_mem_standard ht hmem, emit_of_mem_standard ht hmem]
    rcases standard_cases hmem with ⟨-, rfl⟩ | ⟨k, hk, rfl⟩ | hplain
    · rfl
    · simp only [controlFlow, keywordLines_depth c depth depth' (hname k hk)]
    · rw [hplain.depth_irrelevant t.resolver t.config depth depth']
  · rw [hunknown, hunknown]

/-- Neither success nor the error of an emission depends on the depth. -/
theorem emit_error_depth {error : Error} (h : t.emit depth c = .error error) (depth' : Nat) :
    t.emit depth' c = .error error := by
  rw [← h]
  refine emit_depth ht depth' depth fun k hk => ?_
  rw [emit_keyword ht hk] at h
  cases h

theorem emits_iff_forall_depth : t.Emits c ↔ ∀ depth, ∃ e, t.emit depth c = .ok e := by
  constructor
  · rintro ⟨depth, e, he⟩ depth'
    cases h : t.emit depth' c with
    | ok e' => exact ⟨e', rfl⟩
    | error error =>
      rw [emit_error_depth ht h depth] at he
      cases he
  · intro h
    exact ⟨0, h 0⟩

theorem emits_keyword {k : Keyword} (hname : c.name = k.name) : t.Emits c :=
  ⟨0, _, emit_keyword ht hname⟩

end Standard

/-- An emission has the form that the name of its command calls for. -/
structure Fits (name : String) (e : Emission) : Prop where
  before_eq : e.before = Keyword.beforeOf name
  after_eq : e.after = Keyword.afterOf name
  nothing_iff : e = .nothing ↔ name ∈ recorderOnly
  placeable : e ≠ .nothing → Placeable e.lines
  last_level : ∀ l ∈ e.lines.getLast?, (l.level : Int) ≤ e.after

theorem ofName?_eq_none_of_recorderOnly : ∀ name ∈ recorderOnly, Keyword.ofName? name = none := by
  decide

theorem fits_keyword (c : Command) (config : Config) (depth : Nat) (k : Keyword) :
    Fits k.name (withWindow c config (.block (keywordLines c depth k) k.before k.after)) := by
  have hplaceable := placeable_withWindow (e := .block (keywordLines c depth k) k.before k.after)
    (placeable_keywordLines c depth k) c config
  have hrecorder : k.name ∉ recorderOnly := by
    intro hmem
    have hnone := ofName?_eq_none_of_recorderOnly k.name hmem
    rw [Keyword.ofName?_name] at hnone
    cases hnone
  exact {
    before_eq := by rw [withWindow_before, Keyword.beforeOf_name]; rfl
    after_eq := by rw [withWindow_after, Keyword.afterOf_name]; rfl
    nothing_iff := iff_of_false (ne_nothing_of_placeable hplaceable) hrecorder
    placeable := fun _ => hplaceable
    last_level := by
      rw [withWindow_after]
      exact last_level_withWindow (e := .block (keywordLines c depth k) k.before k.after)
        (Keyword.after_nonneg k) (last_level_keywordLines c depth k) c config }

theorem fits_nothing {name : String} (hname : name ∈ recorderOnly) : Fits name .nothing where
  before_eq := (Keyword.beforeOf_eq_zero (ofName?_eq_none_of_recorderOnly name hname)).symm
  after_eq := (Keyword.afterOf_eq_zero (ofName?_eq_none_of_recorderOnly name hname)).symm
  nothing_iff := iff_of_true rfl hname
  placeable := fun h => absurd rfl h
  last_level := by simp [Emission.lines]

/-- What a table with the standard vocabulary emits has the form that the name of the command calls
for. -/
theorem fits_of_emit {t : Table} (ht : t.IsStandard) {depth : Nat} {c : Command} {e : Emission}
    (h : t.emit depth c = .ok e) : Fits c.name e := by
  -- The names of the three groups are told apart before the emitter is looked at, since only then
  -- is it known which of the three forms the emission has.
  by_cases hrecorder : c.name ∈ recorderOnly
  · rw [emit_recorderOnly ht hrecorder] at h
    cases h
    exact fits_nothing hrecorder
  cases hkeyword : Keyword.ofName? c.name with
  | some k =>
    have hname := Keyword.ofName?_eq_some_iff.mp hkeyword
    rw [emit_keyword ht hname] at h
    cases h
    rw [hname]
    exact fits_keyword c t.config depth k
  | none =>
    rcases mem_standard_or_unknown ht c with ⟨emitter, hmem⟩ | hunknown
    · rw [emit_of_mem_standard ht hmem] at h
      rcases standard_cases hmem with ⟨hmem, -⟩ | ⟨k, hk, -⟩ | hplain
      · exact absurd hmem hrecorder
      · rw [hk, Keyword.ofName?_name] at hkeyword
        cases hkeyword
      · cases hresult : emitter ⟨t.resolver, t.config, depth⟩ c with
        | error error =>
          rw [hresult] at h
          cases h
        | ok inner =>
          rw [hresult] at h
          cases h
          have hinner := hplain.yieldsPlain _ c inner hresult
          have hplaceable := placeable_withWindow hinner.placeable c t.config
          exact {
            before_eq := by
              rw [withWindow_before, hinner.before_eq, Keyword.beforeOf_eq_zero hkeyword]
            after_eq := by
              rw [withWindow_after, hinner.after_eq, Keyword.afterOf_eq_zero hkeyword]
            nothing_iff := iff_of_false (ne_nothing_of_placeable hplaceable) hrecorder
            placeable := fun _ => hplaceable
            last_level := by
              rw [withWindow_after, hinner.after_eq]
              refine last_level_withWindow (Int.le_refl 0) (fun l hl => ?_) c t.config
              rw [hinner.last_level l hl]
              exact Int.le_refl 0 }
    · rw [hunknown] at h
      cases h

end Table

end CestWriter
