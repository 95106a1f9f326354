import CestWriter.Proofs.Parts
import Mathlib.Data.List.Chain

/-!
# The levels of the lines of a test

A test that is accepted begins and ends at the outermost level, and no line stands more than one
level deeper than the line before it. What carries this through a walk is how the last line that was
written and the running level lie to each other: the line stands at the running level, or one level
above the block that its command has opened. A command that writes nothing leaves the running level
as it is, so this also holds after it.
-/

namespace CestWriter

/-- Lines written while the running level goes from `start` to `final`. -/
structure Profile (start final : Nat) (lines : List Line) : Prop where
  head_le : ∀ l ∈ lines.head?, l.level ≤ start
  climbs : lines.IsChain fun l next => next.level ≤ l.level + 1
  last : ∀ l ∈ lines.getLast?, l.level ≤ final ∧ final ≤ l.level + 1
  of_nil : lines = [] → final = start

namespace Profile

theorem nil (level : Nat) : Profile level level [] where
  head_le := by simp
  climbs := List.isChain_nil
  last := by simp
  of_nil _ := rfl

theorem singleton (level : Nat) (statement : String) : Profile level level [⟨level, statement⟩] where
  head_le := by simp
  climbs := List.isChain_singleton _
  last := by simp
  of_nil h := by cases h

/-- Lines that are written one after the other: the first line of the second part stands at most at
the level that the first part has left, and that is at most one above its last line. -/
theorem append {start mid final : Nat} {first second : List Line} (hfirst : Profile start mid first)
    (hsecond : Profile mid final second) : Profile start final (first ++ second) where
  head_le := by
    intro l hl
    cases first with
    | nil =>
      have hmid : mid = start := hfirst.of_nil rfl
      have hle : l.level ≤ mid := hsecond.head_le l hl
      omega
    | cons a rest => exact hfirst.head_le l hl
  climbs := by
    refine hfirst.climbs.append hsecond.climbs fun a ha b hb => ?_
    have hlast := (hfirst.last a ha).2
    have hhead := hsecond.head_le b hb
    omega
  last := by
    intro l hl
    rw [List.getLast?_append, Option.mem_def, Option.or_eq_some_iff] at hl
    rcases hl with hl | ⟨hnone, hl⟩
    · exact hsecond.last l hl
    · rw [hsecond.of_nil (List.getLast?_eq_none_iff.mp hnone)]
      exact hfirst.last l hl
  of_nil := by
    intro hnil
    obtain ⟨hnil₁, hnil₂⟩ := List.append_eq_nil_iff.mp hnil
    rw [hsecond.of_nil hnil₂, hfirst.of_nil hnil₁]

/-- Lines that may follow at a level may also follow at a greater one. -/
theorem of_le {start start' final : Nat} {lines : List Line} (h : Profile start' final lines)
    (hle : start' ≤ start) (hnil : lines = [] → final = start) : Profile start final lines where
  head_le l hl := Nat.le_trans (h.head_le l hl) hle
  climbs := h.climbs
  last := h.last
  of_nil := hnil

end Profile

theorem profile_commentLines (level : Nat) (comment : String) :
    Profile level level (commentLines level comment) := by
  rw [commentLines]
  split
  · exact Profile.nil level
  · exact Profile.singleton level _

/-- The lines of a command, placed at `base`. They stand at most one level deeper than `base`, so
only the last of them matters for what follows. -/
theorem Placeable.profile {lines : List Line} (h : Placeable lines) {base next : Nat}
    (hlast : ∀ l ∈ lines.getLast?, base + l.level ≤ next) (hnext : next ≤ base + 1) :
    Profile base next (lines.map (Line.shift base)) where
  head_le := by
    obtain ⟨statement, rest, rfl⟩ := h.first
    intro l hl
    cases hl
    exact Nat.le_refl base
  climbs := by
    rw [List.isChain_map]
    have hlevels : lines.Pairwise fun l next => next.level ≤ l.level + 1 :=
      List.pairwise_of_forall_mem_list fun l _ next hmem =>
        Nat.le_trans (h.level_le next hmem) (Nat.le_add_left 1 l.level)
    refine hlevels.isChain.imp fun l next hle => ?_
    simp only [Line.shift]
    omega
  last := by
    intro l hl
    rw [List.getLast?_map, Option.mem_def, Option.map_eq_some_iff] at hl
    obtain ⟨own, hown, rfl⟩ := hl
    have hle := hlast own hown
    simp only [Line.shift]
    omega
  of_nil := by
    obtain ⟨statement, rest, rfl⟩ := h.first
    intro hnil
    cases hnil

namespace Table

/-- What the emission of a command leaves when it is placed. -/
theorem Fits.profile {name : String} {e : Emission} (h : Fits name e) {base next : Nat}
    (hnext : (next : Int) = base + e.after) :
    Profile base next (e.lines.map (Line.shift base)) := by
  by_cases hnothing : e = .nothing
  · subst hnothing
    have hsame : next = base := by
      simp only [Emission.after] at hnext
      omega
    rw [hsame]
    exact Profile.nil base
  · refine (h.placeable hnothing).profile (fun l hl => ?_) ?_
    · have hlast := h.last_level l hl
      omega
    · have hafter := h.after_eq
      rcases Balance.afterOf_cases name with hzero | hone
      · omega
      · omega

section Standard

variable {t : Table} (ht : t.IsStandard)

include ht

/-- What one command leaves. -/
theorem step_profile {level next : Nat} {c : Command} {lines : List Line}
    (h : t.step level c = .ok (next, lines)) : Profile level next lines := by
  cases hd : c.isDisabled with
  | true =>
    rw [step_disabled t level hd] at h
    cases h
    exact (profile_commentLines level c.comment).append (Profile.singleton level _)
  | false =>
    obtain ⟨e, base, hemit, hbase, hnext, hlines⟩ := emission_of_step hd h
    have hfits := fits_of_emit ht hemit
    have hbefore := hfits.before_eq
    rw [hfits.firstLevel_eq hbase] at hlines
    rw [hlines]
    refine ((profile_commentLines base c.comment).append (hfits.profile hnext)).of_le ?_ ?_
    · rcases Balance.beforeOf_cases c.name with hzero | hminus
      · omega
      · omega
    · -- only a command that emits nothing can leave no line, and it does not move the level
      intro hnil
      have hnothing : e = .nothing := by
        by_contra hne
        obtain ⟨statement, rest, hfirst⟩ := (hfits.placeable hne).first
        rw [hfirst, List.append_eq_nil_iff] at hnil
        cases hnil.2
      subst hnothing
      simp only [Emission.before, Emission.after] at hbase hnext
      omega

/-- What the commands of a test leave. -/
theorem walk_profile {level final : Nat} {commands : List Command} {lines : List Line}
    (h : t.walk level commands = .ok (final, lines)) : Profile level final lines := by
  induction commands generalizing level lines with
  | nil =>
    cases h
    exact Profile.nil final
  | cons c rest ih =>
    obtain ⟨next, own, more, hstep, hrest, rfl⟩ := walk_cons_eq_ok_iff.mp h
    exact (step_profile ht hstep).append (ih hrest)

end Standard

/-- In a test that is accepted the first and the last line stand at the outermost level, and every
line stands at most one level deeper than the line before it. -/
theorem renderTest_level_profile (config : Config) (resolver : Resolver) (commands : List Command)
    (lines : List Line)
    (hok : ((standard config).withResolver resolver).renderTest commands = .ok lines) :
    (∀ l ∈ lines.head?, l.level = 0) ∧ (∀ l ∈ lines.getLast?, l.level = 0) ∧
      lines.IsChain fun l next => next.level ≤ l.level + 1 := by
  have ht := isStandard_withResolver config resolver
  have hprofile : Profile 0 0 lines := walk_profile ht (renderTest_eq_ok_iff.mp hok)
  refine ⟨fun l hl => ?_, fun l hl => ?_, hprofile.climbs⟩
  · exact Nat.eq_zero_of_le_zero (hprofile.head_le l hl)
  · exact Nat.eq_zero_of_le_zero (hprofile.last l hl).1

/-- A loop over rows, in a step that opens a window. -/
def windowedLoop : Command :=
  { name := "forEach", target := some "rows", value := some "row", comment := "each row",
    opensWindow := true, windowHandleName := "popup" }

/-- A callback on the driver. -/
def keepHandle : Command :=
  { name := "storeWindowHandle", target := some "main" }

/-- A loop whose lines for a window end at its own level again, around a callback. -/
theorem level_profile_windowedLoop :
    ∃ lines, ((standard {}).withResolver .standard).renderTest
        [windowedLoop, keepHandle, { name := "end", comment := "done" }] = .ok lines ∧
      lines.map Line.level = [0, 0, 0, 0, 1, 0, 1, 2, 1, 0, 0] ∧
      (∀ l ∈ lines.head?, l.level = 0) ∧ (∀ l ∈ lines.getLast?, l.level = 0) ∧
      lines.IsChain fun l next => next.level ≤ l.level + 1 := by
  have ht := isStandard_withResolver {} .standard
  have hkeep : (keepHandle.name, Vocabulary.storeWindowHandle) ∈ Vocabulary.standard := by
    simp [Vocabulary.standard, Vocabulary.storing, keepHandle]
  have hloop := @step_of_emit _ 0 0 1 _ _ (by decide)
    (emit_keyword ht (c := windowedLoop) (k := .forEach) rfl) rfl rfl
  have hcallback := @step_of_emit _ 1 1 1 _ _ (by decide)
    (emit_of_mem_standard ht hkeep) rfl rfl
  have hend := @step_of_emit _ 1 0 0 _ _ (by decide)
    (emit_keyword ht (c := { name := "end", comment := "done" }) (k := .endBlock) rfl)
    (show ((0 : Nat) : Int) = (1 : Nat) + -1 by decide) rfl
  have hok := renderTest_eq_ok (walk_cons hloop (walk_cons hcallback (walk_singleton hend)))
  exact ⟨_, hok, rfl, renderTest_level_profile {} .standard _ _ hok⟩

end Table

end CestWriter
