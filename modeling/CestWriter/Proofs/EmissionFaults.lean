import CestWriter.Proofs.Cuts
import CestWriter.Proofs.StandardTable
import CestWriter.Proofs.WindowNumbers

/-!
# When emission fails

The names of a few commands call for a parameter of a certain form: an option with a label, an
offset with two parts, a size, an attribute, a window. The emitters of these commands report a
parameter without that form before they ask for any locator. All other errors of the standard
vocabulary are errors of the resolver, for the target of the command or for one of two other
locators that a command may have.
-/

namespace CestWriter

namespace Resolver

/-- The resolver gives this error for one of the forms of a locator. -/
def Refuses (r : Resolver) (locator : String) (error : Error) : Prop :=
  r.strict locator = .error error ∨ r.driver locator = .error error

/-- The resolver has both forms of every locator. -/
def NeverFails (r : Resolver) : Prop :=
  ∀ locator error, ¬ r.Refuses locator error

end Resolver

/-- The target selects a window: by its handle, by its name, or by its number in the order of
opening. -/
def SelectsWindow (target : String) : Prop :=
  (∃ handle, target = "handle=" ++ handle) ∨ (∃ name, target = "name=" ++ name) ∨
    ∃ index, target = "win_ser_" ++ index ∧ (index = "local" ∨ WritesWord64 (floorText index))

/-- What the name of a command may demand of a parameter. -/
inductive Demand where
  | option
  | offset
  | size
  | attribute
  | window
deriving DecidableEq

namespace Demand

/-- The commands that make the demand. -/
def names : Demand → List String
  | .option => ["select", "addSelection", "removeSelection"]
  | .offset => ["mouseMoveAt"]
  | .size => ["setWindowSize"]
  | .attribute => ["storeAttribute"]
  | .window => ["selectWindow"]

/-- The parameters of the command do not meet the demand. -/
def Unmet : Demand → Command → Prop
  | .option, c => '=' ∉ c.valueText.toList
  | .offset, c => c.valueText ≠ "" ∧ ',' ∉ c.valueText.toList
  | .size, c => 'x' ∉ c.targetText.toList
  | .attribute, c => '@' ∉ c.targetText.toList
  | .window, c => ¬ SelectsWindow c.targetText

/-- The error that reports a demand that is not met. -/
def error : Demand → Command → Error
  | .option, c => .malformed c.name (.option c.valueText)
  | .offset, c => .malformed c.name (.offset c.valueText)
  | .size, c => .malformed c.name (.size c.targetText)
  | .attribute, c => .malformed c.name (.attribute c.targetText)
  | .window, _ => .windowSelection

/-- No command makes two demands. -/
theorem eq_of_mem_names {d d' : Demand} {name : String} (h : name ∈ d.names)
    (h' : name ∈ d'.names) : d = d' := by
  have hdisjoint : ∀ name ∈ d.names, name ∈ d'.names → d = d' := by
    cases d <;> cases d' <;> decide
  exact hdisjoint name h h'

/-- All commands that make a demand. -/
def demanding : List String :=
  ["select", "addSelection", "removeSelection", "mouseMoveAt", "setWindowSize", "storeAttribute",
    "selectWindow"]

theorem mem_demanding (d : Demand) : ∀ name ∈ d.names, name ∈ demanding := by
  cases d <;> decide

end Demand

/-- A parameter of the command does not have the form that its name calls for, and this error says
so. -/
def Misshapen (c : Command) (error : Error) : Prop :=
  ∃ d : Demand, c.name ∈ d.names ∧ d.Unmet c ∧ error = d.error c

/-- A locator that the command may ask the resolver for: its target, the value of a command that
drags, and the target of a command that stores an attribute, without the attribute. -/
def Asked (c : Command) (locator : String) : Prop :=
  locator = c.targetText ∨ (c.name = "dragAndDropToObject" ∧ locator = c.valueText) ∨
    (c.name = "storeAttribute" ∧
      ∃ name, c.targetText = locator ++ "@" ++ name ∧ '@' ∉ name.toList)

/-- The error is one that the resolver gives for a locator of the command. -/
def Unresolved (r : Resolver) (c : Command) (error : Error) : Prop :=
  ∃ locator, Asked c locator ∧ r.Refuses locator error

theorem unresolved_of_refuses {r : Resolver} {c : Command} {error : Error}
    (h : r.Refuses c.targetText error) : Unresolved r c error :=
  ⟨c.targetText, .inl rfl, h⟩

namespace Vocabulary

/-! ## The errors of a computation -/

/-- If the computation fails, then with one of these errors. -/
def ErrorsIn {α : Type} (errors : Error → Prop) (result : Except Error α) : Prop :=
  ∀ error, result = .error error → errors error

section ErrorsIn

variable {α β : Type} {errors : Error → Prop}

theorem errorsIn_ok (a : α) : ErrorsIn errors (.ok a : Except Error α) := by
  intro error h
  cases h

theorem ErrorsIn.bind {x : Except Error α} (hx : ErrorsIn errors x) {f : α → Except Error β}
    (hf : ∀ a, ErrorsIn errors (f a)) : ErrorsIn errors (x >>= f) := by
  cases x with
  | error error =>
    intro error' h
    cases h
    exact hx error rfl
  | ok a => exact hf a

theorem ErrorsIn.mono {x : Except Error α} (hx : ErrorsIn errors x) {errors' : Error → Prop}
    (h : ∀ error, errors error → errors' error) : ErrorsIn errors' x :=
  fun error herror => h error (hx error herror)

end ErrorsIn

section Locators

variable (ctx : Context) (target : String)

theorem errorsIn_strict : ErrorsIn (ctx.resolver.Refuses target) (ctx.resolver.strict target) :=
  fun _ => .inl

theorem errorsIn_driver : ErrorsIn (ctx.resolver.Refuses target) (ctx.resolver.driver target) :=
  fun _ => .inr

theorem errorsIn_callOn (method value : String) :
    ErrorsIn (ctx.resolver.Refuses target) (callOn ctx method target value) := by
  refine ErrorsIn.bind ?_ fun _ => errorsIn_ok _
  unfold elementArguments
  split
  · exact errorsIn_ok _
  · exact (errorsIn_strict ctx target).bind fun _ => errorsIn_ok _

theorem errorsIn_onElement (method value : String) :
    ErrorsIn (ctx.resolver.Refuses target) (onElement method ctx target value) :=
  (errorsIn_callOn ctx target method value).bind fun _ => errorsIn_ok _

end Locators

/-! ## Emitters that demand nothing -/

/-- All errors of the emitter are errors of the resolver for the target. -/
def Relays (emitter : Emitter) : Prop :=
  ∀ ctx c, ErrorsIn (ctx.resolver.Refuses c.targetText) (emitter ctx c)

theorem relays_onDriver (body : String → List String) : Relays (onDriver body) :=
  fun ctx c => (errorsIn_driver ctx c.targetText).bind fun _ => errorsIn_ok _

theorem relays_of_ok {emitter : Emitter} (h : ∀ ctx c, ∃ e, emitter ctx c = .ok e) :
    Relays emitter := by
  intro ctx c
  obtain ⟨e, he⟩ := h ctx c
  rw [he]
  exact errorsIn_ok e

theorem relays_skip : Relays skip :=
  relays_of_ok fun _ _ => ⟨_, rfl⟩

theorem relays_controlFlow (k : Keyword) : Relays (controlFlow k) :=
  relays_of_ok fun _ _ => ⟨_, rfl⟩

@[simp] theorem relays_targetCall (method : String) : Relays (targetCall method) :=
  fun ctx c => errorsIn_onElement ctx c.targetText method ""

@[simp] theorem relays_targetAndTextCall (method : String) : Relays (targetAndTextCall method) :=
  fun ctx c => errorsIn_onElement ctx c.targetText method (Literal.text c.valueText)

@[simp] theorem relays_textCall (method : String) : Relays (textCall method) :=
  relays_of_ok fun _ _ => ⟨_, rfl⟩

@[simp] theorem relays_bareCall (method : String) : Relays (bareCall method) :=
  relays_of_ok fun _ _ => ⟨_, rfl⟩

@[simp] theorem relays_editContent : Relays editContent :=
  fun ctx c => relays_onDriver _ ctx c

@[simp] theorem relays_mouseButton (method : String) : Relays (mouseButton method) :=
  relays_onDriver _

@[simp] theorem relays_mouseMove : Relays mouseMove :=
  relays_targetCall _

@[simp] theorem relays_mouseOut : Relays mouseOut :=
  relays_of_ok fun _ _ => ⟨_, rfl⟩

@[simp] theorem relays_openPage : Relays openPage :=
  relays_of_ok fun _ _ => ⟨_, rfl⟩

@[simp] theorem relays_pause : Relays pause :=
  relays_of_ok fun _ _ => ⟨_, rfl⟩

@[simp] theorem relays_run : Relays run :=
  relays_of_ok fun _ _ => ⟨_, rfl⟩

@[simp] theorem relays_sendKeys : Relays sendKeys :=
  fun ctx c => errorsIn_onElement ctx c.targetText _ _

@[simp] theorem relays_setSpeed : Relays setSpeed :=
  relays_of_ok fun _ _ => ⟨_, rfl⟩

@[simp] theorem relays_echo : Relays echo :=
  relays_of_ok fun _ _ => ⟨_, rfl⟩

@[simp] theorem relays_answerPrompt : Relays answerPrompt :=
  relays_of_ok fun _ _ => ⟨_, rfl⟩

@[simp] theorem relays_selectFrame : Relays selectFrame := by
  intro ctx c
  unfold selectFrame
  split
  · exact errorsIn_ok _
  · split
    · exact errorsIn_ok _
    · exact relays_onDriver _ ctx c

@[simp] theorem relays_assertVariable : Relays assertVariable :=
  relays_of_ok fun _ _ => ⟨_, rfl⟩

@[simp] theorem relays_assertEnabled (assertion : String) : Relays (assertEnabled assertion) :=
  relays_onDriver _

@[simp] theorem relays_textCheck (method : String) : Relays (textCheck method) := by
  intro ctx c
  refine ErrorsIn.bind ?_ fun _ => errorsIn_ok _
  unfold textArguments
  split
  · exact errorsIn_ok _
  · exact (errorsIn_strict ctx c.targetText).bind fun _ => errorsIn_ok _

@[simp] theorem relays_store : Relays store :=
  relays_of_ok fun _ _ => ⟨_, rfl⟩

@[simp] theorem relays_storeJson : Relays storeJson :=
  relays_of_ok fun _ _ => ⟨_, rfl⟩

@[simp] theorem relays_storeGrabbed (method : String) : Relays (storeGrabbed method) :=
  fun ctx c => (errorsIn_callOn ctx c.targetText method "").bind fun _ => errorsIn_ok _

@[simp] theorem relays_storeTitle : Relays storeTitle :=
  relays_of_ok fun _ _ => ⟨_, rfl⟩

@[simp] theorem relays_storeWindowHandle : Relays storeWindowHandle :=
  relays_of_ok fun _ _ => ⟨_, rfl⟩

@[simp] theorem relays_storeCount : Relays storeCount :=
  fun ctx c => (errorsIn_callOn ctx c.targetText _ "").bind fun _ => errorsIn_ok _

@[simp] theorem relays_executeScript : Relays executeScript :=
  relays_of_ok fun _ _ => ⟨_, rfl⟩

@[simp] theorem relays_executeAsyncScript : Relays executeAsyncScript :=
  relays_of_ok fun _ _ => ⟨_, rfl⟩

@[simp] theorem relays_runScript : Relays runScript :=
  relays_of_ok fun _ _ => ⟨_, rfl⟩

@[simp] theorem relays_waitFor (method : String) : Relays (waitFor method) :=
  fun ctx c => errorsIn_onElement ctx c.targetText method _

@[simp] theorem relays_waitUntil (condition : String → String) : Relays (waitUntil condition) :=
  fun ctx c => relays_onDriver _ ctx c

@[simp] theorem relays_waitForText : Relays waitForText :=
  fun ctx c => (errorsIn_strict ctx c.targetText).bind fun _ => errorsIn_ok _

/-! ## Emitters with a demand -/

/-- The emitter reports a demand that is not met, and otherwise only fails with the resolver. -/
structure Heeds (d : Demand) (emitter : Emitter) : Prop where
  reports : ∀ ctx c, d.Unmet c → emitter ctx c = .error (d.error c)
  relays : ∀ ctx c, c.name ∈ d.names → ¬ d.Unmet c →
    ErrorsIn (Unresolved ctx.resolver c) (emitter ctx c)

theorem heeds_optionCall (method : String) : Heeds .option (optionCall method) where
  reports ctx c hunmet := by
    have hpieces := Text.pieces_of_not_mem hunmet
    have hlabel : optionLabel c = .error (Demand.option.error c) := by
      rw [optionLabel, hpieces]
      rfl
    rw [optionCall, hlabel]
    rfl
  relays ctx c _ hmet := by
    obtain ⟨first, label, rest, hpieces⟩ := Text.pieces_of_mem (Decidable.not_not.mp hmet)
    have hlabel : optionLabel c = .ok (String.ofList label) := by
      rw [optionLabel, hpieces]
    rw [optionCall, hlabel]
    exact (errorsIn_onElement ctx c.targetText method _).mono fun _ => unresolved_of_refuses

theorem heeds_mouseMoveAt : Heeds .offset mouseMoveAt where
  reports ctx c hunmet := by
    obtain ⟨hvalue, hmark⟩ := hunmet
    rw [mouseMoveAt, if_neg (by simpa using hvalue), Text.splitFirst_eq_none_iff.mpr hmark]
    rfl
  relays ctx c _ hmet := by
    unfold mouseMoveAt
    split
    · exact (relays_mouseMove ctx c).mono fun _ => unresolved_of_refuses
    · next hvalue =>
      split
      · next hsplit =>
        exact absurd ⟨by simpa using hvalue, Text.splitFirst_eq_none_iff.mp hsplit⟩ hmet
      · exact (errorsIn_onElement ctx c.targetText _ _).mono fun _ => unresolved_of_refuses

theorem heeds_setWindowSize : Heeds .size setWindowSize where
  reports ctx c hunmet := by
    rw [setWindowSize, Text.splitFirst_eq_none_iff.mpr hunmet]
    rfl
  relays ctx c _ hmet := by
    unfold setWindowSize
    split
    · next hsplit => exact absurd (Text.splitFirst_eq_none_iff.mp hsplit) hmet
    · exact errorsIn_ok _

theorem heeds_storeAttribute : Heeds .attribute storeAttribute where
  reports ctx c hunmet := by
    rw [storeAttribute, Text.splitLast_eq_none_iff.mpr hunmet]
    rfl
  relays ctx c hname hmet := by
    unfold storeAttribute
    split
    · next hsplit => exact absurd (Text.splitLast_eq_none_iff.mp hsplit) hmet
    · next element name hsplit =>
      have htarget : c.targetText = element ++ "@" ++ name := by
        apply String.toList_injective
        rw [Text.splitLast_eq_some hsplit]
        simp
      have hasked : Asked c element :=
        .inr (.inr ⟨List.mem_singleton.mp hname, name, htarget, Text.not_mem_of_splitLast hsplit⟩)
      refine ErrorsIn.bind ?_ fun _ => errorsIn_ok _
      exact (errorsIn_callOn ctx element _ _).mono fun error herror => ⟨element, hasked, herror⟩

theorem isWord64_windowNumber_iff (index : String) :
    isWord64 (windowNumber index) = true ↔ index = "local" ∨ WritesWord64 (floorText index) := by
  unfold windowNumber
  split
  · next hlocal => exact iff_of_true (by decide) (.inl hlocal)
  · next hother => rw [isWord64_floorText_iff, or_iff_right hother]

/-- The ways to select a window, as the emitter tries them. -/
theorem selectsWindow_iff (target : String) :
    SelectsWindow target ↔
      (∃ handle, Text.after? "handle=" target = some handle) ∨
        (∃ name, Text.after? "name=" target = some name) ∨
        ∃ index, Text.after? "win_ser_" target = some index ∧
          isWord64 (windowNumber index) = true := by
  simp only [SelectsWindow, Text.after?_eq_some_iff, isWord64_windowNumber_iff]

theorem heeds_selectWindow : Heeds .window selectWindow where
  reports ctx c hunmet := by
    have hways := fun h => hunmet ((selectsWindow_iff c.targetText).mpr h)
    unfold selectWindow
    split
    · next handle hhandle => exact absurd (.inl ⟨handle, hhandle⟩) hways
    · split
      · next name hname => exact absurd (.inr (.inl ⟨name, hname⟩)) hways
      · split
        · next index hindex =>
          have hnumber : ¬ isWord64 (windowNumber index) = true := fun hword =>
            hways (.inr (.inr ⟨index, hindex, hword⟩))
          simp only [selectNumbered, if_neg hnumber]
          rfl
        · rfl
  relays ctx c _ hmet := by
    have hways := (selectsWindow_iff c.targetText).mp (Classical.not_not.mp hmet)
    unfold selectWindow
    split
    · exact errorsIn_ok _
    · next hhandle =>
      split
      · exact errorsIn_ok _
      · next hname =>
        rw [hhandle, hname] at hways
        obtain ⟨_, hnone⟩ | ⟨_, hnone⟩ | ⟨index, hindex, hword⟩ := hways
        · cases hnone
        · cases hnone
        · rw [hindex]
          simp only [selectNumbered, if_pos hword]
          exact errorsIn_ok _

/-! ## The standard vocabulary -/

/-- The emitter of the commands of this name reports a demand that is not met, and otherwise only
fails with the resolver. -/
structure FailsAs (name : String) (emitter : Emitter) : Prop where
  reports : ∀ ctx c (d : Demand), c.name = name → name ∈ d.names → d.Unmet c →
    emitter ctx c = .error (d.error c)
  relays : ∀ ctx c, c.name = name → (∀ d : Demand, name ∈ d.names → ¬ d.Unmet c) →
    ErrorsIn (Unresolved ctx.resolver c) (emitter ctx c)

theorem failsAs_of_relays {name : String} {emitter : Emitter} (hname : name ∉ Demand.demanding)
    (h : Relays emitter) : FailsAs name emitter where
  reports _ _ d _ hd _ := absurd (d.mem_demanding name hd) hname
  relays ctx c _ _ := (h ctx c).mono fun _ => unresolved_of_refuses

theorem failsAs_of_heeds {name : String} {emitter : Emitter} {d : Demand} (hname : name ∈ d.names)
    (h : Heeds d emitter) : FailsAs name emitter where
  reports ctx c d' _ hd' hunmet := by
    rw [Demand.eq_of_mem_names hd' hname] at hunmet ⊢
    exact h.reports ctx c hunmet
  relays ctx c hc hmet := h.relays ctx c (hc ▸ hname) (hmet d hname)

theorem failsAs_dragAndDrop : FailsAs "dragAndDropToObject" dragAndDrop where
  reports _ _ d _ hd _ := absurd (d.mem_demanding _ hd) (by decide)
  relays ctx c hc _ := by
    have htarget := (errorsIn_strict ctx c.targetText).mono fun _ => unresolved_of_refuses
    have hvalue : ErrorsIn (Unresolved ctx.resolver c) (ctx.resolver.strict c.valueText) :=
      (errorsIn_strict ctx c.valueText).mono fun _ herror =>
        ⟨c.valueText, .inr (.inl ⟨hc, rfl⟩), herror⟩
    exact htarget.bind fun _ => hvalue.bind fun _ => errorsIn_ok _

theorem failsAs_of_mem_interactions : ∀ entry ∈ interactions, FailsAs entry.1 entry.2 := by
  have hselect : FailsAs "select" (optionCall "selectOption") :=
    failsAs_of_heeds (by decide) (heeds_optionCall _)
  have hadd : FailsAs "addSelection" (optionCall "selectOption") :=
    failsAs_of_heeds (by decide) (heeds_optionCall _)
  have hremove : FailsAs "removeSelection" (optionCall "unselectOption") :=
    failsAs_of_heeds (by decide) (heeds_optionCall _)
  have hoffset : FailsAs "mouseMoveAt" mouseMoveAt :=
    failsAs_of_heeds (by decide) heeds_mouseMoveAt
  have hsize : FailsAs "setWindowSize" setWindowSize :=
    failsAs_of_heeds (by decide) heeds_setWindowSize
  have hwindow : FailsAs "selectWindow" selectWindow :=
    failsAs_of_heeds (by decide) heeds_selectWindow
  simp [interactions, failsAs_of_relays, Demand.demanding, failsAs_dragAndDrop, hselect, hadd,
    hremove, hoffset, hsize, hwindow]

theorem failsAs_of_mem_checks : ∀ entry ∈ checks,
    FailsAs ("assert" ++ entry.1) entry.2 ∧ FailsAs ("verify" ++ entry.1) entry.2 := by
  simp [checks, failsAs_of_relays, Demand.demanding]

theorem failsAs_of_mem_dialogChecks : ∀ entry ∈ dialogChecks, FailsAs entry.1 entry.2 := by
  simp [dialogChecks, failsAs_of_relays, Demand.demanding]

theorem failsAs_of_mem_storing : ∀ entry ∈ storing, FailsAs entry.1 entry.2 := by
  have hattribute : FailsAs "storeAttribute" storeAttribute :=
    failsAs_of_heeds (by decide) heeds_storeAttribute
  simp [storing, failsAs_of_relays, Demand.demanding, hattribute]

theorem failsAs_of_mem_waiting : ∀ entry ∈ waiting, FailsAs entry.1 entry.2 := by
  simp [waiting, failsAs_of_relays, Demand.demanding]

theorem failsAs_recorder : ∀ name ∈ recorderOnly, FailsAs name skip := by
  have hother : ∀ name ∈ recorderOnly, name ∉ Demand.demanding := by decide
  exact fun name hname => failsAs_of_relays (hother name hname) relays_skip

theorem failsAs_keyword (k : Keyword) : FailsAs k.name (controlFlow k) := by
  have hother : k.name ∉ Demand.demanding := by cases k <;> decide
  exact failsAs_of_relays hother (relays_controlFlow k)

theorem failsAs_of_mem_standard : ∀ entry ∈ standard, FailsAs entry.1 entry.2 := by
  simp only [standard, List.forall_mem_append, List.forall_mem_map]
  exact ⟨⟨⟨⟨⟨⟨⟨failsAs_recorder, fun k _ => failsAs_keyword k⟩, failsAs_of_mem_interactions⟩,
    fun entry hentry => (failsAs_of_mem_checks entry hentry).1⟩,
    fun entry hentry => (failsAs_of_mem_checks entry hentry).2⟩,
    failsAs_of_mem_dialogChecks⟩, failsAs_of_mem_storing⟩, failsAs_of_mem_waiting⟩

end Vocabulary

namespace Table

open Vocabulary

theorem knows_standard_iff {t : Table} (ht : t.IsStandard) {name : String} :
    t.knows name = true ↔ ∃ emitter, (name, emitter) ∈ Vocabulary.standard := by
  rw [knows, Registry.contains, ht, Option.isSome_iff_exists]
  simp only [get?_standardEmitters_eq_some_iff]

section Standard

variable {t : Table} (ht : t.IsStandard) {depth : Nat} {c : Command} {error : Error}

include ht

/-- A parameter without the form that the name calls for is reported, whatever the resolver does. -/
theorem emit_of_misshapen (hknown : t.knows c.name = true) (h : Misshapen c error) :
    t.emit depth c = .error error := by
  obtain ⟨emitter, hmem⟩ := (knows_standard_iff ht).mp hknown
  obtain ⟨d, hname, hunmet, rfl⟩ := h
  have hfails : FailsAs c.name emitter := failsAs_of_mem_standard _ hmem
  rw [emit_of_mem_standard ht hmem, hfails.reports _ c d rfl hname hunmet]
  rfl

/-- The causes of an error. -/
theorem emit_error_cases (hknown : t.knows c.name = true) (h : t.emit depth c = .error error) :
    Misshapen c error ∨ Unresolved t.resolver c error := by
  by_cases hunmet : ∃ d : Demand, c.name ∈ d.names ∧ d.Unmet c
  · obtain ⟨d, hname, hd⟩ := hunmet
    have hreported : t.emit depth c = .error (d.error c) :=
      emit_of_misshapen ht hknown ⟨d, hname, hd, rfl⟩
    rw [h] at hreported
    exact .inl ⟨d, hname, hd, Except.error.inj hreported⟩
  · obtain ⟨emitter, hmem⟩ := (knows_standard_iff ht).mp hknown
    have hmet : ∀ d : Demand, c.name ∈ d.names → ¬ d.Unmet c := fun d hname hd =>
      hunmet ⟨d, hname, hd⟩
    have herrors := (failsAs_of_mem_standard _ hmem).relays ⟨t.resolver, t.config, depth⟩ c rfl hmet
    rw [emit_of_mem_standard ht hmem] at h
    cases hresult : emitter ⟨t.resolver, t.config, depth⟩ c with
    | error found =>
      rw [hresult] at h
      cases h
      exact .inr (herrors _ hresult)
    | ok e =>
      rw [hresult] at h
      cases h

end Standard

/-- When a command of the standard vocabulary cannot be emitted. With a resolver that never fails,
this is exactly when a parameter does not have the form that the name of the command calls for, and
the error is the one that says so. With any resolver, a parameter without its form is reported, and
every other error is one that the resolver gave for a locator of the command. -/
theorem emission_failure (config : Config) (resolver : Resolver) (depth : Nat) (c : Command)
    (hknown : ((standard config).withResolver resolver).knows c.name = true) :
    (resolver.NeverFails → ∀ error,
      ((standard config).withResolver resolver).emit depth c = .error error ↔ Misshapen c error) ∧
      (∀ error, Misshapen c error →
        ((standard config).withResolver resolver).emit depth c = .error error) ∧
      ∀ error, ((standard config).withResolver resolver).emit depth c = .error error →
        Misshapen c error ∨ Unresolved resolver c error := by
  have ht := isStandard_withResolver config resolver
  refine ⟨fun hnever error => ⟨fun herror => ?_, emit_of_misshapen ht hknown⟩,
    fun error => emit_of_misshapen ht hknown, fun error => emit_error_cases ht hknown⟩
  rcases emit_error_cases ht hknown herror with hmisshapen | ⟨locator, -, hrefused⟩
  · exact hmisshapen
  · exact absurd hrefused (hnever locator error)

/-- A resolver that takes every locator as it is. -/
def verbatim : Resolver :=
  ⟨.ok, .ok⟩

/-- A switch to a window by a negative number. -/
def beforeFirstWindow : Command :=
  { name := "selectWindow", target := some "win_ser_-1" }

/-- A click on something that is no locator. -/
def clickNowhere : Command :=
  { name := "click", target := some "nowhere" }

theorem not_selectsWindow_beforeFirst : ¬ SelectsWindow beforeFirstWindow.targetText := by
  have hhandle : Text.after? "handle=" beforeFirstWindow.targetText = none := by decide
  have hname : Text.after? "name=" beforeFirstWindow.targetText = none := by decide
  have hindex : Text.after? "win_ser_" beforeFirstWindow.targetText = some "-1" := by decide
  rw [selectsWindow_iff, hhandle, hname, hindex]
  rintro (⟨_, hnone⟩ | ⟨_, hnone⟩ | ⟨index, heq, hword⟩)
  · cases hnone
  · cases hnone
  · cases heq
    exact absurd hword (by decide)

/-- A number below zero selects no window, even with a resolver that never fails; and with the
standard one a click fails because its target is no locator. -/
theorem emission_failure_samples :
    verbatim.NeverFails ∧
      ((standard {}).withResolver verbatim).emit 0 beforeFirstWindow = .error .windowSelection ∧
      ((standard {}).withResolver .standard).emit 0 clickNowhere =
        .error (.locator (.shapeless "nowhere")) ∧
      Unresolved .standard clickNowhere (.locator (.shapeless "nowhere")) := by
  have hnever : verbatim.NeverFails := by
    rintro locator error (h | h)
    · cases h
    · cases h
  have hselect : (beforeFirstWindow.name, selectWindow) ∈ Vocabulary.standard := by
    simp [Vocabulary.standard, interactions, beforeFirstWindow]
  have hclick : (clickNowhere.name, targetCall "click") ∈ Vocabulary.standard := by
    simp [Vocabulary.standard, interactions, clickNowhere]
  have hverbatim := isStandard_withResolver {} verbatim
  have hstandard := isStandard_withResolver {} .standard
  have hwindow := emission_failure {} verbatim 0 beforeFirstWindow
    ((knows_standard_iff hverbatim).mpr ⟨_, hselect⟩)
  have hlocator := emission_failure {} .standard 0 clickNowhere
    ((knows_standard_iff hstandard).mpr ⟨_, hclick⟩)
  have hfailed : ((standard {}).withResolver .standard).emit 0 clickNowhere =
      .error (.locator (.shapeless "nowhere")) := by
    rw [emit_of_mem_standard hstandard hclick]
    rfl
  refine ⟨hnever, ?_, hfailed, ?_⟩
  · exact (hwindow.1 hnever _).mpr ⟨.window, by decide, not_selectsWindow_beforeFirst, rfl⟩
  · refine (hlocator.2.2 _ hfailed).resolve_left ?_
    rintro ⟨d, hname, -⟩
    exact absurd (d.mem_demanding _ hname) (by decide)

end Table

end CestWriter
