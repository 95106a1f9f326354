import CestWriter.Proofs.ByteOrder
import CestWriter.Proofs.StandardTable

/-!
# Registrations

A table begins with the standard vocabulary and takes up emitters one after another. All that can be
seen of it afterwards follows from one rule: for a name stands the emitter that was registered last
under it or, if there is none, that of the standard vocabulary.
-/

namespace CestWriter.Table

open Vocabulary

/-- The table after registrations, one after another. -/
def registerAll (t : Table) (registrations : List (String × Emitter)) : Table :=
  registrations.foldl (fun t r => t.register r.1 r.2) t

/-- The emitter that stands for a name after registrations on top of the standard vocabulary. -/
inductive StandsFor (registrations : List (String × Emitter)) (name : String) : Emitter → Prop
  /-- The emitter was registered under the name, and no other one after it. -/
  | registered {emitter : Emitter} (earlier later : List (String × Emitter))
      (hsplit : registrations = earlier ++ (name, emitter) :: later)
      (hlast : name ∉ later.map (·.1)) : StandsFor registrations name emitter
  /-- Nothing was registered under the name, and the standard vocabulary has the emitter. -/
  | standard {emitter : Emitter} (hunregistered : name ∉ registrations.map (·.1))
      (hmem : (name, emitter) ∈ Vocabulary.standard) : StandsFor registrations name emitter

/-! ## What registrations keep and change -/

theorem registerAll_append (t : Table) (earlier later : List (String × Emitter)) :
    t.registerAll (earlier ++ later) = (t.registerAll earlier).registerAll later :=
  List.foldl_append

theorem registerAll_cons (t : Table) (name : String) (emitter : Emitter)
    (rest : List (String × Emitter)) :
    t.registerAll ((name, emitter) :: rest) = (t.register name emitter).registerAll rest :=
  rfl

@[simp] theorem resolver_registerAll (t : Table) (registrations : List (String × Emitter)) :
    (t.registerAll registrations).resolver = t.resolver := by
  induction registrations generalizing t with
  | nil => rfl
  | cons r rest ih => exact ih (t.register r.1 r.2)

@[simp] theorem config_registerAll (t : Table) (registrations : List (String × Emitter)) :
    (t.registerAll registrations).config = t.config := by
  induction registrations generalizing t with
  | nil => rfl
  | cons r rest ih => exact ih (t.register r.1 r.2)

theorem get?_registerAll_of_not_mem (t : Table) {name : String}
    {registrations : List (String × Emitter)} (hname : name ∉ registrations.map (·.1)) :
    (t.registerAll registrations).emitters.get? name = t.emitters.get? name := by
  induction registrations generalizing t with
  | nil => rfl
  | cons r rest ih =>
    rw [List.map_cons, List.mem_cons, not_or] at hname
    rw [registerAll_cons, ih _ hname.2, get?_register, if_neg hname.1]

theorem get?_registerAll_of_last (t : Table) {name : String} {emitter : Emitter}
    {earlier later : List (String × Emitter)} (hlast : name ∉ later.map (·.1)) :
    (t.registerAll (earlier ++ (name, emitter) :: later)).emitters.get? name = some emitter := by
  rw [registerAll_append, registerAll_cons, get?_registerAll_of_not_mem _ hlast, get?_register,
    if_pos rfl]

/-- A name that is registered at all is registered a last time. -/
theorem exists_last_registration {name : String} {registrations : List (String × Emitter)}
    (hname : name ∈ registrations.map (·.1)) :
    ∃ earlier emitter later, registrations = earlier ++ (name, emitter) :: later ∧
      name ∉ later.map (·.1) := by
  induction registrations with
  | nil => cases hname
  | cons r rest ih =>
    by_cases hrest : name ∈ rest.map (·.1)
    · obtain ⟨earlier, emitter, later, rfl, hlast⟩ := ih hrest
      exact ⟨r :: earlier, emitter, later, rfl, hlast⟩
    · rcases List.mem_cons.mp hname with rfl | hmem
      · exact ⟨[], r.2, rest, rfl, hrest⟩
      · exact absurd hmem hrest

/-- Two registrations under different names may change places. -/
theorem register_comm (t : Table) {first second : String} (hne : first ≠ second)
    (emitter emitter' : Emitter) :
    (t.register first emitter).register second emitter' =
      (t.register second emitter').register first emitter := by
  simp only [register, Registry.insert_comm t.emitters hne]

/-! ## What is seen of a table -/

theorem names_bytes_ascending (t : Table) : (t.names.map Text.bytes).Pairwise (· < ·) :=
  List.pairwise_map.mpr (t.emitters.names_ascending.imp Text.bytes_lt_bytes_iff.mpr)

theorem knows_iff_mem_names (t : Table) (name : String) : t.knows name = true ↔ name ∈ t.names := by
  rw [knows, Registry.contains, Option.isSome_iff_exists, names, Registry.mem_names_iff]

/-- What a table emits depends on the emitter of the command's name and on nothing else that
registrations change. -/
theorem emit_registerAll_of_not_mem (t : Table) {c : Command}
    {registrations : List (String × Emitter)} (hname : c.name ∉ registrations.map (·.1))
    (depth : Nat) : (t.registerAll registrations).emit depth c = t.emit depth c := by
  rw [emit, emit, get?_registerAll_of_not_mem t hname, resolver_registerAll, config_registerAll]

theorem knows_registerAll_of_not_mem (t : Table) {name : String}
    {registrations : List (String × Emitter)} (hname : name ∉ registrations.map (·.1)) :
    (t.registerAll registrations).knows name = t.knows name := by
  rw [knows, knows, Registry.contains, Registry.contains, get?_registerAll_of_not_mem t hname]

theorem registerAll_exchange (t : Table) {first second : String} (hne : first ≠ second)
    (emitter emitter' : Emitter) (earlier later : List (String × Emitter)) :
    t.registerAll (earlier ++ (first, emitter) :: (second, emitter') :: later) =
      t.registerAll (earlier ++ (second, emitter') :: (first, emitter) :: later) := by
  simp only [registerAll_append, registerAll_cons]
  rw [register_comm _ hne]

theorem emit_of_not_mem_names {t : Table} {c : Command} (depth : Nat) (hname : c.name ∉ t.names) :
    t.emit depth c = .error (.unknownCommand c.name) := by
  refine emit_unknown depth (Option.eq_none_iff_forall_ne_some.mpr fun emitter hget => ?_)
  exact hname ((Registry.mem_names_iff _).mpr ⟨emitter, hget⟩)

section Standard

variable {t : Table} (ht : t.IsStandard) {registrations : List (String × Emitter)}

include ht

theorem get?_registerAll_eq_some_iff {name : String} {emitter : Emitter} :
    (t.registerAll registrations).emitters.get? name = some emitter ↔
      StandsFor registrations name emitter := by
  constructor
  · intro hget
    by_cases hname : name ∈ registrations.map (·.1)
    · obtain ⟨earlier, last, later, rfl, hlast⟩ := exists_last_registration hname
      rw [get?_registerAll_of_last t hlast, Option.some_inj] at hget
      exact .registered earlier later (by rw [hget]) hlast
    · rw [get?_registerAll_of_not_mem t hname, ht] at hget
      exact .standard hname (get?_standardEmitters_eq_some_iff.mp hget)
  · rintro (⟨earlier, later, rfl, hlast⟩ | ⟨hname, hmem⟩)
    · exact get?_registerAll_of_last t hlast
    · rw [get?_registerAll_of_not_mem t hname, ht]
      exact get?_standardEmitters_eq_some_iff.mpr hmem

theorem mem_names_registerAll_iff {name : String} :
    name ∈ (t.registerAll registrations).names ↔
      name ∈ Vocabulary.standard.map (·.1) ∨ name ∈ registrations.map (·.1) := by
  simp only [names, Registry.mem_names_iff, get?_registerAll_eq_some_iff ht]
  constructor
  · rintro ⟨emitter, ⟨earlier, later, rfl, -⟩ | ⟨-, hmem⟩⟩
    · exact .inr (List.mem_map_of_mem (List.mem_append_right _ List.mem_cons_self))
    · exact .inl (List.mem_map_of_mem hmem)
  · intro hname
    by_cases hregistered : name ∈ registrations.map (·.1)
    · obtain ⟨earlier, emitter, later, rfl, hlast⟩ := exists_last_registration hregistered
      exact ⟨emitter, .registered earlier later rfl hlast⟩
    · obtain ⟨⟨_, emitter⟩, hmem, rfl⟩ := List.mem_map.mp (hname.resolve_right hregistered)
      exact ⟨emitter, .standard hregistered hmem⟩

theorem emit_registerAll {c : Command} (depth : Nat)
    (hname : c.name ∈ (t.registerAll registrations).names) :
    ∃ emitter, (∀ other, StandsFor registrations c.name other ↔ other = emitter) ∧
      (t.registerAll registrations).emit depth c =
        (emitter ⟨t.resolver, t.config, depth⟩ c).map (withWindow c t.config) := by
  obtain ⟨emitter, hget⟩ := (Registry.mem_names_iff _).mp hname
  refine ⟨emitter, fun other => ?_, ?_⟩
  · rw [← get?_registerAll_eq_some_iff ht, hget, Option.some_inj, eq_comm]
  · rw [emit_of_get? depth hget, resolver_registerAll, config_registerAll]

end Standard

/-- What is seen of a table that begins with the standard vocabulary, after any registrations. Its
names ascend in the order of their bytes, so that none is there twice, and they are those of the
standard vocabulary and of the registrations; these are the names that it knows. For a command of
another name it fails and says so. For one of its names there is exactly one emitter that stands for
the name, and the emission is what that emitter makes of the command, with the lines for a window
that the command opens. Two neighbouring registrations under different names may change places: the
table is the same. What is registered later changes nothing for other names. -/
theorem registrations_observed (config : Config) (resolver : Resolver)
    (registrations : List (String × Emitter)) :
    let t := (standard config).withResolver resolver
    let extended := t.registerAll registrations
    ((extended.names.map Text.bytes).Pairwise (· < ·) ∧ extended.names.Nodup ∧
      ∀ name, name ∈ extended.names ↔
        name ∈ Vocabulary.standard.map (·.1) ∨ name ∈ registrations.map (·.1)) ∧
    (∀ name, extended.knows name = true ↔ name ∈ extended.names) ∧
    (∀ depth c, c.name ∉ extended.names →
      extended.emit depth c = .error (.unknownCommand c.name)) ∧
    (∀ depth c, c.name ∈ extended.names →
      ∃ emitter, (∀ other, StandsFor registrations c.name other ↔ other = emitter) ∧
        extended.emit depth c = (emitter ⟨resolver, config, depth⟩ c).map (withWindow c config)) ∧
    (∀ earlier later first second emitter emitter', first ≠ second →
      registrations = earlier ++ (first, emitter) :: (second, emitter') :: later →
      extended = t.registerAll (earlier ++ (second, emitter') :: (first, emitter) :: later)) ∧
    ∀ earlier later, registrations = earlier ++ later →
      (∀ name, name ∉ later.map (·.1) →
        extended.knows name = (t.registerAll earlier).knows name) ∧
      ∀ depth c, c.name ∉ later.map (·.1) →
        extended.emit depth c = (t.registerAll earlier).emit depth c := by
  intro t extended
  have ht : t.IsStandard := isStandard_withResolver config resolver
  refine ⟨⟨names_bytes_ascending extended, extended.emitters.names_nodup,
      fun name => mem_names_registerAll_iff ht⟩, knows_iff_mem_names extended,
    fun depth c => emit_of_not_mem_names depth, fun depth c => emit_registerAll ht depth, ?_, ?_⟩
  · rintro earlier later first second emitter emitter' hne rfl
    exact registerAll_exchange t hne emitter emitter' earlier later
  · rintro earlier later rfl
    have hextended : extended = (t.registerAll earlier).registerAll later :=
      registerAll_append t earlier later
    rw [hextended]
    exact ⟨fun name => knows_registerAll_of_not_mem _,
      fun depth c hname => emit_registerAll_of_not_mem _ hname depth⟩

/-- An emitter that writes a mark and the target of the command. -/
def marking (mark : String) : Emitter := fun _ c =>
  .ok (.statement (mark ++ c.targetText))

/-- A command that opens a window. -/
def clickOpening : Command :=
  { name := "click", target := some "id=a", opensWindow := true, windowHandleName := "w" }

/-- A command of the standard vocabulary that is registered twice, with a new one in between. -/
theorem registrations_observed_click :
    ∃ extended, extended = ((standard {}).withResolver .standard).registerAll
        [("click", marking "first "), ("hover", marking "hover "), ("click", marking "second ")] ∧
      extended.emit 2 clickOpening =
        .ok (.block [snapshotLine, ⟨0, "second id=a"⟩, awaitLine clickOpening {}] 0 0) ∧
      extended.knows "hover" = true ∧
      extended.emit 0 { name := "teleport" } = .error (.unknownCommand "teleport") := by
  obtain ⟨⟨-, -, hnames⟩, hknows, hunknown, hemit, -⟩ :=
    registrations_observed {} .standard
      [("click", marking "first "), ("hover", marking "hover "), ("click", marking "second ")]
  refine ⟨_, rfl, ?_, ?_, ?_⟩
  · obtain ⟨emitter, hstands, heq⟩ := hemit 2 clickOpening ((hnames _).mpr (.inr (by decide)))
    have hlast : marking "second " = emitter :=
      (hstands _).mp (.registered [_, _] [] rfl (by decide))
    rw [heq, ← hlast]
    rfl
  · exact (hknows _).mpr ((hnames _).mpr (.inr (by decide)))
  · refine hunknown 0 _ fun hmem => ?_
    rcases (hnames _).mp hmem with hstandard | hregistered
    · exact absurd hstandard (by decide)
    · exact absurd hregistered (by decide)

end CestWriter.Table
