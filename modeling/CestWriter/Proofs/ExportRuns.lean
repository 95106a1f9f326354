import CestWriter.Proofs.ArgumentItems
import CestWriter.Proofs.Containment
import CestWriter.Proofs.FileTrees

/-!
# Runs of an export

The class file is made from the files before anything is written, and all that happens on the way
are notes on standard error. So an export that fails leaves no trace but these notes, and one that
succeeds writes the class file once, to the file that is named or to standard output.
-/

namespace CestWriter.Cli

/-! ## What an export makes of the files -/

namespace FileTree

/-- What reading a file that need not be there gives: a path that leads nowhere is no fault. -/
def found (blame : FileFault → Error) : Except FileFault String → Except Error (Option String)
  | .ok text => .ok (some text)
  | .error .missing | .error .notDirectory | .error .nameTooLong => .ok none
  | .error fault => .error (blame fault)

/-- The recording in a file. -/
def project (t : FileTree) (path : String) : Except Error Project := do
  let text ← (t.read path).mapError .file
  (Project.parse text).mapError (.recordingFile path)

/-- The configuration in the file that is named, or in the one next to the recording if there is
one. -/
def config (t : FileTree) (request : ExportRequest) : Except Error Config :=
  match request.config with
  | some path => do
    let text ← (t.read path).mapError .file
    readConfig path text
  | none => do
    let path := Path.join (Path.folder request.project) Config.fileName
    match ← found .file (t.read path) with
    | some text => readConfig path text
    | none => return {}

/-- The template in the folder that is named, if one is named and has a template. -/
def template (t : FileTree) (engine : Engine) : Option String → Except Error (Option Layout)
  | none => .ok none
  | some folder => do
    let path := Path.join folder ClassFile.templateName
    match ← found (.templateFile path) (t.read path) with
    | none => return none
    | some source => return some (← (engine.read source).mapError .template)

/-- The class file that is made from the files as asked for. The recording, the configuration and
the template must be readable and well formed, and the tests must have a rendering. -/
def classText (t : FileTree) (engine : Engine) (time : String) (request : ExportRequest) :
    Except Error String := do
  let project ← t.project request.project
  let config ← t.config request
  let template ← t.template engine request.templateFolder
  Exporter.render { table := .standard config, template := template } project request.suite
    ((Path.fileName? request.project).getD request.project) time

theorem classText_eq_render {t : FileTree} (engine : Engine) (time : String)
    (request : ExportRequest) {project : Project} {config : Config} {layout : Option Layout}
    (hproject : t.project request.project = .ok project) (hconfig : t.config request = .ok config)
    (hlayout : t.template engine request.templateFolder = .ok layout) :
    t.classText engine time request =
      Exporter.render { table := .standard config, template := layout } project request.suite
        ((Path.fileName? request.project).getD request.project) time := by
  rw [classText, hproject, hconfig, hlayout]
  rfl

end FileTree

/-- Why an export fails: no recording is named, the class file cannot be made, or it cannot be
written. -/
inductive ExportFails (t : FileTree) (engine : Engine) (time : String) (args : List String) :
    Error → Prop
  | unnamed (h : positional args = []) : ExportFails t engine time args (.other exportUsage)
  | unmade {request : ExportRequest} {e : Error}
    (hrequest : ExportRequest.ofArguments? args = some request)
    (h : t.classText engine time request = .error e) : ExportFails t engine time args e
  | unwritten {request : ExportRequest} {text path : String} {fault : FileFault}
    (hrequest : ExportRequest.ofArguments? args = some request)
    (htext : t.classText engine time request = .ok text) (houtput : request.output = some path)
    (h : t.write path text = .error fault) : ExportFails t engine time args (.file fault)

/-! ## Computations that change no file and print nothing -/

/-- On these files and at this time, the computation comes to this result, and all it does besides
is to leave a note on standard error. -/
def ComesTo (t : FileTree) (time : String) {α : Type} (x : ExceptT Error (StateM World) α)
    (r : Except Error α) : Prop :=
  ∀ w : World, w.tree = t → w.time = time →
    ∃ note, x.run.run w = (r, { w with err := w.err ++ note })

section ComesTo

variable {t : FileTree} {time : String} {α β : Type}

theorem comesTo_of_run {x : ExceptT Error (StateM World) α} {r : Except Error α}
    (h : ∀ w : World, w.tree = t → w.time = time → x.run.run w = (r, w)) : ComesTo t time x r := by
  intro w htree htime
  refine ⟨"", ?_⟩
  rw [h w htree htime, String.append_empty]

theorem run_bind_eq (x : ExceptT Error (StateM World) α) (f : α → ExceptT Error (StateM World) β)
    (w : World) :
    (x >>= f).run.run w = (ExceptT.bindCont f (x.run.run w).1).run (x.run.run w).2 :=
  rfl

theorem ComesTo.bind {x : ExceptT Error (StateM World) α} {r : Except Error α}
    {f : α → ExceptT Error (StateM World) β} {g : α → Except Error β} (hx : ComesTo t time x r)
    (hf : ∀ a, r = .ok a → ComesTo t time (f a) (g a)) : ComesTo t time (x >>= f) (r >>= g) := by
  intro w htree htime
  obtain ⟨note, hrun⟩ := hx w htree htime
  cases r with
  | error e =>
    refine ⟨note, ?_⟩
    rw [run_bind_eq, hrun]
    rfl
  | ok a =>
    obtain ⟨more, hrest⟩ := hf a rfl { w with err := w.err ++ note } htree htime
    refine ⟨note ++ more, ?_⟩
    rw [run_bind_eq, hrun, ← String.append_assoc]
    exact hrest

/-- A step of which the result is known. -/
theorem ComesTo.andThen {x : ExceptT Error (StateM World) α} {a : α}
    {f : α → ExceptT Error (StateM World) β} {r : Except Error β}
    (hx : ComesTo t time x (.ok a)) (hf : ComesTo t time (f a) r) : ComesTo t time (x >>= f) r := by
  change ComesTo t time _ (Except.ok a >>= fun _ => r)
  refine hx.bind fun b hb => ?_
  cases hb
  exact hf

theorem comesTo_ofExcept (r : Except Error α) : ComesTo t time (MonadExcept.ofExcept r) r := by
  apply comesTo_of_run
  intro w _ _
  cases r <;> rfl

theorem comesTo_read (path : String) :
    ComesTo t time (liftM (World.host.read path)) (.ok (t.read path)) := by
  apply comesTo_of_run
  rintro w rfl -
  rfl

theorem comesTo_now : ComesTo t time (liftM World.host.now) (.ok time) := by
  apply comesTo_of_run
  rintro w - rfl
  rfl

theorem comesTo_report (verbosity : Verbosity) (events : List Event) :
    ComesTo t time (liftM (World.host.report verbosity events)) (.ok ()) := by
  -- the note is the lines of the events that are admitted, one after the other
  intro w htree htime
  induction events generalizing w with
  | nil => exact ⟨"", by rw [String.append_empty]; rfl⟩
  | cons e rest ih =>
    rw [Host.report]
    by_cases hadmits : verbosity.admits e.severity = true
    · obtain ⟨note, hrest⟩ := ih { w with err := w.err ++ (e.line w.time ++ "\n") } htree htime
      refine ⟨e.line w.time ++ "\n" ++ note, ?_⟩
      rw [if_pos hadmits, ← String.append_assoc]
      exact hrest
    · obtain ⟨note, hrest⟩ := ih w htree htime
      refine ⟨note, ?_⟩
      rw [if_neg hadmits]
      exact hrest

theorem comesTo_load (path : String) :
    ComesTo t time (World.host.load path) ((t.read path).mapError .file) := by
  refine (comesTo_read path).andThen ?_
  cases t.read path with
  | ok text => exact comesTo_ofExcept (.ok text)
  | error fault => exact comesTo_ofExcept (.error (.file fault))

theorem comesTo_load? (blame : FileFault → Error) (path : String) :
    ComesTo t time (World.host.load? blame path) (FileTree.found blame (t.read path)) := by
  refine (comesTo_read path).andThen ?_
  cases t.read path with
  | ok text => exact comesTo_ofExcept (.ok (some text))
  | error fault =>
    cases fault with
    | missing | notDirectory | nameTooLong => exact comesTo_ofExcept (.ok none)
    | directory | notText | other => exact comesTo_ofExcept (.error (blame _))

theorem comesTo_loadProject (path : String) :
    ComesTo t time (loadProject World.host path) (t.project path) :=
  (comesTo_load path).bind fun _ _ => comesTo_ofExcept _

theorem comesTo_loadConfig (request : ExportRequest) :
    ComesTo t time (loadConfig World.host request) (t.config request) := by
  unfold loadConfig FileTree.config
  cases request.config with
  | some path => exact (comesTo_load path).bind fun _ _ => comesTo_ofExcept _
  | none =>
    refine (comesTo_load? _ _).bind fun text _ => ?_
    cases text with
    | some text => exact comesTo_ofExcept _
    | none => exact comesTo_ofExcept (.ok ({} : Config))

theorem comesTo_loadTemplate (engine : Engine) (verbosity : Verbosity) (folder : Option String) :
    ComesTo t time (loadTemplate engine World.host verbosity folder)
      (t.template engine folder) := by
  cases folder with
  | none => exact comesTo_ofExcept (.ok none)
  | some folder =>
    refine (comesTo_load? _ _).bind fun source _ => ?_
    cases source with
    | none => exact comesTo_ofExcept (.ok none)
    | some source =>
      refine (comesTo_report verbosity _).andThen ?_
      exact (comesTo_ofExcept _).bind fun layout _ => comesTo_ofExcept (.ok (some layout))

/-- The class file is made from the files alone, without changing any. -/
theorem comesTo_assemble (engine : Engine) (verbosity : Verbosity) (request : ExportRequest) :
    ComesTo t time (assemble engine World.host verbosity request)
      (t.classText engine time request) := by
  refine (comesTo_loadProject _).bind fun project _ => ?_
  refine (comesTo_loadConfig _).bind fun config _ => ?_
  refine (comesTo_report verbosity _).andThen ?_
  refine (comesTo_loadTemplate engine verbosity _).bind fun template _ => ?_
  refine (comesTo_report verbosity _).andThen ?_
  exact comesTo_now.andThen (comesTo_ofExcept _)

end ComesTo

/-! ## Delivery -/

section Delivery

variable {w : World} {path text : String}

theorem run_lift_eq {α : Type} (x : StateM World α) (w : World) :
    (liftM x : ExceptT Error (StateM World) α).run.run w = (.ok (x.run w).1, (x.run w).2) :=
  rfl

theorem write_of_error {fault : FileFault} (h : w.tree.write path text = .error fault) :
    (World.host.write path text).run w = (.error fault, w) := by
  simp only [World.host, StateT.run_bind, StateT.run_get, pure_bind, h]
  rfl

theorem write_of_ok {tree : FileTree} (h : w.tree.write path text = .ok tree) :
    (World.host.write path text).run w = (.ok (), { w with tree := tree }) := by
  simp only [World.host, StateT.run_bind, StateT.run_get, pure_bind, h]
  rfl

theorem deliver_of_error {fault : FileFault} (h : w.tree.write path text = .error fault) :
    (deliver World.host (some path) text).run.run w = (.error (.file fault), w) := by
  have hsave : (World.host.save path text).run.run w = (.error (.file fault), w) := by
    rw [Host.save, run_bind_eq, run_lift_eq, write_of_error h]
    rfl
  simp only [deliver]
  rw [run_bind_eq, hsave]
  rfl

theorem deliver_of_ok {tree : FileTree} (h : w.tree.write path text = .ok tree) :
    (deliver World.host (some path) text).run.run w =
      (.ok (), { w with tree := tree, err := w.err ++ ("Written to: " ++ path ++ "\n") }) := by
  have hsave : (World.host.save path text).run.run w = (.ok (), { w with tree := tree }) := by
    rw [Host.save, run_bind_eq, run_lift_eq, write_of_ok h]
    rfl
  simp only [deliver]
  rw [run_bind_eq, hsave]
  rfl

end Delivery

/-! ## The whole run -/

section Run

variable {engine : Engine} {verbosity : Verbosity} {args : List String} {w : World}
  {request : ExportRequest} {text : String}

theorem run_export_eq :
    (run World.host verbosity ("export" :: args) engine).run w =
      (conclude World.host ((runExport engine World.host verbosity args).run.run w).1).run
        ((runExport engine World.host verbosity args).run.run w).2 :=
  rfl

/-- An export makes the class file and delivers it. -/
theorem runExport_eq (verbosity : Verbosity) (w : World)
    (hrequest : ExportRequest.ofArguments? args = some request) :
    ∃ note, (runExport engine World.host verbosity args).run.run w =
      (ExceptT.bindCont (deliver World.host request.output)
        (w.tree.classText engine w.time request)).run { w with err := w.err ++ note } := by
  obtain ⟨note, hmade⟩ := comesTo_assemble engine verbosity request w rfl rfl
  refine ⟨note, ?_⟩
  rw [runExport, hrequest]
  change (assemble engine World.host verbosity request >>=
    deliver World.host request.output).run.run w = _
  rw [run_bind_eq, hmade]

theorem runExport_of_exportFails (verbosity : Verbosity) {e : Error}
    (h : ExportFails w.tree engine w.time args e) :
    ∃ note, (runExport engine World.host verbosity args).run.run w =
      (.error e, { w with err := w.err ++ note }) := by
  cases h with
  | unnamed hwords =>
    refine ⟨"", ?_⟩
    rw [runExport, ExportRequest.ofArguments?, hwords, String.append_empty]
    rfl
  | unmade hrequest htext =>
    obtain ⟨note, hrun⟩ := runExport_eq verbosity w hrequest
    refine ⟨note, ?_⟩
    rw [hrun, htext]
    rfl
  | @unwritten request text path fault hrequest htext houtput hwrite =>
    obtain ⟨note, hrun⟩ := runExport_eq verbosity w hrequest
    refine ⟨note, ?_⟩
    rw [hrun, htext, houtput]
    exact deliver_of_error hwrite

/-- A failing export leaves nothing but a note. -/
theorem run_of_exportFails (verbosity : Verbosity) {e : Error}
    (h : ExportFails w.tree engine w.time args e) :
    ∃ note, (run World.host verbosity ("export" :: args) engine).run w =
      (1, { w with err := w.err ++ note }) := by
  obtain ⟨note, hrun⟩ := runExport_of_exportFails verbosity h
  refine ⟨note ++ ("Error: " ++ e.message ++ "\n"), ?_⟩
  rw [run_export_eq, hrun, ← String.append_assoc]
  rfl

/-- Without a file to write to, the class file is printed. -/
theorem run_of_printed (verbosity : Verbosity)
    (hrequest : ExportRequest.ofArguments? args = some request)
    (htext : w.tree.classText engine w.time request = .ok text) (houtput : request.output = none) :
    ∃ note, (run World.host verbosity ("export" :: args) engine).run w =
      (0, { w with out := w.out ++ (text ++ "\n"), err := w.err ++ note }) := by
  obtain ⟨note, hrun⟩ := runExport_eq verbosity w hrequest
  refine ⟨note, ?_⟩
  rw [run_export_eq, hrun, htext, houtput]
  rfl

/-- With a file to write to, the class file is written there. -/
theorem run_of_written (verbosity : Verbosity) {path : String} {tree : FileTree}
    (hrequest : ExportRequest.ofArguments? args = some request)
    (htext : w.tree.classText engine w.time request = .ok text)
    (houtput : request.output = some path) (hwrite : w.tree.write path text = .ok tree) :
    ∃ note, (run World.host verbosity ("export" :: args) engine).run w =
      (0, { w with tree := tree, err := w.err ++ note }) := by
  obtain ⟨note, hrun⟩ := runExport_eq verbosity w hrequest
  refine ⟨note ++ ("Written to: " ++ path ++ "\n"), ?_⟩
  have hdelivered := deliver_of_ok (w := { w with err := w.err ++ note }) hwrite
  have hexport : (runExport engine World.host verbosity args).run.run w =
      (.ok (), { w with tree, err := w.err ++ note ++ ("Written to: " ++ path ++ "\n") }) := by
    rw [hrun, htext, houtput]
    exact hdelivered
  rw [run_export_eq, hexport, String.append_assoc]
  rfl

theorem not_exportFails_of_run {after : World}
    (h : (run World.host verbosity ("export" :: args) engine).run w = (0, after)) :
    ¬ ∃ e, ExportFails w.tree engine w.time args e := by
  rintro ⟨e, he⟩
  obtain ⟨note, hrun⟩ := run_of_exportFails verbosity he
  rw [h] at hrun
  exact absurd (Prod.mk.inj hrun).1 (by decide)

/-- An export fails, or a class file is made and there is a place for it. -/
theorem exportFails_or (t : FileTree) (engine : Engine) (time : String) (args : List String) :
    (∃ e, ExportFails t engine time args e) ∨
      ∃ request text, ExportRequest.ofArguments? args = some request ∧
        t.classText engine time request = .ok text ∧
        (request.output = none ∨
          ∃ path tree, request.output = some path ∧ t.write path text = .ok tree) := by
  cases hrequest : ExportRequest.ofArguments? args with
  | none =>
    refine .inl ⟨_, .unnamed ?_⟩
    unfold ExportRequest.ofArguments? at hrequest
    split at hrequest
    · assumption
    · cases hrequest
  | some request =>
    cases htext : t.classText engine time request with
    | error e => exact .inl ⟨e, .unmade hrequest htext⟩
    | ok text =>
      cases houtput : request.output with
      | none => exact .inr ⟨request, text, rfl, htext, .inl houtput⟩
      | some path =>
        cases hwrite : t.write path text with
        | error fault => exact .inl ⟨_, .unwritten hrequest htext houtput hwrite⟩
        | ok tree => exact .inr ⟨request, text, rfl, htext, .inr ⟨path, tree, houtput, hwrite⟩⟩

end Run

/-! ## Without a file to write to -/

/-- Items without those that name a file to write to. -/
def withoutOutput (items : List Item) : List Item :=
  items.filter fun item => (item.value? OptionKind.output.spellings).isNone

theorem filterMap_withoutOutput {f : Item → Option String}
    (h : ∀ item, (item.value? OptionKind.output.spellings).isSome → f item = none)
    (items : List Item) : (withoutOutput items).filterMap f = items.filterMap f := by
  rw [withoutOutput, List.filterMap_filter]
  congr 1
  funext item
  cases hvalue : item.value? OptionKind.output.spellings with
  | none => rfl
  | some value => exact (h item (by simp [hvalue])).symm

/-- An item names one option at most. -/
theorem value?_eq_none_of_ne {kind : OptionKind} (hkind : kind ≠ .output) {item : Item}
    (h : (item.value? OptionKind.output.spellings).isSome) :
    item.value? kind.spellings = none := by
  cases item with
  | word text hword => rfl
  | pair spelling value hspelling hvalue =>
    have hdisjoint : ∀ spelling ∈ OptionKind.output.spellings, spelling ∉ kind.spellings := by
      cases kind with
      | output => exact absurd rfl hkind
      | suite | config | templateFolder => decide
    exact if_neg (hdisjoint spelling (Item.isSome_value?_pair.mp h))

theorem optionValue?_withoutOutput (kind : OptionKind) (hkind : kind ≠ .output)
    (items : List Item) (last : Option LoneOption) :
    optionValue? kind.spellings (argumentsOf (withoutOutput items) last) =
      optionValue? kind.spellings (argumentsOf items last) := by
  have hsubset := kind.spellings_subset
  rw [optionValue?_argumentsOf hsubset, optionValue?_argumentsOf hsubset, ← List.head?_filterMap,
    ← List.head?_filterMap, filterMap_withoutOutput fun item => value?_eq_none_of_ne hkind]

theorem optionValue?_output_withoutOutput (items : List Item) (last : Option LoneOption) :
    optionValue? OptionKind.output.spellings (argumentsOf (withoutOutput items) last) = none := by
  rw [optionValue?_argumentsOf OptionKind.output.spellings_subset, List.findSome?_eq_none_iff]
  intro item hitem
  exact Option.isNone_iff_eq_none.mp (List.mem_filter.mp hitem).2

/-- Without the items that name a file to write to, the same is asked for but for that file. -/
theorem ofArguments?_withoutOutput (items : List Item) (last : Option LoneOption) :
    ExportRequest.ofArguments? (argumentsOf (withoutOutput items) last) =
      (ExportRequest.ofArguments? (argumentsOf items last)).map
        fun request => { request with output := none } := by
  have hwords : positional (argumentsOf (withoutOutput items) last) =
      positional (argumentsOf items last) := by
    rw [positional_argumentsOf, positional_argumentsOf]
    apply filterMap_withoutOutput
    intro item hitem
    cases item with
    | word text hword => simp [Item.value?] at hitem
    | pair spelling value hspelling hvalue => rfl
  have hsuite := optionValue?_withoutOutput .suite (by decide) items last
  have hconfig := optionValue?_withoutOutput .config (by decide) items last
  have htemplate := optionValue?_withoutOutput .templateFolder (by decide) items last
  have houtput := optionValue?_output_withoutOutput items last
  simp only [OptionKind.spellings] at hsuite hconfig htemplate houtput
  simp only [ExportRequest.ofArguments?, hwords, hsuite, hconfig, htemplate, houtput]
  cases positional (argumentsOf items last) <;> rfl

/-- Without the items that name a file to write to, the same class file is printed. -/
theorem run_withoutOutput {engine : Engine} (verbosity : Verbosity) {w : World} {items : List Item}
    {last : Option LoneOption} {request : ExportRequest} {text : String}
    (hrequest : ExportRequest.ofArguments? (argumentsOf items last) = some request)
    (htext : w.tree.classText engine w.time request = .ok text) :
    ∃ other, (run World.host verbosity
        ("export" :: argumentsOf (withoutOutput items) last) engine).run w = (0, other) ∧
      other.tree = w.tree ∧ other.out = w.out ++ (text ++ "\n") := by
  have hwithout : ExportRequest.ofArguments? (argumentsOf (withoutOutput items) last) =
      some { request with output := none } := by
    rw [ofArguments?_withoutOutput, hrequest, Option.map_some]
  obtain ⟨note, hrun⟩ := run_of_printed verbosity hwithout htext rfl
  exact ⟨_, hrun, rfl, rfl⟩

/-- For every engine for templates, every argument list and all files, an export ends with the exit
code zero or one, and with one exactly if it fails. If it fails, no file is changed and nothing is
printed. If it succeeds with a file to write to, this file alone is changed, to the text of the
class file, and nothing is printed; if moreover the arguments are a list of items, the export
without those that name a file succeeds, prints this text and a line end, and changes no file. If it
succeeds without a file to write to, it prints the text and a line end, and changes no file. -/
theorem export_all_or_nothing (engine : Engine) (verbosity : Verbosity) (args : List String)
    (w : World) :
    ∃ code after, (run World.host verbosity ("export" :: args) engine).run w = (code, after) ∧
      (code = 0 ∨ code = 1) ∧
      (code = 1 ↔ ∃ e, ExportFails w.tree engine w.time args e) ∧
      (code = 1 → after.tree = w.tree ∧ after.out = w.out) ∧
      (code = 0 → ∃ request text, ExportRequest.ofArguments? args = some request ∧
        w.tree.classText engine w.time request = .ok text ∧
        (∀ path, request.output = some path →
          ∃ place, w.tree.locate path = .ok place ∧ w.tree.OnlyChanges after.tree place text ∧
            after.out = w.out ∧
            ∀ items last, args = argumentsOf items last →
              ∃ other, (run World.host verbosity
                  ("export" :: argumentsOf (withoutOutput items) last) engine).run w = (0, other) ∧
                other.tree = w.tree ∧ other.out = w.out ++ (text ++ "\n")) ∧
        (request.output = none → after.tree = w.tree ∧ after.out = w.out ++ (text ++ "\n"))) := by
  rcases exportFails_or w.tree engine w.time args with
    ⟨e, hfails⟩ | ⟨request, text, hrequest, htext, houtput | ⟨path, tree, houtput, hwrite⟩⟩
  · -- it fails: nothing else is claimed of this case
    obtain ⟨note, hrun⟩ := run_of_exportFails verbosity hfails
    refine ⟨1, _, hrun, .inr rfl, iff_of_true rfl ⟨e, hfails⟩, fun _ => ⟨rfl, rfl⟩, ?_⟩
    intro hcode
    exact absurd hcode (by decide)
  · -- the class file is printed
    obtain ⟨note, hrun⟩ := run_of_printed verbosity hrequest htext houtput
    refine ⟨0, _, hrun, .inl rfl, iff_of_false (by decide) (not_exportFails_of_run hrun), ?_, ?_⟩
    · intro hcode
      exact absurd hcode (by decide)
    · refine fun _ => ⟨request, text, hrequest, htext, ?_, fun _ => ⟨rfl, rfl⟩⟩
      intro path hpath
      rw [houtput] at hpath
      cases hpath
  · -- the class file is written, and would be printed without the items that name its file
    obtain ⟨note, hrun⟩ := run_of_written verbosity hrequest htext houtput hwrite
    obtain ⟨place, hlocate, honly⟩ := FileTree.onlyChanges_of_write hwrite
    refine ⟨0, _, hrun, .inl rfl, iff_of_false (by decide) (not_exportFails_of_run hrun), ?_, ?_⟩
    · intro hcode
      exact absurd hcode (by decide)
    · refine fun _ => ⟨request, text, hrequest, htext, ?_, ?_⟩
      · intro other hother
        rw [houtput] at hother
        cases hother
        refine ⟨place, hlocate, honly, rfl, ?_⟩
        rintro items last rfl
        exact run_withoutOutput verbosity hrequest htext
      · intro hnone
        rw [houtput] at hnone
        cases hnone

theorem render_project (x : Exporter) (p : Project) (source time : String) :
    x.render p none source time = x.renderTests p (x.className p.name) p.tests source time :=
  rfl

/-- The recording of a test with a command, and a configuration next to it. -/
def sampleTree : FileTree :=
  { files := [
      (["p.side"], (String.join ["\x7b\"name\":\"p\",\"tests\":[\x7b\"name\":\"t\",\"commands\":[",
        "\x7b\"command\":\"type\",\"target\":\"id=x\",\"value\":\"a\\nb\",",
        "\"comment\":\"two lines\"\x7d]\x7d]\x7d"]).toUTF8),
      ([".side-export.yaml"], "provenance: false".toUTF8)] }

/-- The recording that the files hold. -/
def sampleProject : Project :=
  { name := "p", tests := [Exporter.twoLineTest] }

theorem classText_sampleTree (suite output : Option String) :
    sampleTree.classText .standard "" ⟨"p.side", suite, output, none, none⟩ =
      Exporter.bareExporter.render sampleProject suite "p.side" "" := by
  have hproject : sampleTree.project "p.side" = .ok sampleProject :=
    eq_ok_of_toOption (by decide +kernel)
  have hconfig : sampleTree.config ⟨"p.side", suite, output, none, none⟩ =
      .ok { provenance := false } :=
    eq_ok_of_toOption (show (sampleTree.config ⟨"p.side", none, none, none, none⟩).toOption =
      some { provenance := false } by decide +kernel)
  have hsource : (Path.fileName? "p.side").getD "p.side" = "p.side" := by decide
  rw [FileTree.classText_eq_render .standard "" ⟨"p.side", suite, output, none, none⟩ hproject
    hconfig rfl, hsource, Exporter.bareExporter]

theorem render_sampleProject :
    Exporter.bareExporter.render sampleProject none "p.side" "" = .ok Exporter.twoLineText := by
  have hname : Exporter.bareExporter.className sampleProject.name = "PCest" := by decide +kernel
  rw [render_project, hname]
  exact Exporter.renderTests_twoLineTest

/-- With a file to write to, the class file is written to it; without, it is printed. If a suite is
named that the recording does not have, nothing is written or printed. -/
theorem export_all_or_nothing_sampleTree :
    (∃ after, (run World.host (some .warn) ["export", "p.side", "-o", "f"]).run
        { tree := sampleTree } = (0, after) ∧
      sampleTree.OnlyChanges after.tree ["f"] Exporter.twoLineText ∧ after.out = "") ∧
    (∃ other, (run World.host (some .warn) ["export", "p.side"]).run { tree := sampleTree } =
        (0, other) ∧
      other.tree = sampleTree ∧ other.out = Exporter.twoLineText ++ "\n") ∧
    ∃ failed, (run World.host (some .warn) ["export", "p.side", "-o", "f", "--suite", "s"]).run
        { tree := sampleTree } = (1, failed) ∧
      failed.tree = sampleTree ∧ failed.out = "" := by
  have hmade : sampleTree.classText .standard "" ⟨"p.side", none, some "f", none, none⟩ =
      .ok Exporter.twoLineText := (classText_sampleTree none (some "f")).trans render_sampleProject
  have hunmade : sampleTree.classText .standard "" ⟨"p.side", some "s", some "f", none, none⟩ =
      .error (.unknownSuite "s") := classText_sampleTree (some "s") (some "f")
  have hwrite : (sampleTree.write "f" Exporter.twoLineText).toOption.isSome = true := by
    decide +kernel
  have hplace : sampleTree.locate "f" = .ok ["f"] := eq_ok_of_toOption (by decide +kernel)
  have hsucceeds : ¬ ∃ e, ExportFails sampleTree .standard "" ["p.side", "-o", "f"] e := by
    rintro ⟨e, hfails⟩
    cases hfails with
    | unnamed hwords => exact absurd hwords (by decide)
    | unmade hrequest htext =>
      obtain rfl := Option.some.inj hrequest
      cases hmade.symm.trans htext
    | unwritten hrequest htext houtput hfault =>
      obtain rfl := Option.some.inj hrequest
      obtain rfl := Except.ok.inj (hmade.symm.trans htext)
      obtain rfl := Option.some.inj houtput
      rw [hfault] at hwrite
      cases hwrite
  obtain ⟨code, after, hrun, hcode, hiff, -, hok⟩ := export_all_or_nothing .standard (some .warn)
    ["p.side", "-o", "f"] { tree := sampleTree }
  obtain rfl := hcode.resolve_right fun hone => hsucceeds (hiff.mp hone)
  obtain ⟨request, text, hrequest, htext, hwritten, -⟩ := hok rfl
  obtain rfl := Option.some.inj hrequest
  obtain rfl := Except.ok.inj (hmade.symm.trans htext)
  obtain ⟨place, hlocate, honly, hout, hitems⟩ := hwritten "f" rfl
  obtain rfl := Except.ok.inj (hplace.symm.trans hlocate)
  obtain ⟨code', failed, hrun', -, hiff', hfailed, -⟩ := export_all_or_nothing .standard
    (some .warn) ["p.side", "-o", "f", "--suite", "s"] { tree := sampleTree }
  obtain rfl := hiff'.mpr ⟨_, .unmade rfl hunmade⟩
  refine ⟨⟨after, hrun, honly, hout⟩, ?_, failed, hrun', (hfailed rfl).1, (hfailed rfl).2⟩
  exact hitems [.word "p.side" (by decide), .pair "-o" "f" (by decide) (by decide)] none rfl

end CestWriter.Cli
