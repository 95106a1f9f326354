import CestWriter.Proofs.MethodNames

/-!
# Members of a class

The class of tests holds the members that hooks add, then one method for each test in the order of
the tests, and last the helper if some test opens a window. The methods have the names given to the
tests, so no two of them and no method and the helper have one name.
-/

namespace CestWriter.Exporter

/-- The names given to the methods of tests. -/
def methodNames (tests : List Test) : List String :=
  MethodName.assign MethodName.reserved (tests.map (·.name))

/-- Lays out a class file by the template of the exporter. -/
def layOut (x : Exporter) (file : ClassFile) : Except Template.Fault String :=
  match x.template with
  | some layout => layout file
  | none => file.render

/-- The text declares a method of this name. -/
def Declares (name method : String) : Prop :=
  ∃ rest, method = "public function " ++ name ++ "(AcceptanceTester $I)" ++ rest

theorem length_methodNames (tests : List Test) : (methodNames tests).length = tests.length := by
  rw [methodNames, MethodName.length_assign, List.length_map]

theorem methodNames_firstFree {tests : List Test} {i : Nat} {test : Test}
    (h : tests[i]? = some test) :
    ∃ name, (methodNames tests)[i]? = some name ∧
      MethodName.FirstFree (MethodName.reserved ++ (methodNames tests).take i)
        (Identifier.method test.name) name := by
  apply MethodName.assign_firstFree
  rw [List.getElem?_map, h, Option.map_some]

theorem named_getElem? {tests : List Test} {i : Nat} {name : String} {test : Test}
    (hname : (methodNames tests)[i]? = some name) (htest : tests[i]? = some test) :
    (named tests)[i]? = some (name, test) :=
  List.getElem?_zip_eq_some.mpr ⟨hname, htest⟩

theorem length_named (tests : List Test) : (named tests).length = tests.length := by
  have hnames := length_methodNames tests
  rw [methodNames] at hnames
  rw [named, List.length_zip, hnames, Nat.min_self]

/-! ## Methods -/

/-- The first line of a text of several lines stands at its beginning. -/
theorem renderLines_cons_cons (unit : String) (first second : Line) (rest : List Line) :
    ∃ more, renderLines unit (first :: second :: rest) = first.render unit ++ more := by
  refine ⟨"\n" ++ renderLines unit (second :: rest), ?_⟩
  simp only [renderLines, List.map_cons, String.intercalate_cons_cons, String.append_assoc]

theorem render_at_zero {s : String} (h : s ≠ "") (unit : String) :
    Line.render unit ⟨0, s⟩ = s := by
  have hempty : s.isEmpty = false := by
    rw [← Bool.not_eq_true, String.isEmpty_iff]
    exact h
  simp [Line.render, hempty]

theorem declares_of_renderMethod {x : Exporter} {name method : String} {test : Test}
    (h : x.renderMethod name test = .ok method) : Declares name method := by
  unfold renderMethod at h
  cases hbody : x.table.renderTest test.commands with
  | error error =>
    rw [hbody] at h
    exact nomatch h
  | ok body =>
    rw [hbody] at h
    have hmethod := Except.ok.inj h
    obtain ⟨more, hmore⟩ := renderLines_cons_cons x.table.config.indent
      ⟨0, "public function " ++ name ++ "(AcceptanceTester $I)"⟩ ⟨0, "\x7b"⟩
      (body.map (Line.shift 1) ++ (x.hooks .inEachEnd).lines.map outdent)
    have hheader : "public function " ++ name ++ "(AcceptanceTester $I)" ≠ "" := by
      intro heq
      have hlength := congrArg String.length heq
      simp at hlength
    rw [render_at_zero hheader] at hmore
    exact ⟨more, hmethod.symm.trans hmore⟩

theorem map_renderMethod {x : Exporter} {pairs : List (String × Test)} {methods : List String}
    (h : x.renderMethods pairs = .ok methods) :
    pairs.map (fun q => x.renderMethod q.1 q.2) = methods.map .ok := by
  induction pairs generalizing methods with
  | nil =>
    cases h
    rfl
  | cons pair rest ih =>
    obtain ⟨name, test⟩ := pair
    rw [renderMethods] at h
    cases hmethod : x.renderMethod name test with
    | error error =>
      rw [hmethod] at h
      exact nomatch h
    | ok method =>
      cases hrest : x.renderMethods rest with
      | error error =>
        rw [hmethod, hrest] at h
        exact nomatch h
      | ok more =>
        rw [hmethod, hrest] at h
        rw [← Except.ok.inj h, List.map_cons, List.map_cons, ih hrest, hmethod]

/-- Every test has a method of its own, at its own place. -/
theorem renderMethods_getElem? {x : Exporter} {tests : List Test} {methods : List String}
    (h : x.renderMethods (named tests) = .ok methods) {i : Nat} {test : Test}
    (htest : tests[i]? = some test) :
    ∃ name method, (methodNames tests)[i]? = some name ∧ methods[i]? = some method ∧
      x.renderMethod name test = .ok method ∧ Declares name method := by
  obtain ⟨name, hname, -⟩ := methodNames_firstFree htest
  have hmap := congrArg (·[i]?) (map_renderMethod h)
  simp only [List.getElem?_map, named_getElem? hname htest, Option.map_some] at hmap
  obtain ⟨method, hmethod, heq⟩ := Option.map_eq_some_iff.mp hmap.symm
  exact ⟨name, method, hname, hmethod, heq.symm, declares_of_renderMethod heq.symm⟩

theorem length_renderMethods {x : Exporter} {tests : List Test} {methods : List String}
    (h : x.renderMethods (named tests) = .ok methods) : methods.length = tests.length := by
  have hlength := congrArg List.length (map_renderMethod h)
  rw [List.length_map, List.length_map, length_named] at hlength
  exact hlength.symm

/-! ## The class file -/

theorem renderTests_eq_ok {x : Exporter} {p : Project} {className : String} {tests : List Test}
    {source time text : String} (h : x.renderTests p className tests source time = .ok text) :
    ∃ file, x.classFile p className tests source time = .ok file ∧ x.layOut file = .ok text := by
  unfold renderTests at h
  cases hfile : x.classFile p className tests source time with
  | error error =>
    rw [hfile] at h
    exact nomatch h
  | ok file =>
    rw [hfile] at h
    change (x.layOut file).mapError Error.template = .ok text at h
    cases hout : x.layOut file with
    | error fault =>
      rw [hout] at h
      exact nomatch h
    | ok result =>
      rw [hout] at h
      have hresult : result = text := Except.ok.inj h
      exact ⟨file, rfl, hresult ▸ hout⟩

theorem classFile_eq_ok {x : Exporter} {p : Project} {className : String} {tests : List Test}
    {source time : String} {file : ClassFile}
    (h : x.classFile p className tests source time = .ok file) :
    ∃ methods, x.renderMethods (named tests) = .ok methods ∧
      file.members = x.hookMembers ++ methods ++ x.helperMembers tests := by
  unfold classFile at h
  cases hmethods : x.renderMethods (named tests) with
  | error error =>
    rw [hmethods] at h
    exact nomatch h
  | ok methods =>
    rw [hmethods] at h
    cases h
    exact ⟨methods, rfl, rfl⟩

/-- Two tests of one name, a test with the name that the second of them gets, and a test with the
name of the helper. The first test opens a window. -/
def sampleTests : List Test :=
  [{ name := "foo", commands := [{ name := "//click", opensWindow := true }] },
    { name := "foo" }, { name := "foo2" }, { name := "wait for window" }]

/-- Writes the members of the class and nothing else. -/
def sampleExporter : Exporter :=
  { table := .standard {}
    template := some (ClassFile.renderBy
      [.repetition "member" (.name "members") [.output (.name "member")]]) }

end CestWriter.Exporter
