import CestWriter.Proofs.ClassMembers
import CestWriter.Proofs.Identifiers
import CestWriter.Proofs.StandardTable

/-!
# Calls of other tests

A command that runs another test is emitted without regard to the other tests: it calls the method
of the plain name. The method of a test has the plain name only if that name was free when the
test got its name. So every such call reaches the method of the test that it names exactly when
the plain names of the tests are distinct and none of them is the name of the helper.
-/

namespace CestWriter

/-- The statement that calls the method of a test. -/
def callOf (name : String) : String :=
  "$this->" ++ name ++ "($I);"

theorem callOf_ne_empty (name : String) : callOf name ≠ "" := by
  intro h
  have hlength := congrArg String.length h
  simp [callOf] at hlength

theorem callOf_inj {name other : String} (h : callOf name = callOf other) : name = other := by
  have hfront := (String.append_left_inj "($I);").mp h
  exact (String.append_right_inj "$this->").mp hfront

namespace Table

open Vocabulary

/-- The command is emitted as the call of a method, at every depth; if it opens a window, with the
lines for the window around the call. -/
def Calls (t : Table) (c : Command) (method : String) : Prop :=
  ∀ depth, t.emit depth c = .ok (withWindow c t.config (.statement (callOf method)))

theorem withWindow_statement_inj {c : Command} {config : Config} {s s' : String} (hs : s ≠ "")
    (hs' : s' ≠ "")
    (h : withWindow c config (.statement s) = withWindow c config (.statement s')) : s = s' := by
  cases hopens : c.opensWindow with
  | false => simpa [withWindow, hopens] using h
  | true =>
    simpa [withWindow, hopens, Emission.isEmpty, Emission.lines, Emission.before, Emission.after,
      hs, hs'] using h

section Standard

variable {t : Table} (ht : t.IsStandard) {c : Command} (hname : c.name = "run")

include ht hname

theorem calls_plain_name : t.Calls c (Identifier.method c.targetText) := by
  intro depth
  have hmem : (c.name, run) ∈ Vocabulary.standard := by
    rw [hname]
    simp [Vocabulary.standard, interactions]
  rw [emit_of_mem_standard ht hmem]
  rfl

/-- A command that runs a test calls the method of the plain name and no other. -/
theorem calls_iff {method : String} :
    t.Calls c method ↔ method = Identifier.method c.targetText := by
  constructor
  · intro h
    have hplain := calls_plain_name ht hname 0
    rw [h 0] at hplain
    have hstatement := withWindow_statement_inj (callOf_ne_empty _) (callOf_ne_empty _)
      (Except.ok.inj hplain)
    exact callOf_inj hstatement
  · rintro rfl
    exact calls_plain_name ht hname

end Standard

end Table

namespace MethodName

theorem choose_of_free {taken : List String} {test : String}
    (h : Identifier.method test ∉ taken) : choose taken test = Identifier.method test := by
  simp only [choose, if_neg h]

/-- All tests get their plain names exactly when these are free and distinct. -/
theorem assign_eq_map_iff {taken tests : List String} :
    assign taken tests = tests.map Identifier.method ↔
      (tests.map Identifier.method).Nodup ∧ ∀ name ∈ tests.map Identifier.method, name ∉ taken := by
  constructor
  · intro h
    rw [← h]
    exact ⟨nodup_assign taken tests, fun name => not_mem_taken_of_mem_assign⟩
  · rintro ⟨hnodup, hfree⟩
    induction tests generalizing taken with
    | nil => rfl
    | cons test rest ih =>
      rw [List.map_cons, List.nodup_cons] at hnodup
      rw [List.map_cons, List.forall_mem_cons] at hfree
      rw [assign, choose_of_free hfree.1, List.map_cons]
      congr 1
      apply ih hnodup.2
      intro name hname
      rw [List.mem_cons, not_or]
      refine ⟨?_, hfree.2 name hname⟩
      rintro rfl
      exact hnodup.1 hname

/-- The helper is the only reserved name that a recorded name can lead to: the other two begin with
an underscore. -/
theorem method_mem_reserved_iff {test : String} :
    Identifier.method test ∈ reserved ↔ Identifier.method test = Helper.waitForWindow.name := by
  obtain ⟨c, rest, hlist, hc⟩ := Identifier.method_toList_eq_cons test
  have hunderscore : ∀ name : String, name.toList.head? = some '_' →
      Identifier.method test ≠ name := by
    rintro name hhead rfl
    rw [hlist] at hhead
    cases hhead
    exact absurd hc (by decide)
  simp only [reserved, List.mem_cons, List.not_mem_nil, or_false]
  constructor
  · rintro (h | h | h)
    · exact h
    · exact absurd h (hunderscore _ (by decide))
    · exact absurd h (hunderscore _ (by decide))
  · exact .inl

end MethodName

namespace Exporter

theorem exists_test_of_methodName {tests : List Test} {i : Nat} {name : String}
    (h : (methodNames tests)[i]? = some name) : ∃ test, tests[i]? = some test := by
  have hi : i < tests.length := by
    rw [← length_methodNames]
    exact (List.getElem?_eq_some_iff.mp h).1
  exact ⟨tests[i], List.getElem?_eq_getElem hi⟩

theorem firstFree_of_methodName {tests : List Test} {i : Nat} {test : Test} {name : String}
    (htest : tests[i]? = some test) (hname : (methodNames tests)[i]? = some name) :
    MethodName.FirstFree (MethodName.reserved ++ (methodNames tests).take i)
      (Identifier.method test.name) name := by
  obtain ⟨name', hname', hfirst⟩ := methodNames_firstFree htest
  obtain rfl : name' = name := Option.some.inj (hname'.symm.trans hname)
  exact hfirst

/-- The plain names of tests, which may repeat. -/
def plainNames (tests : List Test) : List String :=
  (tests.map (·.name)).map Identifier.method

/-- Every command that runs one of the tests calls the method that this test gets. -/
def RunsReachTheirTests (t : Table) (tests : List Test) : Prop :=
  ∀ (i : Nat) (test : Test) (name : String) (c : Command), tests[i]? = some test →
    (methodNames tests)[i]? = some name → c.name = "run" → c.targetText = test.name →
    t.Calls c name

/-- The method of test `i` has this name in the class file. -/
def DeclaredIn (x : Exporter) (tests : List Test) (file : ClassFile) (i : Nat) (name : String) :
    Prop :=
  ∃ methods method, file.members = x.hookMembers ++ methods ++ x.helperMembers tests ∧
    methods.length = tests.length ∧ methods[i]? = some method ∧ Declares name method

theorem declaredIn_of_classFile {x : Exporter} {p : Project} {className : String}
    {tests : List Test} {source time : String} {file : ClassFile}
    (hfile : x.classFile p className tests source time = .ok file) {i : Nat} {name : String}
    (hname : (methodNames tests)[i]? = some name) : x.DeclaredIn tests file i name := by
  obtain ⟨methods, hmethods, hmembers⟩ := classFile_eq_ok hfile
  obtain ⟨test, htest⟩ := exists_test_of_methodName hname
  obtain ⟨name', method, hname', hmethod, -, hdeclares⟩ := renderMethods_getElem? hmethods htest
  obtain rfl : name' = name := Option.some.inj (hname'.symm.trans hname)
  exact ⟨methods, method, hmembers, length_renderMethods hmethods, hmethod, hdeclares⟩

theorem plainNames_getElem? {tests : List Test} {i : Nat} {test : Test}
    (h : tests[i]? = some test) :
    (plainNames tests)[i]? = some (Identifier.method test.name) := by
  rw [plainNames, List.getElem?_map, List.getElem?_map, h]
  rfl

/-- All runs reach their tests exactly when all tests get their plain names. -/
theorem runsReach_iff_methodNames {t : Table} (ht : t.IsStandard) {tests : List Test} :
    RunsReachTheirTests t tests ↔ methodNames tests = plainNames tests := by
  constructor
  · intro h
    apply List.ext_getElem?
    intro i
    cases htest : tests[i]? with
    | none =>
      have hle := List.getElem?_eq_none_iff.mp htest
      rw [List.getElem?_eq_none (by rw [length_methodNames]; exact hle),
        List.getElem?_eq_none (by rw [plainNames, List.length_map, List.length_map]; exact hle)]
    | some test =>
      obtain ⟨name, hname, -⟩ := methodNames_firstFree htest
      have hcalls := h i test name { name := "run", target := some test.name } htest hname rfl rfl
      rw [hname, plainNames_getElem? htest, (Table.calls_iff ht rfl).mp hcalls]
      rfl
  · intro h i test name c htest hname hrun htarget
    rw [h, plainNames_getElem? htest] at hname
    rw [Table.calls_iff ht hrun, htarget]
    exact (Option.some.inj hname).symm

theorem methodNames_eq_plainNames_iff {tests : List Test} :
    methodNames tests = plainNames tests ↔
      (plainNames tests).Nodup ∧ Helper.waitForWindow.name ∉ plainNames tests := by
  rw [methodNames, plainNames, MethodName.assign_eq_map_iff]
  refine and_congr_right fun _ => ?_
  constructor
  · intro h hmem
    exact h _ hmem List.mem_cons_self
  · intro h name hname hreserved
    obtain ⟨test, -, rfl⟩ := List.mem_map.mp hname
    rw [MethodName.method_mem_reserved_iff] at hreserved
    rw [hreserved] at hname
    exact h hname

/-- A test has another name than its plain one exactly when that was taken before. -/
theorem methodName_eq_plain_iff {tests : List Test} {i : Nat} {test : Test} {name : String}
    (htest : tests[i]? = some test) (hname : (methodNames tests)[i]? = some name) :
    name = Identifier.method test.name ↔
      Identifier.method test.name ∉ MethodName.reserved ++ (methodNames tests).take i := by
  have hfirst := firstFree_of_methodName htest hname
  constructor
  · intro h
    rw [← h]
    exact hfirst.not_mem
  · intro hfree
    rcases hfirst with ⟨-, heq⟩ | ⟨htaken, -⟩
    · exact heq
    · exact absurd htaken hfree

/-- A plain name that was taken belongs to the helper or to an earlier test. -/
theorem owner_of_taken {tests : List Test} {i : Nat} {test : String}
    (h : Identifier.method test ∈ MethodName.reserved ++ (methodNames tests).take i) :
    Identifier.method test = Helper.waitForWindow.name ∨
      ∃ j < i, (methodNames tests)[j]? = some (Identifier.method test) := by
  rcases List.mem_append.mp h with hreserved | hearlier
  · exact .inl (MethodName.method_mem_reserved_iff.mp hreserved)
  · obtain ⟨j, hj⟩ := List.mem_iff_getElem?.mp hearlier
    rw [List.getElem?_take] at hj
    split at hj
    · next hlt => exact .inr ⟨j, hlt, hj⟩
    · exact nomatch hj

/-- Which method a command calls that runs a test of the class. The call reaches the method declared
for that test exactly when the plain name of the test was free, and otherwise the helper or the
method of an earlier test. All calls are right exactly when the plain names are distinct and none is
the name of the helper. -/
theorem run_calls_own_method_iff (x : Exporter) (hstandard : x.table.IsStandard) (p : Project)
    (className : String) (tests : List Test) (source time : String) :
    (∀ text, x.renderTests p className tests source time = .ok text →
      ∃ file, x.classFile p className tests source time = .ok file ∧ x.layOut file = .ok text ∧
        ∀ (i : Nat) (name : String), (methodNames tests)[i]? = some name →
          x.DeclaredIn tests file i name) ∧
    (∀ (i : Nat) (test : Test), tests[i]? = some test →
      ∃ name, (methodNames tests)[i]? = some name ∧
        ∀ c : Command, c.name = "run" → c.targetText = test.name →
          (x.table.Calls c name ↔
            Identifier.method test.name ∉ MethodName.reserved ++ (methodNames tests).take i) ∧
          (¬ x.table.Calls c name → ∃ other, x.table.Calls c other ∧
            (other = Helper.waitForWindow.name ∨
              ∃ j < i, (methodNames tests)[j]? = some other))) ∧
    (RunsReachTheirTests x.table tests ↔
      (plainNames tests).Nodup ∧ Helper.waitForWindow.name ∉ plainNames tests) := by
  refine ⟨?_, ?_, (runsReach_iff_methodNames hstandard).trans methodNames_eq_plainNames_iff⟩
  · intro text h
    obtain ⟨file, hfile, hout⟩ := renderTests_eq_ok h
    exact ⟨file, hfile, hout, fun i name => declaredIn_of_classFile hfile⟩
  · intro i test htest
    obtain ⟨name, hname, -⟩ := methodNames_firstFree htest
    refine ⟨name, hname, fun c hrun htarget => ?_⟩
    have hcalls : x.table.Calls c name ↔
        Identifier.method test.name ∉ MethodName.reserved ++ (methodNames tests).take i := by
      rw [Table.calls_iff hstandard hrun, htarget, methodName_eq_plain_iff htest hname]
    refine ⟨hcalls, fun hmissed => ?_⟩
    rw [hcalls, Classical.not_not] at hmissed
    refine ⟨Identifier.method test.name, ?_, owner_of_taken hmissed⟩
    rw [← htarget]
    exact Table.calls_plain_name hstandard hrun

/-- Two tests whose different names have the same plain name, and a test that runs the second. -/
def lookalikeTests : List Test :=
  [{ name := "log in" }, { name := "log-in" },
    { name := "main", commands := [{ name := "run", target := some "log-in" }] }]

/-- Running the first of the tests calls its method, running the second does not. -/
theorem run_calls_of_lookalikeTests :
    sampleExporter.table.IsStandard ∧
    sampleExporter.table.Calls { name := "run", target := some "log in" } "logIn" ∧
    (methodNames lookalikeTests)[0]? = some "logIn" ∧
    ¬ RunsReachTheirTests sampleExporter.table lookalikeTests := by
  have hstandard : sampleExporter.table.IsStandard := rfl
  obtain ⟨-, hruns, hall⟩ := run_calls_own_method_iff sampleExporter hstandard
    { name := "sample", tests := lookalikeTests } "SampleCest" lookalikeTests "sample.side" ""
  have hfirst : (methodNames lookalikeTests)[0]? = some "logIn" := by decide
  obtain ⟨name, hname, hcalls⟩ := hruns 0 { name := "log in" } rfl
  obtain rfl : name = "logIn" := Option.some.inj (hname.symm.trans hfirst)
  refine ⟨hstandard, ?_, hfirst, ?_⟩
  · apply (hcalls { name := "run", target := some "log in" } rfl rfl).1.mpr
    decide
  · rw [hall]
    decide

/-- The names of the tests are distinct, and running the second one calls the method of the
first. -/
theorem run_calls_other_method :
    (lookalikeTests.map (·.name)).Nodup ∧
    methodNames lookalikeTests = ["logIn", "logIn2", "main"] ∧
    (Table.standard {}).emit 0 { name := "run", target := some "log-in" } =
      .ok (.statement "$this->logIn($I);") ∧
    ¬ (Table.standard {}).Calls { name := "run", target := some "log-in" } "logIn2" := by
  have hstandard : (Table.standard {}).IsStandard := rfl
  have hcalls : (Table.standard {}).Calls { name := "run", target := some "log-in" } "logIn" := by
    rw [Table.calls_iff hstandard rfl]
    decide
  refine ⟨by decide, by decide, hcalls 0, ?_⟩
  rw [Table.calls_iff hstandard rfl]
  decide

end Exporter

end CestWriter
