import CestWriter.Proofs.RunCalls
import Mathlib.Data.List.Nodup

/-!
# Method names that differ only in letter case

Method names are the same method whatever the case of their letters, but the naming of tests tells
names apart by their exact spelling. The methods of a class stay distinct exactly when every test
gets the name that it would also get if letter case were ignored.
-/

namespace CestWriter

theorem toLower_of_isDigit {c : Char} (h : c.isDigit = true) : c.toLower = c := by
  unfold Char.toLower
  split
  · grind [Char.isDigit]
  · rfl

theorem toList_toLower (s : String) : s.toLower.toList = s.toList.map Char.toLower :=
  String.toList_map

theorem toLower_eq_ofList :
    String.toLower = fun s => String.ofList (s.toList.map Char.toLower) := by
  funext s
  apply String.toList_injective
  rw [toList_toLower, String.toList_ofList]

theorem toLower_append_repr (base : String) (n : Nat) :
    (base ++ n.repr).toLower = base.toLower ++ n.repr := by
  have hdigits : n.repr.toList.map Char.toLower = n.repr.toList := by
    rw [Nat.toList_repr]
    apply (List.map_congr_left ?_).trans (List.map_id _)
    intro c hc
    exact toLower_of_isDigit (Nat.isDigit_of_mem_toDigits (by decide) (by decide) hc)
  apply String.toList_injective
  rw [toList_toLower, String.toList_append, String.toList_append, toList_toLower, List.map_append,
    hdigits]

/-- Names that stay distinct when letter case is ignored. -/
def DistinctIgnoringCase (names : List String) : Prop :=
  (names.map String.toLower).Nodup

namespace MethodName

/-- The first free name stays the first free one when letter case is ignored, if it is free then. -/
theorem FirstFree.toLower {taken : List String} {base name : String}
    (h : FirstFree taken base name) (hfree : name.toLower ∉ taken.map String.toLower) :
    FirstFree (taken.map String.toLower) base.toLower name.toLower := by
  rcases h with ⟨-, rfl⟩ | ⟨htaken, n, hn, -, hleast, rfl⟩
  · exact .inl ⟨hfree, rfl⟩
  · rw [toLower_append_repr] at hfree
    refine .inr ⟨List.mem_map_of_mem htaken, n, hn, hfree, ?_, toLower_append_repr base n⟩
    intro m hm hlt
    rw [← toLower_append_repr]
    exact List.mem_map_of_mem (hleast m hm hlt)

/-- A free name is the plain name, or the plain name with a number. -/
theorem FirstFree.eq_append {taken : List String} {base name : String}
    (h : FirstFree taken base name) : ∃ rest, name = base ++ rest := by
  rcases h with ⟨-, rfl⟩ | ⟨-, n, -, -, -, rfl⟩
  · exact ⟨"", by rw [String.append_empty]⟩
  · exact ⟨n.repr, rfl⟩

end MethodName

/-- Names given one after another are distinct under a key, and distinct from those given before,
exactly when each has a key that was not there. -/
theorem nodup_map_append_iff {α β : Type} (key : α → β) (names before : List α) :
    ((names ++ before).map key).Nodup ↔
      (before.map key).Nodup ∧
        ∀ (i : Nat) (name : α), names[i]? = some name →
          key name ∉ (before ++ names.take i).map key := by
  induction names generalizing before with
  | nil => simp
  | cons first rest ih =>
    -- the first name joins those given before
    have hperm : (first :: rest ++ before).Perm (rest ++ (before ++ [first])) := by
      rw [← List.append_assoc]
      exact (List.perm_append_singleton first (rest ++ before)).symm
    have hmoved : ∀ i,
        before ++ (first :: rest).take (i + 1) = before ++ [first] ++ rest.take i := by
      intro i
      rw [List.take_succ_cons, List.append_assoc, List.singleton_append]
    rw [(hperm.map key).nodup_iff, ih, List.map_append, List.map_singleton, ← List.concat_eq_append,
      List.nodup_concat]
    constructor
    · rintro ⟨⟨hfirst, hbefore⟩, hrest⟩
      refine ⟨hbefore, ?_⟩
      intro i name hname
      cases i with
      | zero =>
        obtain rfl : first = name := Option.some.inj hname
        rw [List.take_zero, List.append_nil]
        exact hfirst
      | succ i =>
        rw [hmoved]
        exact hrest i name hname
    · rintro ⟨hbefore, hall⟩
      refine ⟨⟨?_, hbefore⟩, ?_⟩
      · have hfirst := hall 0 first rfl
        rwa [List.take_zero, List.append_nil] at hfirst
      · intro i name hname
        rw [← hmoved]
        exact hall (i + 1) name hname

namespace Exporter

/-- The names of the methods of the class: those of the tests, of the helper and of the hooks. -/
def declaredNames (tests : List Test) : List String :=
  methodNames tests ++ MethodName.reserved

/-- Every test gets the name that it would get if letter case were ignored. -/
def NamedIgnoringCase (tests : List Test) : Prop :=
  ∀ (i : Nat) (test : Test) (name : String), tests[i]? = some test →
    (methodNames tests)[i]? = some name →
    MethodName.FirstFree ((MethodName.reserved ++ (methodNames tests).take i).map String.toLower)
      (Identifier.method test.name).toLower name.toLower

theorem distinctIgnoringCase_reserved : DistinctIgnoringCase MethodName.reserved := by
  rw [DistinctIgnoringCase, toLower_eq_ofList]
  decide

theorem distinctIgnoringCase_iff_named (tests : List Test) :
    DistinctIgnoringCase (declaredNames tests) ↔ NamedIgnoringCase tests := by
  rw [DistinctIgnoringCase, declaredNames, nodup_map_append_iff]
  constructor
  · rintro ⟨-, hfree⟩ i test name htest hname
    exact (firstFree_of_methodName htest hname).toLower (hfree i name hname)
  · intro hnamed
    refine ⟨distinctIgnoringCase_reserved, ?_⟩
    intro i name hname
    obtain ⟨test, htest⟩ := exists_test_of_methodName hname
    exact (hnamed i test name htest hname).not_mem

/-- No test method has the name of a hook, in any letter case. -/
theorem toLower_methodName_ne {tests : List Test} {name hook : String}
    (hname : name ∈ methodNames tests) (hhook : hook.toList.head? = some '_') :
    name.toLower ≠ hook := by
  obtain ⟨i, hi⟩ := List.mem_iff_getElem?.mp hname
  obtain ⟨test, htest⟩ := exists_test_of_methodName hi
  obtain ⟨rest, rfl⟩ := (firstFree_of_methodName htest hi).eq_append
  obtain ⟨c, more, hlist, hc⟩ := Identifier.method_toList_eq_cons test.name
  rintro rfl
  rw [toList_toLower, String.toList_append, hlist] at hhook
  have hunderscore : c.toLower = '_' := Option.some.inj hhook
  have halpha := Identifier.isAlpha_toLower hc
  rw [hunderscore] at halpha
  exact absurd halpha (by decide)

/-- Every plain name is the name of some method. -/
theorem mem_declaredNames_of_mem_plainNames {tests : List Test} {name : String}
    (h : name ∈ plainNames tests) : name ∈ declaredNames tests := by
  rw [plainNames, List.map_map] at h
  obtain ⟨test, htest, rfl⟩ := List.mem_map.mp h
  obtain ⟨i, hi⟩ := List.mem_iff_getElem?.mp htest
  obtain ⟨name, hname, ⟨-, rfl⟩ | ⟨htaken, -⟩⟩ := methodNames_firstFree hi
  · exact List.mem_append_left _ (List.mem_of_getElem? hname)
  · rcases List.mem_append.mp htaken with hreserved | hearlier
    · exact List.mem_append_right _ hreserved
    · exact List.mem_append_left _ (List.mem_of_mem_take hearlier)

theorem mem_declaredNames {tests : List Test} {name : String}
    (h : name ∈ plainNames tests ++ MethodName.reserved) : name ∈ declaredNames tests := by
  rcases List.mem_append.mp h with hplain | hreserved
  · exact mem_declaredNames_of_mem_plainNames hplain
  · exact List.mem_append_right _ hreserved

/-- Distinct plain names are the names of the methods. -/
theorem declaredNames_of_distinct {tests : List Test}
    (h : (plainNames tests ++ MethodName.reserved).Nodup) :
    declaredNames tests = plainNames tests ++ MethodName.reserved := by
  obtain ⟨hnodup, -, hdisjoint⟩ := List.nodup_append.mp h
  rw [declaredNames, methodNames_eq_plainNames_iff.mpr ⟨hnodup, ?_⟩]
  intro hmem
  exact hdisjoint _ hmem _ List.mem_cons_self rfl

/-- When the methods of a class stay distinct if letter case is ignored: exactly when every test
gets the name that it would then get. Two tests whose plain names differ only in letter case, or a
test whose plain name differs so from that of the helper, always give two methods of one name;
distinct plain names never do. The names of hooks are never met. -/
theorem declaredNames_distinctIgnoringCase_iff (tests : List Test) :
    (DistinctIgnoringCase (declaredNames tests) ↔ NamedIgnoringCase tests) ∧
    (∀ a ∈ plainNames tests ++ MethodName.reserved, ∀ b ∈ plainNames tests ++ MethodName.reserved,
      a ≠ b → a.toLower = b.toLower → ¬ DistinctIgnoringCase (declaredNames tests)) ∧
    (DistinctIgnoringCase (plainNames tests ++ MethodName.reserved) →
      DistinctIgnoringCase (declaredNames tests)) ∧
    (∀ name ∈ methodNames tests, name.toLower ≠ "_before" ∧ name.toLower ≠ "_after") := by
  refine ⟨distinctIgnoringCase_iff_named tests, ?_, ?_, ?_⟩
  · intro a ha b hb hne heq hdistinct
    exact hne (List.inj_on_of_nodup_map hdistinct (mem_declaredNames ha) (mem_declaredNames hb) heq)
  · intro h
    rw [declaredNames_of_distinct (List.Nodup.of_map _ h)]
    exact h
  · intro name hname
    exact ⟨toLower_methodName_ne hname (by decide), toLower_methodName_ne hname (by decide)⟩

/-- Tests of one name get numbers, which keep them distinct in every letter case. -/
theorem declaredNames_of_sampleTests :
    methodNames sampleTests = ["foo", "foo2", "foo22", "waitForWindow2"] ∧
    DistinctIgnoringCase (declaredNames sampleTests) ∧ NamedIgnoringCase sampleTests := by
  have hdistinct : DistinctIgnoringCase (declaredNames sampleTests) := by
    rw [DistinctIgnoringCase, toLower_eq_ofList]
    decide
  exact ⟨by decide, hdistinct,
    (declaredNames_distinctIgnoringCase_iff sampleTests).1.mp hdistinct⟩

/-- Two tests whose plain names differ only in letter case, and one that differs so from the
helper. -/
def caseVariantTests : List Test :=
  [{ name := "login" }, { name := "log in" }, { name := "waitforwindow" }]

theorem declaredNames_of_caseVariantTests :
    methodNames caseVariantTests = ["login", "logIn", "waitforwindow"] ∧
    ¬ DistinctIgnoringCase (declaredNames caseVariantTests) := by
  rw [DistinctIgnoringCase, toLower_eq_ofList]
  decide

end Exporter

end CestWriter
