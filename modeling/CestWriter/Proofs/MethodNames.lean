import CestWriter.Exporter

/-!
# Names of methods

Tests get their names one after another. A test gets its plain name if that is free, and else the
plain name with the least number from two on that makes it free. Only finitely many names are taken
and different numbers make different names, so such a number always exists.
-/

namespace CestWriter.MethodName

/-- The name is `base` if that is free, and else `base` with the least number from two on that makes
a free name. -/
def FirstFree (taken : List String) (base name : String) : Prop :=
  (base ∉ taken ∧ name = base) ∨
    (base ∈ taken ∧ ∃ n, 2 ≤ n ∧ base ++ n.repr ∉ taken ∧
      (∀ m, 2 ≤ m → m < n → base ++ m.repr ∈ taken) ∧ name = base ++ n.repr)

theorem FirstFree.not_mem {taken : List String} {base name : String}
    (h : FirstFree taken base name) : name ∉ taken := by
  rcases h with ⟨hfree, rfl⟩ | ⟨-, n, -, hfree, -, rfl⟩
  · exact hfree
  · exact hfree

theorem FirstFree.congr {taken taken' : List String} {base name : String}
    (h : FirstFree taken base name) (hmem : ∀ s, s ∈ taken ↔ s ∈ taken') :
    FirstFree taken' base name := by
  rcases h with ⟨hfree, hname⟩ | ⟨htaken, n, hn, hfree, hleast, hname⟩
  · exact .inl ⟨mt (hmem base).mpr hfree, hname⟩
  · refine .inr ⟨(hmem base).mp htaken, n, hn, mt (hmem _).mpr hfree, ?_, hname⟩
    intro m hm hlt
    exact (hmem _).mp (hleast m hm hlt)

theorem numbered_name_inj {base : String} {m n : Nat} (h : base ++ m.repr = base ++ n.repr) :
    m = n := by
  have hrepr : m.repr = n.repr := (String.append_right_inj base).mp h
  have hdigits : Nat.toDigits 10 m = Nat.toDigits 10 n := by
    rw [← Nat.toList_repr, ← Nat.toList_repr, hrepr]
  rw [← Nat.ofDigitChars_ten_toDigits (n := m), hdigits, Nat.ofDigitChars_ten_toDigits]

/-- The first numbered names, as many as names are taken and one more. -/
def numberedNames (base : String) (taken : List String) : List String :=
  (List.range (taken.length + 1)).map fun i => base ++ (2 + i).repr

theorem nodup_numberedNames (base : String) (taken : List String) :
    (numberedNames base taken).Nodup := by
  unfold numberedNames
  apply List.Pairwise.map _ _ List.nodup_range
  intro i j hij heq
  have := numbered_name_inj heq
  omega

theorem exists_free_number (base : String) (taken : List String) :
    ∃ n, 2 ≤ n ∧ n ≤ 2 + taken.length ∧ base ++ n.repr ∉ taken := by
  apply Classical.byContradiction
  intro hnone
  have hsubset : numberedNames base taken ⊆ taken := by
    intro s hs
    obtain ⟨i, hi, rfl⟩ := List.mem_map.mp hs
    rw [List.mem_range] at hi
    apply Classical.byContradiction
    intro hfree
    exact hnone ⟨2 + i, by omega, by omega, hfree⟩
  have hle := (nodup_numberedNames base taken).length_le_of_subset hsubset
  rw [numberedNames, List.length_map, List.length_range] at hle
  omega

/-- The search for a number finds the least one, if one of those that it tries is free. -/
theorem numbered_least {base : String} {taken : List String} {tries n : Nat}
    (h : ∃ m, n ≤ m ∧ m ≤ n + tries ∧ base ++ m.repr ∉ taken) :
    ∃ m, n ≤ m ∧ base ++ m.repr ∉ taken ∧
      (∀ k, n ≤ k → k < m → base ++ k.repr ∈ taken) ∧
      numbered base taken tries n = base ++ m.repr := by
  induction tries generalizing n with
  | zero =>
    obtain ⟨m, hle, hge, hfree⟩ := h
    obtain rfl : m = n := by omega
    exact ⟨m, hle, hfree, fun k hk hlt => absurd hlt (by omega), rfl⟩
  | succ tries ih =>
    rw [numbered]
    by_cases htaken : base ++ n.repr ∈ taken
    · rw [if_pos htaken]
      obtain ⟨m, hle, hge, hfree⟩ := h
      have hne : m ≠ n := by
        intro heq
        rw [heq] at hfree
        exact hfree htaken
      have hnext : ∃ m, n + 1 ≤ m ∧ m ≤ n + 1 + tries ∧ base ++ m.repr ∉ taken :=
        ⟨m, by omega, by omega, hfree⟩
      obtain ⟨m', hle', hfree', hleast, heq⟩ := ih hnext
      refine ⟨m', by omega, hfree', ?_, heq⟩
      intro k hk hlt
      by_cases hkn : k = n
      · rw [hkn]
        exact htaken
      · exact hleast k (by omega) hlt
    · rw [if_neg htaken]
      exact ⟨n, Nat.le_refl n, htaken, fun k hk hlt => absurd hlt (by omega), rfl⟩

theorem choose_firstFree (taken : List String) (test : String) :
    FirstFree taken (Identifier.method test) (choose taken test) := by
  simp only [choose]
  by_cases htaken : Identifier.method test ∈ taken
  · rw [if_pos htaken]
    exact .inr ⟨htaken, numbered_least (exists_free_number _ taken)⟩
  · rw [if_neg htaken]
    exact .inl ⟨htaken, rfl⟩

/-! ## All tests -/

theorem length_assign (taken tests : List String) :
    (assign taken tests).length = tests.length := by
  induction tests generalizing taken with
  | nil => rfl
  | cons test rest ih => rw [assign, List.length_cons, List.length_cons, ih]

/-- What is taken for a test are the names taken before all tests and those of the tests before
it. -/
theorem assign_firstFree (taken : List String) {tests : List String} {i : Nat} {test : String}
    (h : tests[i]? = some test) :
    ∃ name, (assign taken tests)[i]? = some name ∧
      FirstFree (taken ++ (assign taken tests).take i) (Identifier.method test) name := by
  induction tests generalizing taken i with
  | nil => exact nomatch h
  | cons first rest ih =>
    rw [assign]
    cases i with
    | zero =>
      obtain rfl : first = test := Option.some.inj h
      refine ⟨choose taken first, rfl, ?_⟩
      rw [List.take_zero, List.append_nil]
      exact choose_firstFree taken first
    | succ i =>
      obtain ⟨name, hname, hfirst⟩ := ih (choose taken first :: taken) h
      refine ⟨name, hname, hfirst.congr ?_⟩
      intro s
      rw [List.take_succ_cons, List.cons_append, List.mem_cons, List.mem_append, List.mem_append,
        List.mem_cons]
      exact or_left_comm

theorem not_mem_taken_of_mem_assign {taken tests : List String} {name : String}
    (h : name ∈ assign taken tests) : name ∉ taken := by
  induction tests generalizing taken with
  | nil => exact nomatch h
  | cons test rest ih =>
    rw [assign] at h
    rcases List.mem_cons.mp h with rfl | hrest
    · exact (choose_firstFree taken test).not_mem
    · exact fun hmem => ih hrest (List.mem_cons_of_mem _ hmem)

theorem nodup_assign (taken tests : List String) : (assign taken tests).Nodup := by
  induction tests generalizing taken with
  | nil => exact List.nodup_nil
  | cons test rest ih =>
    rw [assign]
    apply List.nodup_cons.mpr
    refine ⟨?_, ih _⟩
    intro hmem
    exact not_mem_taken_of_mem_assign hmem List.mem_cons_self

end CestWriter.MethodName
