import CestWriter.Registry

/-!
# Look-ups in a registry

What a registry answers after an insertion, and what a registry made from a list of entries answers:
the last entry of a name counts. When the names of the list are distinct, a look-up finds exactly
the entries of the list.
-/

namespace CestWriter.Registry

variable {α : Type}

theorem lookup_cons_eq_ite {κ : Type} [BEq κ] [LawfulBEq κ] [DecidableEq κ] (key name : κ)
    (value : α) (entries : List (κ × α)) :
    ((name, value) :: entries).lookup key =
      if key = name then some value else entries.lookup key := by
  rw [List.lookup_cons]
  by_cases h : key = name
  · simp [h]
  · have hbeq : (key == name) = false := beq_eq_false_iff_ne.mpr h
    simp only [hbeq, if_neg h]

theorem lookup_insertEntry (name key : String) (value : α) (entries : List (String × α)) :
    (insertEntry name value entries).lookup key =
      if key = name then some value else entries.lookup key := by
  induction entries with
  | nil => rw [insertEntry, lookup_cons_eq_ite]
  | cons head rest ih =>
    obtain ⟨other, old⟩ := head
    rw [insertEntry]
    split
    · rw [lookup_cons_eq_ite]
    · split
      · next heq =>
        subst heq
        simp only [lookup_cons_eq_ite]
        split <;> rfl
      · next hne =>
        simp only [lookup_cons_eq_ite, ih]
        by_cases h : key = other
        · simp [h, Ne.symm hne]
        · simp [h]

theorem get?_insert (r : Registry α) (name key : String) (value : α) :
    (r.insert name value).get? key = if key = name then some value else r.get? key :=
  lookup_insertEntry name key value r.entries

theorem get?_foldl_insert (entries : List (String × α)) (r : Registry α) (key : String) :
    (entries.foldl (fun r (name, value) => r.insert name value) r).get? key =
      (entries.reverse.lookup key).or (r.get? key) := by
  induction entries generalizing r with
  | nil => rfl
  | cons head rest ih =>
    obtain ⟨name, value⟩ := head
    rw [List.foldl_cons, ih, get?_insert, List.reverse_cons, List.lookup_append]
    rw [lookup_cons_eq_ite, Option.or_assoc]
    by_cases h : key = name <;> simp [h]

/-- A registry made from a list answers with the last entry of a name. -/
theorem get?_ofList (entries : List (String × α)) (key : String) :
    (ofList entries).get? key = entries.reverse.lookup key := by
  have hempty : (Registry.get? ({} : Registry α) key) = none := rfl
  rw [ofList, get?_foldl_insert, hempty, Option.or_none]

/-- When the names are distinct, a look-up finds exactly the entries. -/
theorem lookup_eq_some_iff_mem {entries : List (String × α)}
    (hdistinct : (entries.map (·.1)).Nodup) {key : String} {value : α} :
    entries.lookup key = some value ↔ (key, value) ∈ entries := by
  rw [List.lookup_eq_some_iff]
  constructor
  · rintro ⟨earlier, later, rfl, -⟩
    exact List.mem_append_right _ List.mem_cons_self
  · intro hmem
    obtain ⟨earlier, later, rfl⟩ := List.append_of_mem hmem
    refine ⟨earlier, later, rfl, fun entry hentry => ?_⟩
    rw [List.map_append, List.map_cons] at hdistinct
    have hne : entry.1 ≠ key :=
      (List.nodup_append.mp hdistinct).2.2 _ (List.mem_map_of_mem hentry) _ List.mem_cons_self
    exact bne_iff_ne.mpr hne.symm

/-- When the names are distinct, a registry made from a list answers with the entries of the
list. -/
theorem get?_ofList_eq_some_iff {entries : List (String × α)}
    (hdistinct : (entries.map (·.1)).Nodup) {key : String} {value : α} :
    (ofList entries).get? key = some value ↔ (key, value) ∈ entries := by
  have hreverse : (entries.reverse.map (·.1)).Nodup :=
    ((List.reverse_perm entries).map _).nodup_iff.mpr hdistinct
  rw [get?_ofList, lookup_eq_some_iff_mem hreverse, List.mem_reverse]

/-! ## The names of a registry -/

theorem names_ascending (r : Registry α) : r.names.Pairwise (· < ·) :=
  List.pairwise_map.mpr r.ascending

theorem names_nodup (r : Registry α) : r.names.Nodup :=
  r.names_ascending.imp String.ne_of_lt

theorem entries_nodup (r : Registry α) : r.entries.Nodup :=
  List.Pairwise.of_map (·.1) (fun _ _ hne => fun heq => hne (congrArg _ heq)) r.names_nodup

theorem get?_eq_some_iff_mem_entries (r : Registry α) {key : String} {value : α} :
    r.get? key = some value ↔ (key, value) ∈ r.entries :=
  lookup_eq_some_iff_mem r.names_nodup

theorem mem_names_iff (r : Registry α) {key : String} :
    key ∈ r.names ↔ ∃ value, r.get? key = some value := by
  simp [names, get?_eq_some_iff_mem_entries]

/-- A registry is determined by its answers: its entries are those that it answers with, and there
is one way to put them in order. -/
theorem ext_of_get? {r r' : Registry α} (h : ∀ key, r.get? key = r'.get? key) : r = r' := by
  have hmem : ∀ entry, entry ∈ r.entries ↔ entry ∈ r'.entries := by
    rintro ⟨key, value⟩
    rw [← get?_eq_some_iff_mem_entries, ← get?_eq_some_iff_mem_entries, h]
  have hperm : r.entries.Perm r'.entries :=
    (List.perm_ext_iff_of_nodup r.entries_nodup r'.entries_nodup).mpr hmem
  have hentries : r.entries = r'.entries :=
    hperm.eq_of_pairwise (fun _ _ _ _ hlt hgt => absurd hgt (String.lt_asymm hlt))
      r.ascending r'.ascending
  cases r
  cases r'
  cases hentries
  rfl

/-- Two insertions under different names may change places. -/
theorem insert_comm (r : Registry α) {first second : String} (hne : first ≠ second)
    (value value' : α) :
    (r.insert first value).insert second value' = (r.insert second value').insert first value := by
  refine ext_of_get? fun key => ?_
  simp only [get?_insert]
  by_cases hfirst : key = first
  · rw [if_neg (hfirst ▸ hne), if_pos hfirst, if_pos hfirst]
  · rw [if_neg hfirst, if_neg hfirst]

end CestWriter.Registry
