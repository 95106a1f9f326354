/-!
# Registries

A registry is a finite map from names to values, kept in the order of the names.
-/

namespace CestWriter

/-- Values by name; the names ascend, so every name is there at most once. -/
structure Registry (α : Type) where
  entries : List (String × α) := []
  ascending : entries.Pairwise (·.1 < ·.1) := by exact List.Pairwise.nil

namespace Registry

variable {α : Type}

/-- Puts an entry into a list of entries in ascending order; it takes the place of an entry with
the same name. -/
def insertEntry (name : String) (value : α) : List (String × α) → List (String × α)
  | [] => [(name, value)]
  | (other, old) :: rest =>
    if name < other then (name, value) :: (other, old) :: rest
    else if name = other then (name, value) :: rest
    else (other, old) :: insertEntry name value rest

theorem mem_insertEntry {name : String} {value : α} {entries : List (String × α)}
    {entry : String × α} (h : entry ∈ insertEntry name value entries) :
    entry = (name, value) ∨ entry ∈ entries := by
  induction entries with
  | nil => simpa [insertEntry] using h
  | cons head rest ih =>
    obtain ⟨other, old⟩ := head
    simp only [insertEntry] at h
    split at h
    · simpa using h
    · split at h
      · rcases List.mem_cons.mp h with rfl | h
        · exact .inl rfl
        · exact .inr (List.mem_cons_of_mem _ h)
      · rcases List.mem_cons.mp h with rfl | h
        · exact .inr List.mem_cons_self
        · exact (ih h).imp_right (List.mem_cons_of_mem _)

theorem ascending_insertEntry {name : String} {value : α} {entries : List (String × α)}
    (h : entries.Pairwise (·.1 < ·.1)) :
    (insertEntry name value entries).Pairwise (·.1 < ·.1) := by
  induction entries with
  | nil => exact List.pairwise_singleton _ _
  | cons head rest ih =>
    obtain ⟨other, old⟩ := head
    obtain ⟨hhead, hrest⟩ := List.pairwise_cons.mp h
    simp only [insertEntry]
    split
    · next hlt =>
      refine List.pairwise_cons.mpr ⟨fun entry hentry => ?_, h⟩
      rcases List.mem_cons.mp hentry with rfl | hentry
      · exact hlt
      · exact String.lt_trans hlt (hhead entry hentry)
    · next hnlt =>
      split
      · next heq =>
        subst heq
        exact List.pairwise_cons.mpr ⟨hhead, hrest⟩
      · next hne =>
        refine List.pairwise_cons.mpr ⟨fun entry hentry => ?_, ih hrest⟩
        rcases mem_insertEntry hentry with rfl | hentry
        · refine Decidable.byContradiction fun hnlt' => hne ?_
          exact String.le_antisymm (String.not_lt.mp hnlt') (String.not_lt.mp hnlt)
        · exact hhead entry hentry

/-- Puts a value under a name, replacing the one that was there. -/
def insert (r : Registry α) (name : String) (value : α) : Registry α :=
  ⟨insertEntry name value r.entries, ascending_insertEntry r.ascending⟩

/-- The registry with these values, a later one replacing an earlier one of the same name. -/
def ofList (entries : List (String × α)) : Registry α :=
  entries.foldl (fun r (name, value) => r.insert name value) {}

/-- The value under a name. -/
def get? (r : Registry α) (name : String) : Option α :=
  r.entries.lookup name

/-- Whether there is a value under a name. -/
def contains (r : Registry α) (name : String) : Bool :=
  (r.get? name).isSome

/-- All names, in ascending order. -/
def names (r : Registry α) : List String :=
  r.entries.map (·.1)

end Registry

end CestWriter
