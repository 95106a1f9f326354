import CestWriter.Cli.World
import CestWriter.Proofs.Registry

/-!
# Writing a file

A file is written at the place that its path leads to. All that leads there are folders, so no
folder appears and no other file changes.
-/

namespace CestWriter.Cli.FileTree

theorem lookup_replace (place other : List String) (bytes : ByteArray)
    (files : List (List String × ByteArray)) :
    (replace place bytes files).lookup other =
      if other = place then some bytes else files.lookup other := by
  induction files with
  | nil => rw [replace, Registry.lookup_cons_eq_ite]
  | cons entry rest ih =>
    obtain ⟨file, old⟩ := entry
    rw [replace]
    split
    · next hfile =>
      subst hfile
      simp only [Registry.lookup_cons_eq_ite]
      split <;> rfl
    · next hfile =>
      simp only [Registry.lookup_cons_eq_ite, ih]
      by_cases hother : other = file
      · simp [hother, hfile]
      · simp [hother]

theorem any_replace (q : List String → Bool) (place : List String) (bytes : ByteArray)
    (files : List (List String × ByteArray)) :
    ((replace place bytes files).any fun entry => q entry.1) =
      ((files.any fun entry => q entry.1) || q place) := by
  induction files with
  | nil => simp [replace]
  | cons entry rest ih =>
    by_cases hfile : entry.1 = place
    · cases hq : q place <;> simp [replace, hfile, hq]
    · simp [replace, hfile, ih, Bool.or_assoc]

theorem isFolder_of_enter {t : FileTree} {place : List String} (h : t.enter place = .ok ()) :
    t.isFolder place = true := by
  unfold enter at h
  split at h
  · assumption
  · cases h

/-- What leads to a place that is followed to is a folder. -/
theorem isFolder_of_follow {t : FileTree} {names here place : List String}
    (hhere : ∀ above, above <+: here → above ≠ here → t.isFolder above = true)
    (h : t.follow here names = .ok place) :
    ∀ above, above <+: place → above ≠ place → t.isFolder above = true := by
  induction names generalizing here with
  | nil =>
    cases h
    exact hhere
  | cons name rest ih =>
    rw [follow] at h
    cases henter : t.enter here with
    | error fault =>
      rw [henter] at h
      cases h
    | ok _ =>
      rw [henter] at h
      have hall : ∀ above, above <+: here → t.isFolder above = true := by
        intro above habove
        by_cases heq : above = here
        · exact heq ▸ isFolder_of_enter henter
        · exact hhere above habove heq
      change (if name = "." then _ else _) = _ at h
      split at h
      · exact ih hhere h
      · split at h
        · exact ih (fun above habove _ => hall above (habove.trans here.dropLast_prefix)) h
        · split at h
          · cases h
          · refine ih (fun above habove hne => hall above ?_) h
            rcases List.prefix_concat_iff.mp habove with heq | hprefix
            · exact absurd heq hne
            · exact hprefix

theorem isFolder_of_locate {t : FileTree} {path : String} {place : List String}
    (h : t.locate path = .ok place) :
    ∀ above, above <+: place → above ≠ place → t.isFolder above = true := by
  unfold locate at h
  cases hroute : t.route path with
  | error fault =>
    rw [hroute] at h
    cases h
  | ok found =>
    rw [hroute] at h
    have hstart : ∀ above, above <+: found.1 → t.isFolder above = true := by
      intro above habove
      unfold route at hroute
      split at hroute
      · cases hroute
      · split at hroute
        · cases hroute
        · cases hroute
          dsimp only at habove
          split at habove
          · simp [isFolder, List.prefix_nil.mp habove]
          · simp [isFolder, habove]
    exact isFolder_of_follow (fun above habove _ => hstart above habove) h

/-- Nothing but the file at this place is changed, to this text. -/
def OnlyChanges (t t' : FileTree) (place : List String) (text : String) : Prop :=
  (∀ other, t'.file? other = if other = place then some text.toUTF8 else t.file? other) ∧
    (∀ other, t'.isFolder other = t.isFolder other) ∧ t' = { t with files := t'.files }

theorem write_of_namesFolder {t : FileTree} {path : String} (h : namesFolder path = true)
    (text : String) (t' : FileTree) : t.write path text ≠ .ok t' := by
  rw [write, if_pos h]
  cases t.route path with
  | error fault => exact fun hok => by cases hok
  | ok found =>
    obtain ⟨start, names⟩ := found
    change (t.follow start names.dropLast >>= fun folder => t.enter folder >>= fun _ => _) ≠ _
    cases t.follow start names.dropLast with
    | error fault => exact fun hok => by cases hok
    | ok folder =>
      change (t.enter folder >>= fun _ => _) ≠ _
      cases t.enter folder with
      | error fault => exact fun hok => by cases hok
      | ok _ => exact fun hok => by cases hok

theorem write_eq_ok {t t' : FileTree} {path text : String} (h : t.write path text = .ok t') :
    ∃ place, t.locate path = .ok place ∧
      t' = { t with files := replace place text.toUTF8 t.files } := by
  have hname : namesFolder path = false := by
    rw [← Bool.not_eq_true]
    exact fun hfolder => write_of_namesFolder hfolder text t' h
  rw [write, if_neg (by simp [hname])] at h
  cases hplace : t.locate path with
  | error fault =>
    rw [hplace] at h
    cases h
  | ok place =>
    rw [hplace] at h
    change (if t.isFolder place = true then _ else _) = _ at h
    split at h
    · cases h
    · split at h
      · cases h
      · cases h
        exact ⟨place, rfl, rfl⟩

/-- A file is given a text by changing nothing but the place that the path leads to. -/
theorem onlyChanges_of_write {t t' : FileTree} {path text : String}
    (h : t.write path text = .ok t') :
    ∃ place, t.locate path = .ok place ∧ t.OnlyChanges t' place text := by
  obtain ⟨place, hplace, rfl⟩ := write_eq_ok h
  refine ⟨place, hplace, fun other => lookup_replace place other _ _, fun other => ?_, rfl⟩
  have hsplit : isFolder { t with files := replace place text.toUTF8 t.files } other =
      (t.isFolder other || (other != place && other.isPrefixOf place)) := by
    have hany := any_replace (fun file => other != file && other.isPrefixOf file) place text.toUTF8
      t.files
    simp only [isFolder, hany, Bool.or_assoc]
  rw [hsplit]
  cases hproper : other != place && other.isPrefixOf place with
  | false => exact Bool.or_false _
  | true =>
    rw [Bool.and_eq_true, bne_iff_ne, List.isPrefixOf_iff_prefix] at hproper
    rw [isFolder_of_locate hplace other hproper.2 hproper.1]
    rfl

end CestWriter.Cli.FileTree
