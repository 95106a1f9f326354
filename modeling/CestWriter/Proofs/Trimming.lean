import CestWriter.Text.Blank

/-!
# Texts without the blanks around them

Trimming takes off the blanks at either end and nothing else, so doing it again changes nothing.
-/

namespace CestWriter.Text

variable {before body after : List Char}

theorem dropWhile_blank_eq_self (h : ∀ c ∈ body.head?, isBlank c = false) :
    body.dropWhile isBlank = body := by
  cases body with
  | nil => rfl
  | cons c cs => simp [h c rfl]

theorem trimEnd_eq_self (h : ∀ c ∈ body.getLast?, isBlank c = false) : trimEnd body = body := by
  rw [trimEnd, dropWhile_blank_eq_self, List.reverse_reverse]
  rwa [List.head?_reverse]

theorem trim_eq_self (hhead : ∀ c ∈ body.head?, isBlank c = false)
    (hlast : ∀ c ∈ body.getLast?, isBlank c = false) : trim body = body := by
  rw [trim, dropWhile_blank_eq_self hhead, trimEnd_eq_self hlast]

theorem trimEnd_append (hafter : ∀ c ∈ after, isBlank c = true) (cs : List Char) :
    trimEnd (cs ++ after) = trimEnd cs := by
  rw [trimEnd, List.reverse_append, List.dropWhile_append_of_pos, trimEnd]
  exact fun c hc => hafter c (List.mem_reverse.mp hc)

/-- Trimming leaves what blanks surround, if no blank stands at its ends. -/
theorem trim_surrounded (hbefore : ∀ c ∈ before, isBlank c = true)
    (hafter : ∀ c ∈ after, isBlank c = true) (hhead : ∀ c ∈ body.head?, isBlank c = false)
    (hlast : ∀ c ∈ body.getLast?, isBlank c = false) : trim (before ++ body ++ after) = body := by
  rw [trim, List.append_assoc, List.dropWhile_append_of_pos hbefore]
  cases body with
  | nil =>
    rw [List.nil_append, ← List.append_nil after, List.dropWhile_append_of_pos hafter]
    rfl
  | cons c cs =>
    rw [dropWhile_blank_eq_self (by simpa using hhead c rfl), trimEnd_append hafter,
      trimEnd_eq_self hlast]

theorem head?_trim (cs : List Char) : ∀ c ∈ (trim cs).head?, isBlank c = false := by
  intro c hc
  have hprefix : trim cs <+: cs.dropWhile isBlank := by
    rw [← List.reverse_suffix, trim, trimEnd, List.reverse_reverse]
    exact List.dropWhile_suffix _
  obtain ⟨rest, hrest⟩ := hprefix
  have hhead : (cs.dropWhile isBlank).head? = some c := by
    rw [← hrest, List.head?_append, hc]
    rfl
  have hstop := List.head?_dropWhile_not isBlank cs
  rw [hhead] at hstop
  exact hstop

theorem getLast?_trim (cs : List Char) : ∀ c ∈ (trim cs).getLast?, isBlank c = false := by
  intro c hc
  rw [trim, trimEnd, List.getLast?_reverse] at hc
  have hstop := List.head?_dropWhile_not isBlank (cs.dropWhile isBlank).reverse
  rw [hc] at hstop
  exact hstop

theorem trim_trim (cs : List Char) : trim (trim cs) = trim cs :=
  trim_eq_self (head?_trim cs) (getLast?_trim cs)

theorem mem_of_mem_trimmed {s : String} {c : Char} (h : c ∈ (trimmed s).toList) :
    c ∈ s.toList := by
  rw [trimmed, String.toList_ofList, trim, trimEnd, List.mem_reverse] at h
  have hkept := (List.dropWhile_sublist _).subset h
  rw [List.mem_reverse] at hkept
  exact (List.dropWhile_sublist _).subset hkept

end CestWriter.Text
