import CestWriter.Text.Cut

/-!
# The order of texts and the order of their bytes

Texts are compared character by character. Comparing their encodings byte by byte gives the same
order, because the encoding of a character that comes first is smaller at the first byte where the
two encodings differ, and such a byte exists: no encoding of a character begins another one.
-/

namespace CestWriter.Text

/-- The bytes of a text. -/
def bytes (s : String) : List UInt8 :=
  s.toUTF8.data.toList

theorem bytes_eq_flatMap (s : String) : bytes s = s.toList.flatMap String.utf8EncodeChar := by
  rw [bytes, String.toUTF8, ← String.utf8Encode_toList, List.utf8Encode,
    List.toList_data_toByteArray]

theorem ofNat_cons_lt_cons_iff {m n : Nat} (hm : m < 256) (hn : n < 256) {us vs : List UInt8} :
    UInt8.ofNat m :: us < UInt8.ofNat n :: vs ↔ m < n ∨ m = n ∧ us < vs := by
  rw [List.cons_lt_cons_iff, UInt8.lt_iff_toNat_lt, ← UInt8.toNat_inj,
    UInt8.toNat_ofNat_of_lt' hm, UInt8.toNat_ofNat_of_lt' hn]

/-! ## One character -/

/-- A number in groups of six bits, the highest first: so many bytes after the first one, to which
the mark of its kind is added. -/
def groups (mark : Nat) : Nat → Nat → List UInt8
  | 0, v => [UInt8.ofNat (v + mark)]
  | trailing + 1, v => groups mark trailing (v / 64) ++ [UInt8.ofNat (v % 64 + 128)]

/-- What is left of a number above its lowest groups. -/
def highest : Nat → Nat → Nat
  | 0, v => v
  | trailing + 1, v => highest trailing (v / 64)

/-- How many bytes follow the first one in the encoding of a code point. -/
def trailing (v : Nat) : Nat :=
  if v ≤ 127 then 0 else if v ≤ 2047 then 1 else if v ≤ 65535 then 2 else 3

/-- The mark of a first byte that so many bytes follow. -/
def leadMark : Nat → Nat
  | 0 => 0
  | 1 => 192
  | 2 => 224
  | _ => 240

/-- The first byte of the encoding of a code point. -/
def lead (v : Nat) : Nat :=
  highest (trailing v) v + leadMark (trailing v)

theorem toNat_lt (c : Char) : c.toNat < 1114112 := by
  have hvalid : c.toNat < 55296 ∨ 57343 < c.toNat ∧ c.toNat < 1114112 := c.valid
  omega

theorem utf8EncodeChar_eq_groups (c : Char) :
    String.utf8EncodeChar c = groups (leadMark (trailing c.toNat)) (trailing c.toNat) c.toNat := by
  have hlt := toNat_lt c
  unfold String.utf8EncodeChar trailing
  dsimp only
  rw [Char.toNat_val]
  generalize c.toNat = v at *
  -- the library also masks the highest group, which is small enough in each of the four cases
  split
  · rfl
  split
  · have hmask : v / 64 % 32 = v / 64 := Nat.mod_eq_of_lt (by omega)
    rw [hmask]
    rfl
  split
  · have hmask : v / 4096 % 16 = v / 4096 := Nat.mod_eq_of_lt (by omega)
    rw [hmask]
    simp only [groups, leadMark, Nat.div_div_eq_div_mul, List.cons_append, List.nil_append]
  · have hmask : v / 262144 % 8 = v / 262144 := Nat.mod_eq_of_lt (by omega)
    rw [hmask]
    simp only [groups, leadMark, Nat.div_div_eq_div_mul, List.cons_append, List.nil_append]

theorem groups_eq_cons (mark trailing v : Nat) :
    ∃ rest, groups mark trailing v = UInt8.ofNat (highest trailing v + mark) :: rest := by
  induction trailing generalizing v with
  | zero => exact ⟨[], rfl⟩
  | succ trailing ih =>
    obtain ⟨rest, hrest⟩ := ih (v / 64)
    exact ⟨rest ++ [UInt8.ofNat (v % 64 + 128)], by rw [groups, hrest, List.cons_append, highest]⟩

theorem utf8EncodeChar_eq_cons (c : Char) :
    ∃ rest, String.utf8EncodeChar c = UInt8.ofNat (lead c.toNat) :: rest := by
  rw [utf8EncodeChar_eq_groups]
  exact groups_eq_cons _ _ _

/-- Of two numbers in equally many groups the smaller has the smaller bytes. -/
theorem groups_append_lt {mark trailing m n : Nat} (hlt : m < n)
    (hn : highest trailing n + mark < 256) (us vs : List UInt8) :
    groups mark trailing m ++ us < groups mark trailing n ++ vs := by
  induction trailing generalizing m n us vs with
  | zero =>
    have hlead : m + mark < n + mark := Nat.add_lt_add_right hlt mark
    exact (ofNat_cons_lt_cons_iff (Nat.lt_trans hlead hn) hn).mpr (.inl hlead)
  | succ trailing ih =>
    simp only [groups, List.append_assoc]
    by_cases hhigh : m / 64 < n / 64
    · exact ih hhigh hn _ _
    · -- the higher groups agree, so the lowest one decides
      have hsame : m / 64 = n / 64 := by omega
      rw [hsame]
      refine List.append_left_lt ?_
      exact (ofNat_cons_lt_cons_iff (by omega) (by omega)).mpr (.inl (by omega))

theorem trailing_mono {m n : Nat} (h : m ≤ n) : trailing m ≤ trailing n := by
  grind [trailing]

theorem lead_lt_256 {v : Nat} (hv : v < 1114112) : lead v < 256 := by
  unfold lead trailing
  grind [highest, leadMark]

theorem lead_lt_lead {m n : Nat} (h : trailing m < trailing n) : lead m < lead n := by
  unfold lead
  unfold trailing at *
  grind [highest, leadMark]

/-- A character that comes first has the smaller encoding, whatever follows the two. -/
theorem utf8EncodeChar_append_lt {c d : Char} (h : c < d) (us vs : List UInt8) :
    String.utf8EncodeChar c ++ us < String.utf8EncodeChar d ++ vs := by
  have hlt : c.toNat < d.toNat := h
  have hd := lead_lt_256 (toNat_lt d)
  rcases Nat.lt_or_eq_of_le (trailing_mono (Nat.le_of_lt hlt)) with hshort | hsame
  · have hlead := lead_lt_lead hshort
    obtain ⟨rest, hrest⟩ := utf8EncodeChar_eq_cons c
    obtain ⟨rest', hrest'⟩ := utf8EncodeChar_eq_cons d
    rw [hrest, hrest']
    exact (ofNat_cons_lt_cons_iff (Nat.lt_trans hlead hd) hd).mpr (.inl hlead)
  · rw [utf8EncodeChar_eq_groups, utf8EncodeChar_eq_groups, hsame]
    exact groups_append_lt hlt hd us vs

/-! ## Texts -/

theorem flatMap_utf8EncodeChar_lt {cs ds : List Char} (h : cs < ds) :
    cs.flatMap String.utf8EncodeChar < ds.flatMap String.utf8EncodeChar := by
  induction h with
  | @nil d ds =>
    obtain ⟨rest, hrest⟩ := utf8EncodeChar_eq_cons d
    rw [List.flatMap_nil, List.flatMap_cons, hrest]
    exact List.nil_lt_cons _ _
  | rel h =>
    rw [List.flatMap_cons, List.flatMap_cons]
    exact utf8EncodeChar_append_lt h _ _
  | cons h ih =>
    rw [List.flatMap_cons, List.flatMap_cons]
    exact List.append_left_lt ih

/-- Texts are in the order of their bytes. -/
theorem bytes_lt_bytes_iff {s t : String} : bytes s < bytes t ↔ s < t := by
  rw [bytes_eq_flatMap, bytes_eq_flatMap, String.lt_iff]
  refine ⟨fun h => ?_, flatMap_utf8EncodeChar_lt⟩
  rcases Std.lt_trichotomy s.toList t.toList with hlt | heq | hgt
  · exact hlt
  · rw [heq] at h
    exact absurd h (List.lt_irrefl _)
  · exact absurd h (List.lt_asymm (flatMap_utf8EncodeChar_lt hgt))

end CestWriter.Text
