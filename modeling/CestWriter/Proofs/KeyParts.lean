import CestWriter.Proofs.References
import CestWriter.Recording.Script

/-!
# Keystrokes and their text

A recorded sequence of keystrokes and the list of its parts determine each other: writing the parts
of a text gives the text back, and a list of parts in normal form is read back from what it is
written as. The parts are found by going from one reference to the next; they are those of the
decomposition of the text, piece by piece.
-/

namespace CestWriter.KeyPart

open Text (Piece HasReference isWord)

/-- A part as it is recorded. -/
def recorded : KeyPart → String
  | .text s => s
  | .key name => "$\x7bKEY_" ++ name ++ "\x7d"
  | .variableRef name => "$\x7b" ++ name ++ "\x7d"

/-- Parts as they are recorded, one after the other. -/
def unparse (parts : List KeyPart) : String :=
  String.join (parts.map recorded)

/-- Whether a part is typed text. -/
def isText : KeyPart → Bool
  | .text _ => true
  | _ => false

/-- Typed text is not empty and holds no reference, the name of a key is made of word characters,
and the name of a variable is a word that does not begin as the name of a key does. -/
def IsProper : KeyPart → Prop
  | .text s => s ≠ "" ∧ ¬ HasReference s.toList
  | .key name => ∀ c ∈ name.toList, isWord c = true
  | .variableRef name =>
    name ≠ "" ∧ (∀ c ∈ name.toList, isWord c = true) ∧ ¬ "KEY_".toList <+: name.toList

-- The characters of the name are checked one by one; those of the whole type are too many.
instance decidableIsWord (name : String) : Decidable (∀ c ∈ name.toList, isWord c = true) :=
  decidable_of_iff (name.toList.all isWord = true) List.all_eq_true

instance : DecidablePred IsProper
  | .text _ => inferInstanceAs (Decidable (_ ∧ _))
  | .key name => decidableIsWord name
  | .variableRef _ => inferInstanceAs (Decidable (_ ∧ _ ∧ _))

/-- Parts in normal form: each is proper, and typed text is not divided. -/
structure Normal (parts : List KeyPart) : Prop where
  proper : ∀ part ∈ parts, part.IsProper
  apart : parts.IsChain fun part next => ¬ (part.isText = true ∧ next.isText = true)

/-- The part that a piece of a text stands for. -/
def ofPiece : Piece → KeyPart
  | .literal cs => .text (String.ofList cs)
  | .reference name => ofName name

/-! ## One part for each piece -/

/-- Typed text in front of a decomposition that begins with a reference or is empty. -/
theorem map_ofPiece_foldr_push {pending : List Char} {pieces : List Piece}
    (h : Piece.beginsLiteral pieces = false) :
    (pending.foldr Piece.push pieces).map ofPiece =
      (if 0 < pending.length then [.text (String.ofList pending)] else []) ++
        pieces.map ofPiece := by
  cases pending with
  | nil => rfl
  | cons c cs =>
    have hne : c :: cs ≠ [] := List.cons_ne_nil c cs
    rw [Piece.foldr_push hne h, if_pos (List.length_pos_of_ne_nil hne)]
    rfl

/-- In the middle of a text, with `pending` read since the last reference, the loop gives the parts
of what is pending and of what follows. -/
theorem partsFrom_occurrences (before pending rest : List Char) :
    partsFrom (before ++ (pending ++ rest)) before.length
        (Text.occurrences (before.length + pending.length) rest) =
      (pending.foldr Piece.push (Text.decompose rest)).map ofPiece := by
  -- both go through the text alike: a reference ends what is pending, other characters add to it
  fun_induction Text.decompose rest generalizing before pending with
  | case1 =>
    rw [Text.occurrences, partsFrom, map_ofPiece_foldr_push rfl]
    simp
  | case2 c cs name rest h hlength ih =>
    obtain ⟨heq, -⟩ := Text.reference?_eq_some_iff.mp h
    obtain ⟨found, hfound⟩ : ∃ found, c :: cs = found ++ rest :=
      ⟨'$' :: '\x7b' :: (name ++ ['\x7d']), by simp [heq]⟩
    have hstop : before.length + pending.length + ((c :: cs).length - rest.length) =
        (before ++ (pending ++ found)).length := by
      simp [hfound, Nat.add_assoc]
    have hbetween : ((before ++ (pending ++ (found ++ rest))).drop before.length).take
        (before.length + pending.length - before.length) = pending := by
      simp
    have hafter := ih (before ++ (pending ++ found)) []
    rw [List.length_nil, Nat.add_zero, List.nil_append, List.foldr_nil, List.append_assoc,
      List.append_assoc] at hafter
    rw [Text.occurrences_of_reference h, partsFrom, hstop, hfound, hbetween, hafter,
      map_ofPiece_foldr_push rfl]
    simp [ofPiece]
  | case3 c cs h ih =>
    have hnext := ih before (pending ++ [c])
    rw [List.length_append, List.length_singleton, ← Nat.add_assoc, List.append_assoc,
      List.singleton_append, List.foldr_append] at hnext
    rw [Text.occurrences_cons_of_none h, hnext]
    rfl

/-- The loop gives one part for each piece of the text. -/
theorem ofRecorded_eq (s : String) : ofRecorded s = (Text.decompose s.toList).map ofPiece :=
  partsFrom_occurrences [] [] s.toList

/-! ## Parts and pieces -/

/-- The piece of a text that a part stands for. -/
def toPiece : KeyPart → Piece
  | .text s => .literal s.toList
  | .key name => .reference ("KEY_".toList ++ name.toList)
  | .variableRef name => .reference name.toList

@[simp] theorem isLiteral_toPiece (part : KeyPart) : part.toPiece.isLiteral = part.isText := by
  cases part <;> rfl

theorem toList_recorded (part : KeyPart) : part.recorded.toList = part.toPiece.recorded := by
  cases part with
  | text s => rfl
  | key name => simp [recorded, toPiece, Piece.recorded]
  | variableRef name => simp [recorded, toPiece, Piece.recorded]

/-- Parts are written one after the other as their pieces are. -/
theorem toList_join_map {write : KeyPart → String} {writePiece : Piece → List Char}
    (h : ∀ part, (write part).toList = writePiece part.toPiece) (parts : List KeyPart) :
    (String.join (parts.map write)).toList = (parts.map toPiece).flatMap writePiece := by
  induction parts with
  | nil => rfl
  | cons part rest ih =>
    rw [List.map_cons, String.join_cons, String.toList_append, h, ih, List.map_cons,
      List.flatMap_cons]

theorem toList_unparse (parts : List KeyPart) :
    (unparse parts).toList = (parts.map toPiece).flatMap Piece.recorded :=
  toList_join_map toList_recorded parts

/-- Every piece stands for a part. -/
theorem toPiece_ofPiece (piece : Piece) : (ofPiece piece).toPiece = piece := by
  cases piece with
  | literal cs => simp [ofPiece, toPiece]
  | reference name =>
    rw [ofPiece, ofName]
    split
    · next rest hrest => simp [toPiece, Text.rest?_eq_some_iff.mp hrest]
    · simp [toPiece]

/-- A proper part is found again in its piece. -/
theorem ofPiece_toPiece {part : KeyPart} (h : part.IsProper) : ofPiece part.toPiece = part := by
  cases part with
  | text s => simp [ofPiece, toPiece]
  | key name =>
    have hrest : Text.rest? "KEY_".toList ("KEY_".toList ++ name.toList) = some name.toList :=
      Text.rest?_eq_some_iff.mpr rfl
    rw [toPiece, ofPiece, ofName, hrest]
    simp
  | variableRef name =>
    have hrest : Text.rest? "KEY_".toList name.toList = none := by
      cases hfound : Text.rest? "KEY_".toList name.toList with
      | none => rfl
      | some rest => exact absurd ⟨rest, (Text.rest?_eq_some_iff.mp hfound).symm⟩ h.2.2
    rw [toPiece, ofPiece, ofName, hrest]
    simp

theorem isWord_of_mem_mark : ∀ c ∈ "KEY_".toList, isWord c = true := by
  decide

theorem isProper_toPiece {part : KeyPart} (h : part.IsProper) : part.toPiece.IsProper := by
  cases part with
  | text s => exact ⟨by simpa using h.1, h.2⟩
  | key name =>
    refine ⟨by simp, fun c hc => ?_⟩
    rcases List.mem_append.mp hc with hletter | hname
    · exact isWord_of_mem_mark c hletter
    · exact h c hname
  | variableRef name => exact ⟨by simpa using h.1, h.2.1⟩

theorem isProper_ofPiece {piece : Piece} (h : piece.IsProper) : (ofPiece piece).IsProper := by
  cases piece with
  | literal cs => exact ⟨by simpa [ofPiece] using h.1, by simpa [ofPiece] using h.2⟩
  | reference name =>
    rw [ofPiece, ofName]
    split
    · next rest hrest =>
      intro c hc
      rw [String.toList_ofList] at hc
      refine h.2 c ?_
      rw [Text.rest?_eq_some_iff.mp hrest]
      exact List.mem_append_right _ hc
    · next hnone =>
      refine ⟨by simpa using h.1, by simpa using h.2, ?_⟩
      rintro ⟨rest, hrest⟩
      rw [Text.rest?_eq_some_iff.mpr (by simpa using hrest.symm)] at hnone
      cases hnone

theorem isText_ofPiece (piece : Piece) : (ofPiece piece).isText = piece.isLiteral := by
  rw [← isLiteral_toPiece, toPiece_ofPiece]

theorem map_toPiece_ofRecorded (raw : String) :
    (ofRecorded raw).map toPiece = Text.decompose raw.toList := by
  have hsame : toPiece ∘ ofPiece = id := funext toPiece_ofPiece
  rw [ofRecorded_eq, List.map_map, hsame, List.map_id]

/-- The parts of a recorded text are in normal form. -/
theorem normal_ofRecorded (raw : String) : Normal (ofRecorded raw) where
  proper := by
    intro part hpart
    rw [ofRecorded_eq] at hpart
    obtain ⟨piece, hpiece, rfl⟩ := List.mem_map.mp hpart
    exact isProper_ofPiece (Piece.isProper_of_mem_decompose _ piece hpiece)
  apart := by
    rw [ofRecorded_eq, List.isChain_map]
    simp only [isText_ofPiece]
    exact (Piece.canonical_decompose raw.toList).apart

/-- The parts of a recorded text make up the text again. -/
theorem unparse_ofRecorded (raw : String) : unparse (ofRecorded raw) = raw := by
  apply String.toList_injective
  rw [toList_unparse, map_toPiece_ofRecorded, Piece.flatMap_recorded_decompose]

theorem canonical_map_toPiece {parts : List KeyPart} (h : Normal parts) :
    Piece.Canonical (parts.map toPiece) where
  proper := by
    intro piece hpiece
    obtain ⟨part, hpart, rfl⟩ := List.mem_map.mp hpiece
    exact isProper_toPiece (h.proper part hpart)
  apart := by
    rw [List.isChain_map]
    simp only [isLiteral_toPiece]
    exact h.apart

/-- Parts in normal form are read back from their text. -/
theorem ofRecorded_unparse {parts : List KeyPart} (h : Normal parts) :
    ofRecorded (unparse parts) = parts := by
  have hpieces : Text.decompose (unparse parts).toList = parts.map toPiece :=
    Piece.decompose_eq_iff.mpr ⟨(toList_unparse parts).symm, canonical_map_toPiece h⟩
  have hsame : ∀ part ∈ parts, (ofPiece ∘ toPiece) part = id part := fun part hpart =>
    ofPiece_toPiece (h.proper part hpart)
  rw [ofRecorded_eq, hpieces, List.map_map, List.map_congr_left hsame, List.map_id]

/-- Reading keystrokes and writing their parts are inverse to each other: every text is made up of
the parts that are read from it, these are in normal form, and every list of parts in normal form is
read from what it is written as. -/
theorem keyParts_inverse :
    (∀ raw, unparse (ofRecorded raw) = raw ∧ Normal (ofRecorded raw)) ∧
      ∀ parts, Normal parts → ofRecorded (unparse parts) = parts :=
  ⟨fun raw => ⟨unparse_ofRecorded raw, normal_ofRecorded raw⟩, fun _ => ofRecorded_unparse⟩

/-- Typed text that looks like the beginning or the end of a reference, next to references. -/
def lookalikes : List KeyPart :=
  [.text "$", .variableRef "a", .text "\x7bb\x7d$\x7b", .key "", .key "ENTER",
    .text "$\x7b\x7d", .variableRef "KEY"]

theorem keyParts_inverse_lookalikes :
    Normal lookalikes ∧
      unparse lookalikes = String.join ["$$\x7ba\x7d\x7bb\x7d$\x7b$\x7bKEY_\x7d$\x7bKEY_ENTER\x7d",
        "$\x7b\x7d$\x7bKEY\x7d"] ∧
      ofRecorded (unparse lookalikes) = lookalikes := by
  have hnormal : Normal lookalikes := ⟨by decide +kernel, by decide⟩
  exact ⟨hnormal, by decide +kernel, keyParts_inverse.2 lookalikes hnormal⟩

end CestWriter.KeyPart
