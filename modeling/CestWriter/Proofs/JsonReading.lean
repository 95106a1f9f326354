import CestWriter.Proofs.JsonText

/-!
# Written JSON values are read back

The machine that reads values goes over the text of a written value and ends up as if the value had
been handed to it: the value is put into the collection that is open around it, and what follows the
text is still to be read. So reading the text of a value gives the value. Of the numbers, this is
about whole ones.
-/

namespace CestWriter.Json

namespace State

/-- The machine after a text, from a state on. -/
def run (s : State) (cs : List Char) : Except Fault State :=
  (Token.scan cs).bind fun tokens => tokens.foldlM State.step s

theorem run_nil (s : State) : s.run [] = .ok s := by
  rw [run, scan_nil]
  rfl

/-- One token of a text is one step of the machine. -/
theorem run_of_scan {s s' : State} {cs rest : List Char} {token : Token}
    (hscan : Token.scan cs = (Token.scan rest).map (token :: ·)) (hstep : s.step token = .ok s') :
    s.run cs = s'.run rest := by
  rw [run, run, hscan]
  cases Token.scan rest with
  | error fault => rfl
  | ok tokens =>
    change (token :: tokens).foldlM State.step s = tokens.foldlM State.step s'
    rw [List.foldlM_cons, hstep]
    rfl

theorem run_mark {s s' : State} {c : Char} (token : Token) (hstep : s.step token = .ok s')
    (cs : List Char) (h : (c, token) ∈ marks := by decide) : s.run (c :: cs) = s'.run cs :=
  run_of_scan (scan_mark h cs) hstep

/-- The machine is about to read a value inside `outer`. In an array that has just been opened it
might also close it. -/
def Awaits (s : State) (outer : List Frame) : Prop :=
  ∀ token, token ≠ .endArray → s.step token = start outer token

theorem awaits_value (outer : List Frame) : Awaits (.value outer) outer :=
  fun _ _ => rfl

theorem awaits_arrayStart (outer : List Frame) : Awaits (.arrayStart outer) (.array [] :: outer) := by
  intro token hne
  cases token with
  | endArray => exact absurd rfl hne
  | _ => rfl

end State

namespace Value

open State

/-! ## The texts of collections -/

/-- Texts that follow the first one in a collection, each after a comma, and the end of it. -/
def following (close : Char) : List String → List Char
  | [] => [close]
  | s :: rest => ',' :: (s.toList ++ following close rest)

theorem toList_intercalate_cons (close : Char) (s : String) (rest : List String) :
    (",".intercalate (s :: rest)).toList ++ [close] = s.toList ++ following close rest := by
  induction rest generalizing s with
  | nil => rw [String.intercalate_singleton, following]
  | cons t rest ih =>
    rw [String.intercalate_cons_cons, String.toList_append, String.toList_append, List.append_assoc,
      ih, following]
    simp

/-- A number at the end of an item is not made longer by what follows the item. -/
theorem endsNumber_following {close : Char} (hclose : close = ']' ∨ close = '\x7d')
    (texts : List String) (rest : List Char) : EndsNumber (following close texts ++ rest) := by
  intro c hc
  cases texts with
  | nil =>
    cases hc
    rcases hclose with rfl | rfl
    all_goals decide
  | cons s more =>
    cases hc
    decide

theorem toList_write_array (v : Value) (vs : List Value) :
    (write (.array (v :: vs))).toList = '[' :: (v.write.toList ++ following ']' (writeItems vs)) := by
  rw [write, writeItems, ← toList_intercalate_cons]
  simp

theorem toList_write_object (key : Option String) (v : Value)
    (members : List (Option String × Value)) :
    (write (.object ((key, v) :: members))).toList =
      '\x7b' :: ((writeString key).toList ++
        ':' :: (v.write.toList ++ following '\x7d' (writeMembers members))) := by
  have hmembers := toList_intercalate_cons '\x7d' (writeString key ++ ":" ++ v.write)
    (writeMembers members)
  rw [write, writeMembers, String.toList_append, String.toList_append, List.append_assoc]
  change '\x7b' :: ((",".intercalate _).toList ++ ['\x7d']) = _
  rw [hmembers]
  simp

/-! ## Reading a value -/

/-- Wherever the text of the value is read, the machine goes on as with the value. -/
def ReadsBack (v : Value) : Prop :=
  ∀ (s : State) (outer : List Frame) (rest : List Char), s.Awaits outer → EndsNumber rest →
    s.run (v.write.toList ++ rest) = (complete v outer).run rest

/-- A value whose text is a single token. -/
theorem readsBack_of_scan {v : Value} (token : Token)
    (hstart : ∀ outer, start outer token = .ok (complete v outer))
    (hscan : ∀ rest, EndsNumber rest →
      Token.scan (v.write.toList ++ rest) = (Token.scan rest).map (token :: ·)) : v.ReadsBack := by
  intro s outer rest hs hrest
  have hne : token ≠ .endArray := by
    rintro rfl
    cases hstart outer
  exact run_of_scan (hscan rest hrest) ((hs token hne).trans (hstart outer))

/-- The rest of an array, after some items. -/
theorem run_following_items {vs : List Value} (h : ∀ v ∈ vs, v.ReadsBack) (items : List Value)
    (outer : List Frame) (rest : List Char) :
    (State.afterItem items outer).run (following ']' (writeItems vs) ++ rest) =
      (complete (.array (items.reverse ++ vs)) outer).run rest := by
  induction vs generalizing items with
  | nil =>
    rw [List.append_nil]
    exact run_mark .endArray rfl rest
  | cons v vs ih =>
    have hvs := ih (fun w hw => h w (List.mem_cons_of_mem _ hw)) (v :: items)
    rw [List.reverse_cons, List.append_assoc, List.singleton_append] at hvs
    rw [writeItems, following, List.cons_append, run_mark .comma rfl, List.append_assoc,
      h v List.mem_cons_self _ _ _ (awaits_value _) (endsNumber_following (.inl rfl) _ _)]
    exact hvs

/-- A member of an object, whose key may come, and what follows it. -/
theorem run_member {v : Value} (h : v.ReadsBack) (s : State) (key : Option String)
    {members : List (Option String × Value)} {outer : List Frame}
    (hs : s.step (.string key) = .ok (.colon members key outer)) {rest : List Char}
    (hrest : EndsNumber rest) :
    s.run ((writeString key).toList ++ ':' :: (v.write.toList ++ rest)) =
      (State.afterMember ((key, v) :: members) outer).run rest := by
  rw [run_of_scan (scan_writeString key _) hs, run_mark .colon rfl,
    h _ _ _ (awaits_value _) hrest]
  rfl

/-- The rest of an object, after some members. -/
theorem run_following_members {more : List (Option String × Value)}
    (h : ∀ m ∈ more, m.2.ReadsBack) (members : List (Option String × Value))
    (outer : List Frame) (rest : List Char) :
    (State.afterMember members outer).run (following '\x7d' (writeMembers more) ++ rest) =
      (complete (.object (members.reverse ++ more)) outer).run rest := by
  induction more generalizing members with
  | nil =>
    rw [List.append_nil]
    exact run_mark .endObject rfl rest
  | cons m more ih =>
    obtain ⟨key, v⟩ := m
    have hmore := ih (fun w hw => h w (List.mem_cons_of_mem _ hw)) ((key, v) :: members)
    rw [List.reverse_cons, List.append_assoc, List.singleton_append] at hmore
    have hmember := run_member (h _ List.mem_cons_self) (.key members outer) key rfl
      (endsNumber_following (.inr rfl) (writeMembers more) rest)
    rw [writeMembers, following, List.cons_append, run_mark .comma rfl, ← hmore, ← hmember]
    simp

theorem readsBack_array {items : List Value} (h : ∀ v ∈ items, v.ReadsBack) :
    (Value.array items).ReadsBack := by
  intro s outer rest hs hrest
  have hopen : s.step .beginArray = .ok (.arrayStart outer) := hs .beginArray (by decide)
  cases items with
  | nil =>
    change s.run ('[' :: ']' :: rest) = _
    rw [run_mark .beginArray hopen, run_mark .endArray rfl]
  | cons v vs =>
    have hv := h v List.mem_cons_self
    rw [toList_write_array, List.cons_append, run_mark .beginArray hopen, List.append_assoc,
      hv _ _ _ (awaits_arrayStart outer) (endsNumber_following (.inl rfl) _ _)]
    exact run_following_items (fun w hw => h w (List.mem_cons_of_mem _ hw)) [v] outer rest

theorem readsBack_object {members : List (Option String × Value)}
    (h : ∀ m ∈ members, m.2.ReadsBack) : (Value.object members).ReadsBack := by
  intro s outer rest hs hrest
  have hopen : s.step .beginObject = .ok (.objectStart outer) := hs .beginObject (by decide)
  cases members with
  | nil =>
    change s.run ('\x7b' :: '\x7d' :: rest) = _
    rw [run_mark .beginObject hopen, run_mark .endObject rfl]
  | cons m more =>
    obtain ⟨key, v⟩ := m
    have hmember := run_member (h _ List.mem_cons_self) (.objectStart outer) key rfl
      (endsNumber_following (.inr rfl) (writeMembers more) rest)
    have hmore := run_following_members (fun w hw => h w (List.mem_cons_of_mem _ hw)) [(key, v)]
      outer rest
    rw [toList_write_object, List.cons_append, run_mark .beginObject hopen]
    simp only [List.append_assoc, List.cons_append]
    exact hmember.trans hmore

/-- The numbers in the value are whole numbers without a sign, as they are printed. -/
inductive Whole : Value → Prop where
  | null : Whole .null
  | bool (b : Bool) : Whole (.bool b)
  | number (n : Nat) : Whole (.ofNat n)
  | string (text : Option String) : Whole (.string text)
  | array {items : List Value} (h : ∀ v ∈ items, Whole v) : Whole (.array items)
  | object {members : List (Option String × Value)} (h : ∀ m ∈ members, Whole m.2) :
    Whole (.object members)

theorem Whole.readsBack {v : Value} (h : v.Whole) : v.ReadsBack := by
  induction h with
  | null => exact readsBack_of_scan .null (fun _ => rfl) fun rest _ => scan_word (by decide) rest
  | bool b =>
    refine readsBack_of_scan (.bool b) (fun _ => rfl) fun rest _ => scan_word ?_ rest
    cases b
    all_goals decide
  | number n =>
    exact readsBack_of_scan (.number n.repr) (fun _ => rfl) fun _ hrest => scan_repr n hrest
  | string text =>
    exact readsBack_of_scan (.string text) (fun _ => rfl) fun rest _ => scan_writeString text rest
  | array _ ih => exact readsBack_array ih
  | object _ ih => exact readsBack_object ih

/-- Reading a whole text is a run of the machine from its beginning. -/
theorem parse_of_run {s : String} {v : Value}
    (h : (State.value []).run s.toList = .ok (.done v)) : Value.parse s = .ok v := by
  rw [run] at h
  rw [parse]
  cases hscan : Token.scan s.toList with
  | error fault =>
    rw [hscan] at h
    cases h
  | ok tokens =>
    rw [hscan] at h
    change ofTokens tokens = _
    rw [ofTokens, show tokens.foldlM State.step (.value []) = .ok (.done v) from h]
    rfl

/-- The text of a value is read as the value. -/
theorem Whole.parse_write {v : Value} (h : v.Whole) : Value.parse v.write = .ok v := by
  have hrun := h.readsBack (.value []) [] [] (awaits_value []) (fun _ hc => by cases hc)
  rw [List.append_nil, run_nil] at hrun
  exact parse_of_run hrun

end Value

end CestWriter.Json
