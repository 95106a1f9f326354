import CestWriter.Proofs.BracedEmission

/-!
# The standard vocabulary keeps to the braces

For a command whose texts are tidy, every emitter of the standard vocabulary gives an emission whose
levels follow the braces. Only the standard forms of locators are considered.
-/

namespace CestWriter.Braces

open Vocabulary

/-- In all texts of the command braces stand only as parts of references. -/
structure TidyCommand (c : Command) : Prop where
  name : Tidy c.name.toList
  comment : Tidy c.comment.toList
  target : Tidy c.targetText.toList
  value : Tidy c.valueText.toList
  windowHandleName : Tidy c.windowHandleName.toList

/-- If there is a result, it has the property. -/
def Yields {α : Type} (P : α → Prop) (result : Except Error α) : Prop :=
  ∀ a, result = .ok a → P a

/-- For tidy commands and the standard forms of locators, the emissions keep to the braces. -/
def IsBraced (emitter : Emitter) : Prop :=
  ∀ ctx c, ctx.resolver = .standard → TidyCommand c → Yields Braced (emitter ctx c)

section Yields

variable {α β : Type} {P : α → Prop} {Q : β → Prop}

theorem yields_ok {a : α} (h : P a) : Yields P (.ok a) := by
  intro a' ha
  cases ha
  exact h

theorem yields_error (error : Error) : Yields P (.error error) := by
  intro a ha
  cases ha

theorem Yields.bind {x : Except Error α} (hx : Yields P x) {f : α → Except Error β}
    (hf : ∀ a, P a → Yields Q (f a)) : Yields Q (x >>= f) := by
  cases x with
  | error error => exact yields_error error
  | ok a => exact hf a (hx a rfl)

end Yields

/-! ## Calls of an actor method -/

theorem flat_call {method arguments : String} (hmethod : net method = 0)
    (harguments : net arguments = 0) : Flat (call method arguments) :=
  (((show Flat "$I->" by decide).append hmethod).append (by decide)).append harguments
    |>.append (by decide)

theorem braced_callStatement {method arguments : String} (hmethod : net method = 0)
    (harguments : net arguments = 0) : Braced (callStatement method arguments) :=
  braced_statement ((flat_call hmethod harguments).append (by decide))

theorem eq_ok_of_mapError {α ε : Type} {x : Except ε α} {f : ε → Error} {a : α}
    (h : x.mapError f = .ok a) : x = .ok a := by
  cases x with
  | error fault => cases h
  | ok found =>
    cases h
    rfl

section Locators

variable {ctx : Context} (hctx : ctx.resolver = .standard) {target : String}
  (htarget : Tidy target.toList)

include hctx htarget

theorem yields_strict : Yields (net · = 0) (ctx.resolver.strict target) := by
  intro form hform
  rw [hctx] at hform
  exact htarget.net_strict (eq_ok_of_mapError hform)

theorem yields_driver : Yields (net · = 0) (ctx.resolver.driver target) := by
  intro form hform
  rw [hctx] at hform
  exact htarget.net_driver (eq_ok_of_mapError hform)

theorem yields_elementArguments {value : String} (hvalue : net value = 0) :
    Yields (net · = 0) (elementArguments ctx target value) := by
  unfold elementArguments
  split
  · exact yields_ok hvalue
  · refine (yields_strict hctx htarget).bind fun locator hlocator => yields_ok ?_
    split
    · exact hlocator
    · exact net_append_eq_zero (net_append_eq_zero hlocator (by decide)) hvalue

theorem yields_callOn {method value : String} (hmethod : net method = 0) (hvalue : net value = 0) :
    Yields Flat (callOn ctx method target value) :=
  (yields_elementArguments hctx htarget hvalue).bind fun _ harguments =>
    yields_ok (flat_call hmethod harguments)

theorem yields_onElement {method value : String} (hmethod : net method = 0)
    (hvalue : net value = 0) : Yields Braced (onElement method ctx target value) :=
  (yields_callOn hctx htarget hmethod hvalue).bind fun _ hcall =>
    yields_ok (braced_statement (hcall.append (by decide)))

end Locators

theorem noBinding (name : String) (h : none = some name) : net name = 0 := by
  cases h

theorem yields_onDriver {ctx : Context} {c : Command} (hctx : ctx.resolver = .standard)
    (hc : TidyCommand c) {body : String → List String}
    (hbody : ∀ element, net element = 0 → ∀ s ∈ body element, Flat s) :
    Yields Braced (onDriver body ctx c) :=
  (yields_driver hctx hc.target).bind fun element helement =>
    yields_ok (braced_callback (hbody element helement) noBinding)

theorem isBraced_skip : IsBraced skip :=
  fun _ _ _ _ => yields_ok braced_nothing

@[simp] theorem isBraced_targetCall {method : String} (hmethod : net method = 0) :
    IsBraced (targetCall method) :=
  fun _ _ hctx hc => yields_onElement hctx hc.target hmethod (by decide)

@[simp] theorem isBraced_targetAndTextCall {method : String} (hmethod : net method = 0) :
    IsBraced (targetAndTextCall method) :=
  fun _ _ hctx hc => yields_onElement hctx hc.target hmethod hc.value.net_text

@[simp] theorem isBraced_textCall {method : String} (hmethod : net method = 0) :
    IsBraced (textCall method) :=
  fun _ _ _ hc => yields_ok (braced_callStatement hmethod hc.target.net_text)

@[simp] theorem isBraced_bareCall {method : String} (hmethod : net method = 0) :
    IsBraced (bareCall method) :=
  fun _ _ _ _ => yields_ok (braced_callStatement hmethod (by decide))

/-! ## Control flow -/

theorem flat_condition {c : Command} (hc : TidyCommand c) : Flat (condition c) :=
  flat_call (by decide) (hc.target.even_ofRecorded.net_callArguments (by decide))

theorem net_collectionName {c : Command} (hc : TidyCommand c) : net (collectionName c) = 0 := by
  obtain ⟨hopen, hclose⟩ := (tidy_iff _).mp hc.target
  rw [collectionName, net_ofList, Text.interpolate, String.toList_ofList]
  exact netOf_eq_zero (fun hmem => hopen (List.mem_filter.mp hmem).1)
    (fun hmem => hclose (List.mem_filter.mp hmem).1)

/-- A line that opens a block keeps to the braces, whatever stands before it at the same level. -/
theorem follows_opening {s : String} (hleads : leads s = true) (hnet : net s = 1)
    {rest : List (Line × Bool)} (hrest : Follows 1 rest) :
    Follows 0 ((⟨0, s⟩, false) :: rest) := by
  refine ⟨?_, ?_⟩
  · rw [outdent_of_leads hleads]
    rfl
  · rw [hnet]
    exact hrest

theorem braced_forEach {c : Command} (hc : TidyCommand c) (depth : Nat) :
    Braced (.block (keywordLines c depth .forEach) 0 1) := by
  have hassign : Flat ("$collection_" ++ depth.repr ++ " = " ++
      Literal.variableOf (collectionName c) ++ ";") := by
    have hname : net (Literal.variableOf (collectionName c)) = 0 := by
      rw [net_variableOf, net_collectionName hc]
    exact (((Flat.append (by decide) (net_repr depth)).append (by decide)).append hname).append
      (by decide)
  have hfor : net ("for ($i_" ++ depth.repr ++ " = 0; $i_" ++ depth.repr ++
      " < count($collection_" ++ depth.repr ++ "); $i_" ++ depth.repr ++ "++) \x7b") = 1 := by
    simp only [net_append, net_repr]
    decide
  have helement : Flat (Literal.variableOf c.valueText ++ " = $collection_" ++ depth.repr ++
      "[$i_" ++ depth.repr ++ "];") := by
    have hname : Flat ("$" ++ c.valueText) := Flat.append (by decide) hc.value.net_eq_zero
    exact ((((hname.append (by decide)).append (net_repr depth)).append (by decide)).append
      (net_repr depth)).append (by decide)
  refine ⟨?_, ?_⟩
  · refine hassign.follows rfl (follows_opening ?_ hfor (helement.follows rfl trivial))
    iterate 8 apply leads_append
    decide
  · simp only [Emission.lines, keywordLines, netLines_cons, netLines_nil, hassign.2, hfor,
      helement.2, Emission.before, Emission.after]
    decide

theorem braced_times {c : Command} (hc : TidyCommand c) (depth : Nat) :
    Braced (.block (keywordLines c depth .times) 0 1) := by
  have hassign : Flat ("$times_" ++ depth.repr ++ " = " ++
      floorText (Text.interpolate c.targetText) ++ ";") :=
    (((Flat.append (by decide) (net_repr depth)).append (by decide)).append
      hc.target.interpolate.net_floorText).append (by decide)
  have hfor : net ("for ($i_" ++ depth.repr ++ " = 0; $i_" ++ depth.repr ++ " < $times_" ++
      depth.repr ++ "; $i_" ++ depth.repr ++ "++) \x7b") = 1 := by
    simp only [net_append, net_repr]
    decide
  refine ⟨?_, ?_⟩
  · refine hassign.follows rfl (follows_opening ?_ hfor trivial)
    iterate 8 apply leads_append
    decide
  · simp only [Emission.lines, keywordLines, netLines_cons, netLines_nil, hassign.2, hfor,
      Emission.before, Emission.after]
    decide

theorem braced_keyword {c : Command} (hc : TidyCommand c) (depth : Nat) (k : Keyword) :
    Braced (.block (keywordLines c depth k) k.before k.after) := by
  have hcondition := (flat_condition hc).2
  cases k with
  | doLoop => exact braced_line (by decide) (by decide)
  | elseThen => exact braced_line (by decide) (by decide)
  | endBlock => exact braced_line (by decide) (by decide)
  | forEach => exact braced_forEach hc depth
  | times => exact braced_times hc depth
  | ifThen | whileLoop =>
    refine braced_line ?_ ?_
    · rw [outdent_of_leads (leads_append (leads_append (by decide) _) _)]
      rfl
    · rw [net_append, net_append, hcondition]
      decide
  | elseIf | repeatIf =>
    refine braced_line ?_ ?_
    · rw [outdent_of_closes (closes_append (closes_append (by decide) _) _)]
      rfl
    · rw [net_append, net_append, hcondition]
      decide

theorem isBraced_controlFlow (k : Keyword) : IsBraced (controlFlow k) :=
  fun ctx _ _ hc => yields_ok (braced_keyword hc ctx.depth k)

/-! ## Acting on the page -/

theorem yields_optionLabel {c : Command} (hc : TidyCommand c) :
    Yields (fun label => Tidy label.toList) (optionLabel c) := by
  unfold optionLabel
  split
  · next first label rest hpieces =>
    apply yields_ok
    rw [String.toList_ofList]
    refine hc.value.of_mem_pieces isSeparator_equals ?_
    rw [hpieces]
    exact List.mem_cons_of_mem _ List.mem_cons_self
  · exact yields_error _

@[simp] theorem isBraced_optionCall {method : String} (hmethod : net method = 0) :
    IsBraced (optionCall method) :=
  fun _ _ hctx hc => (yields_optionLabel hc).bind fun _ hlabel =>
    yields_onElement hctx hc.target hmethod hlabel.net_text

@[simp] theorem isBraced_dragAndDrop : IsBraced dragAndDrop := by
  intro ctx c hctx hc
  refine (yields_strict hctx hc.target).bind fun dragged hdragged => ?_
  refine (yields_strict hctx hc.value).bind fun dropped hdropped => ?_
  exact yields_ok (braced_callStatement (by decide)
    (net_append_eq_zero (net_append_eq_zero hdragged (by decide)) hdropped))

/-- The braces of the script that replaces a content are closed on the same line. -/
theorem net_editScript {content : String} (h : net content = 0) : net (editScript content) = 0 := by
  have hquoted : netOf (Literal.singleQuote content).toList = 0 := by
    change net (Literal.singleQuote content) = 0
    rw [net_singleQuote, h]
  rw [editScript, net, String.toList_join]
  simp only [List.flatMap_cons, List.flatMap_nil, netOf_append, hquoted]
  decide

@[simp] theorem isBraced_editContent : IsBraced editContent := by
  intro ctx c hctx hc
  refine yields_onDriver hctx hc fun element helement s hs => ?_
  have hscript : net (Literal.quote (editScript (Text.interpolate c.valueText))) = 0 := by
    rw [net_quote, net_editScript hc.value.net_interpolate]
  rcases List.mem_cons.mp hs with rfl | hs
  · exact (Flat.append (by decide) helement).append (by decide)
  · rw [List.mem_singleton.mp hs]
    exact (Flat.append (by decide) hscript).append (by decide)

@[simp] theorem isBraced_mouseButton {method : String} (hmethod : net method = 0) :
    IsBraced (mouseButton method) := by
  intro ctx c hctx hc
  refine yields_onDriver hctx hc fun element helement s hs => ?_
  rcases List.mem_cons.mp hs with rfl | hs
  · exact (Flat.append (by decide) helement).append (by decide)
  · rw [List.mem_singleton.mp hs]
    exact (Flat.append (by decide) hmethod).append (by decide)

@[simp] theorem isBraced_mouseMoveAt : IsBraced mouseMoveAt := by
  intro ctx c hctx hc
  unfold mouseMoveAt
  split
  · exact isBraced_targetCall (by decide) ctx c hctx hc
  · split
    · exact yields_error _
    · next x y hsplit =>
      obtain ⟨hx, hy⟩ := hc.value.of_splitFirst (by decide) hsplit
      exact yields_onElement hctx hc.target (by decide)
        (net_append_eq_zero (net_append_eq_zero hx.net_floorText (by decide)) hy.net_floorText)

@[simp] theorem isBraced_mouseOut : IsBraced mouseOut :=
  fun _ _ _ _ => yields_ok (braced_callStatement (by decide) (by decide))

@[simp] theorem isBraced_openPage : IsBraced openPage := by
  intro ctx c hctx hc
  refine yields_ok (braced_callStatement ?_ hc.target.net_text)
  split
  · decide
  · decide

@[simp] theorem isBraced_pause : IsBraced pause :=
  fun _ _ _ hc => yields_ok (braced_callStatement (by decide) hc.target.net_floorText)

@[simp] theorem isBraced_run : IsBraced run :=
  fun _ c _ _ => yields_ok (braced_statement
    ((Flat.append (by decide) (net_method c.targetText)).append (by decide)))

@[simp] theorem isBraced_sendKeys : IsBraced sendKeys :=
  fun _ _ hctx hc => yields_onElement hctx hc.target (by decide) hc.value.net_keyArguments

@[simp] theorem isBraced_setSpeed : IsBraced setSpeed :=
  fun _ _ _ _ => yields_ok (braced_callStatement (by decide) (by decide))

/-- A size is cut at a letter, which may stand in a reference. Both parts go to the same line, so
the braces of the reference do too. -/
@[simp] theorem isBraced_setWindowSize : IsBraced setWindowSize := by
  intro ctx c hctx hc
  unfold setWindowSize
  split
  · exact yields_error _
  · next width height hsplit =>
    refine yields_ok (braced_callStatement (by decide) ?_)
    have hwhole : netOf c.targetText.toList = 0 := hc.target.net_eq_zero
    rw [Text.splitFirst_eq_some hsplit, netOf_append, netOf_cons (by decide) (by decide)] at hwhole
    rw [net_append, net_append, net_trimmed, net_trimmed, show net ", " = 0 by decide,
      Int.add_zero]
    exact hwhole

@[simp] theorem isBraced_echo : IsBraced echo := by
  intro ctx c hctx hc
  refine yields_ok (braced_callStatement (by decide) ?_)
  split
  · exact hc.target.net_interpolate
  · rw [net_quote, hc.target.net_interpolate]

@[simp] theorem isBraced_answerPrompt : IsBraced answerPrompt := by
  intro ctx c hctx hc
  have hanswer : Flat (call "typeInPopup" (Literal.text c.targetText) ++ ";") :=
    (flat_call (by decide) hc.target.net_text).append (by decide)
  have haccept : Flat (call "acceptPopup" "" ++ ";") := by decide
  refine yields_ok ⟨hanswer.follows rfl (haccept.follows rfl trivial), ?_⟩
  simp only [Emission.lines, netLines_cons, netLines_nil, hanswer.2, haccept.2, Emission.before,
    Emission.after]
  decide

/-! ## Frames and windows -/

@[simp] theorem isBraced_selectFrame : IsBraced selectFrame := by
  intro ctx c hctx hc
  unfold selectFrame
  split
  · refine yields_ok (braced_callback ?_ noBinding)
    decide
  · split
    · next index hindex =>
      have htidy : Tidy index.toList :=
        hc.target.of_after? (show "index=".toList = "index".toList ++ ['='] by decide)
          isSeparator_equals hindex
      refine yields_ok (braced_callback (fun s hs => ?_) noBinding)
      rw [List.mem_singleton.mp hs]
      exact (Flat.append (by decide) htidy.net_floorText).append (by decide)
    · refine yields_onDriver hctx hc fun element helement s hs => ?_
      rcases List.mem_cons.mp hs with rfl | hs
      · exact (Flat.append (by decide) helement).append (by decide)
      · rw [List.mem_singleton.mp hs]
        decide

theorem net_of_isWord64 {s : String} (h : isWord64 s = true) : net s = 0 := by
  simp only [isWord64, Bool.and_eq_true, List.all_eq_true] at h
  exact net_digits h.1.2

theorem yields_selectNumbered (index : String) : Yields Braced (selectNumbered index) := by
  simp only [selectNumbered]
  split
  · next hnumber =>
    refine yields_ok (braced_callback (fun s hs => ?_) noBinding)
    rcases List.mem_cons.mp hs with rfl | hs
    · decide
    · rw [List.mem_singleton.mp hs]
      exact (Flat.append (by decide) (net_of_isWord64 hnumber)).append (by decide)
  · exact yields_error _

theorem net_handleExpr {handle : String} (h : Tidy handle.toList) : net (handleExpr handle) = 0 := by
  simp only [handleExpr]
  split
  · exact h.net_interpolate
  · exact h.interpolate.net_text

@[simp] theorem isBraced_selectWindow : IsBraced selectWindow := by
  intro ctx c hctx hc
  unfold selectWindow
  split
  · next handle hhandle =>
    have htidy : Tidy handle.toList :=
      hc.target.of_after? (show "handle=".toList = "handle".toList ++ ['='] by decide)
        isSeparator_equals hhandle
    exact yields_ok (braced_callStatement (by decide) (net_handleExpr htidy))
  · split
    · next name hname =>
      have htidy : Tidy name.toList :=
        hc.target.of_after? (show "name=".toList = "name".toList ++ ['='] by decide)
          isSeparator_equals hname
      exact yields_ok (braced_callStatement (by decide) htidy.net_text)
    · split
      · exact yields_selectNumbered _
      · exact yields_error _

/-! ## Checking the page -/

@[simp] theorem isBraced_assertVariable : IsBraced assertVariable := by
  intro ctx c hctx hc
  have hname : net (Literal.variableOf c.targetText) = 0 := by
    rw [net_variableOf, hc.target.net_eq_zero]
  exact yields_ok (braced_callStatement (by decide)
    (net_append_eq_zero (net_append_eq_zero hname (by decide)) hc.value.net_value))

@[simp] theorem isBraced_assertEnabled {assertion : String} (h : net assertion = 0) :
    IsBraced (assertEnabled assertion) := by
  intro ctx c hctx hc
  refine yields_onDriver hctx hc fun element helement s hs => ?_
  rw [List.mem_singleton.mp hs]
  exact (((Flat.append (by decide) h).append (by decide)).append helement).append (by decide)

@[simp] theorem isBraced_textCheck {method : String} (hmethod : net method = 0) :
    IsBraced (textCheck method) := by
  intro ctx c hctx hc
  have harguments : Yields (net · = 0) (textArguments ctx c.targetText c.valueText) := by
    unfold textArguments
    split
    · exact yields_ok hc.value.net_eq_zero
    · refine (yields_strict hctx hc.target).bind fun locator hlocator => yields_ok ?_
      split
      · exact hlocator
      · exact net_append_eq_zero (net_append_eq_zero hc.value.net_text (by decide)) hlocator
  exact harguments.bind fun _ h => yields_ok (braced_callStatement hmethod h)

/-! ## Storing values and running scripts -/

theorem flat_assign {name expr : String} (hname : net name = 0) (hexpr : Flat expr) :
    Flat (Literal.assign name expr) := by
  unfold Literal.assign
  split
  · exact hexpr.append (by decide)
  · have hvariable : Flat ("$" ++ name) := Flat.append (by decide) hname
    exact ((hvariable.append (by decide)).append hexpr.2).append (by decide)

theorem Tidy.flat_text {s : String} (h : Tidy s.toList) : Flat (Literal.text s) :=
  ⟨leads_append (leads_append (by decide) _) _, h.net_text⟩

@[simp] theorem isBraced_store : IsBraced store :=
  fun _ _ _ hc => yields_ok (braced_statement
    (flat_assign hc.value.net_eq_zero hc.target.flat_text))

@[simp] theorem isBraced_storeAttribute : IsBraced storeAttribute := by
  intro ctx c hctx hc
  unfold storeAttribute
  split
  · exact yields_error _
  · next element name hsplit =>
    obtain ⟨helement, hname⟩ := hc.target.of_splitLast (by decide) hsplit
    refine (yields_callOn hctx helement (by decide) hname.net_text).bind fun grab hgrab => ?_
    have hfirst : Flat ("$attribute = " ++ grab ++ ";") :=
      (Flat.append (by decide) hgrab.2).append (by decide)
    have hsecond : Flat (Literal.assign c.valueText "$attribute") :=
      flat_assign hc.value.net_eq_zero (by decide)
    refine yields_ok ⟨?_, ?_⟩
    · exact follows_opening (by decide) (by decide)
        (hfirst.follows rfl (hsecond.follows rfl ⟨by decide, trivial⟩))
    · simp only [Emission.lines, netLines_cons, netLines_nil, hfirst.2, hsecond.2,
        Emission.before, Emission.after]
      decide

@[simp] theorem isBraced_storeJson : IsBraced storeJson := by
  intro ctx c hctx hc
  have hquoted : net (Literal.singleQuote c.targetText) = 0 := by
    rw [net_singleQuote, hc.target.net_eq_zero]
  exact yields_ok (braced_statement (flat_assign hc.value.net_eq_zero
    ((Flat.append (by decide) hquoted).append (by decide))))

@[simp] theorem isBraced_storeGrabbed {method : String} (hmethod : net method = 0) :
    IsBraced (storeGrabbed method) :=
  fun _ _ hctx hc => (yields_callOn hctx hc.target hmethod (by decide)).bind fun _ hcall =>
    yields_ok (braced_statement (flat_assign hc.value.net_eq_zero hcall))

@[simp] theorem isBraced_storeTitle : IsBraced storeTitle := by
  intro ctx c hctx hc
  refine yields_ok (braced_statement (flat_assign ?_ (by decide)))
  split
  · exact hc.target.net_eq_zero
  · exact hc.value.net_eq_zero

@[simp] theorem isBraced_storeWindowHandle : IsBraced storeWindowHandle := by
  intro ctx c hctx hc
  refine yields_ok (braced_callback (by decide) fun name hname => ?_)
  split at hname
  · cases hname
  · cases hname
    exact hc.target.net_eq_zero

@[simp] theorem isBraced_storeCount : IsBraced storeCount :=
  fun _ _ hctx hc => (yields_callOn hctx hc.target (by decide) (by decide)).bind fun _ hcall =>
    yields_ok (braced_statement (flat_assign hc.value.net_eq_zero
      ((Flat.append (by decide) hcall.2).append (by decide))))

@[simp] theorem isBraced_executeScript : IsBraced executeScript :=
  fun _ _ _ hc => yields_ok (braced_statement (flat_assign hc.value.net_eq_zero
    (flat_call (by decide) (hc.target.even_ofRecorded.net_callArguments (by decide)))))

theorem Even.asyncScript {script : Script} (h : Even script) : Even (asyncScript script) where
  body := by
    refine net_join fun part hpart => ?_
    simp only [List.mem_cons, List.not_mem_nil, or_false] at hpart
    rcases hpart with rfl | rfl | rfl
    · decide
    · exact h.body
    · decide
  names := h.names

@[simp] theorem isBraced_executeAsyncScript : IsBraced executeAsyncScript :=
  fun _ _ _ hc => yields_ok (braced_statement (flat_assign hc.value.net_eq_zero
    (flat_call (by decide) (hc.target.even_ofRecorded.asyncScript.net_callArguments (by decide)))))

@[simp] theorem isBraced_runScript : IsBraced runScript :=
  fun _ _ _ hc => yields_ok (braced_callStatement (by decide)
    (hc.target.even_ofRecorded.net_callArguments (by decide)))

/-! ## Waiting for the page -/

@[simp] theorem isBraced_waitFor {method : String} (hmethod : net method = 0) :
    IsBraced (waitFor method) :=
  fun _ _ hctx hc => yields_onElement hctx hc.target hmethod hc.value.net_floorText

theorem net_expectedCondition {name argument : String} (hname : net name = 0)
    (hargument : net argument = 0) : net (expectedCondition name argument) = 0 := by
  refine net_join fun part hpart => ?_
  simp only [List.mem_cons, List.not_mem_nil, or_false] at hpart
  rcases hpart with rfl | rfl | rfl | rfl | rfl
  · decide
  · exact hname
  · decide
  · exact hargument
  · decide

theorem isBraced_waitUntil {condition : String → String}
    (hcondition : ∀ element, net element = 0 → net (condition element) = 0) :
    IsBraced (waitUntil condition) := by
  intro ctx c hctx hc
  refine yields_onDriver hctx hc fun element helement s hs => ?_
  rw [List.mem_singleton.mp hs]
  exact (((Flat.append (by decide) hc.value.net_floorText).append (by decide)).append
    (hcondition element helement)).append (by decide)

@[simp] theorem isBraced_waitForText : IsBraced waitForText := by
  intro ctx c hctx hc
  refine (yields_strict hctx hc.target).bind fun locator hlocator => ?_
  refine yields_ok (braced_callStatement (by decide) ?_)
  simp only [net_append, hc.value.net_text, net_repr, hlocator]
  decide

/-! ## The whole vocabulary -/

theorem isBraced_of_mem_interactions : ∀ entry ∈ interactions, IsBraced entry.2 := by
  simp (disch := decide) [interactions, mouseMove]

theorem isBraced_of_mem_checks : ∀ entry ∈ checks, IsBraced entry.2 := by
  simp (disch := decide) [checks]

theorem isBraced_of_mem_dialogChecks : ∀ entry ∈ dialogChecks, IsBraced entry.2 := by
  simp (disch := decide) [dialogChecks]

theorem isBraced_of_mem_storing : ∀ entry ∈ storing, IsBraced entry.2 := by
  simp (disch := decide) [storing]

theorem isBraced_of_mem_waiting : ∀ entry ∈ waiting, IsBraced entry.2 := by
  have hclickable : ∀ element, net element = 0 →
      net (expectedCondition "elementToBeClickable" element) = 0 :=
    fun _ h => net_expectedCondition (by decide) h
  have hpresent : ∀ element, net element = 0 →
      net (expectedCondition "presenceOfElementLocated" element) = 0 :=
    fun _ h => net_expectedCondition (by decide) h
  have hnot : ∀ {condition : String → String},
      (∀ element, net element = 0 → net (condition element) = 0) →
      IsBraced (waitUntil fun element => expectedCondition "not" (condition element)) :=
    fun h => isBraced_waitUntil fun element helement =>
      net_expectedCondition (by decide) (h element helement)
  simp (disch := decide) [waiting, isBraced_waitUntil hclickable, hnot hclickable, hnot hpresent]

theorem isBraced_of_mem_standard {name : String} {emitter : Emitter}
    (h : (name, emitter) ∈ standard) : IsBraced emitter := by
  simp only [standard, List.mem_append, List.mem_map, Prod.mk.injEq] at h
  rcases h with ((((((h | h) | h) | h) | h) | h) | h) | h
  · obtain ⟨n, -, -, rfl⟩ := h
    exact isBraced_skip
  · obtain ⟨k, -, -, rfl⟩ := h
    exact isBraced_controlFlow k
  · exact isBraced_of_mem_interactions _ h
  · obtain ⟨entry, hentry, -, rfl⟩ := h
    exact isBraced_of_mem_checks _ hentry
  · obtain ⟨entry, hentry, -, rfl⟩ := h
    exact isBraced_of_mem_checks _ hentry
  · exact isBraced_of_mem_dialogChecks _ h
  · exact isBraced_of_mem_storing _ h
  · exact isBraced_of_mem_waiting _ h

/-- What the standard table emits for a tidy command keeps to the braces, unless a command of
control flow is to open a window. -/
theorem braced_of_emit {config : Config} {depth : Nat} {c : Command} {e : Emission}
    (hemit : (Table.standard config).emit depth c = .ok e) (hc : TidyCommand c)
    (hwindow : ∀ k : Keyword, c.name = k.name → c.opensWindow = false) : Braced e := by
  have hstandard : (Table.standard config).IsStandard := rfl
  rcases Table.mem_standard_or_unknown hstandard c with ⟨emitter, hmem⟩ | hunknown
  · have hfits := Table.fits_of_emit hstandard hemit
    rw [Table.emit_of_mem_standard hstandard hmem, map_eq_ok_iff] at hemit
    obtain ⟨inner, hinner, rfl⟩ := hemit
    have hbraced := isBraced_of_mem_standard hmem _ c rfl hc inner hinner
    cases hkeyword : Keyword.ofName? c.name with
    | some k =>
      rw [Vocabulary.withWindow, hwindow k (Keyword.ofName?_eq_some_iff.mp hkeyword)]
      exact hbraced
    | none =>
      refine hbraced.withWindow ?_ ?_ hc.windowHandleName.net_eq_zero _
      · rw [← withWindow_before, hfits.before_eq, Keyword.beforeOf_eq_zero hkeyword]
      · rw [← withWindow_after, hfits.after_eq, Keyword.afterOf_eq_zero hkeyword]
  · rw [hunknown] at hemit
    cases hemit

end CestWriter.Braces
