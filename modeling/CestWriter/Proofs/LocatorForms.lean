import CestWriter.Proofs.Cuts
import CestWriter.Proofs.InterpolatedText
import CestWriter.Proofs.LiteralReading

/-!
# The two forms of a locator

A locator is read once, and its strict form and its driver form are written from what was read. Both
hold the same literal of the selector, in front of which they name the strategy. No two strategies
have one name there and the literal ends where it should, so a form tells strategy and selector.
-/

namespace CestWriter

/-- The names that a strategy has in locators. -/
def Strategy.names : Strategy → List String
  | .id => ["id"]
  | .name => ["name"]
  | .css => ["css"]
  | .xpath => ["xpath"]
  | .linkText => ["link", "linkText"]
  | .partialLinkText => ["partialLinkText"]

namespace Strategy

theorem ofName?_eq_some_iff {name : String} {strategy : Strategy} :
    ofName? name = some strategy ↔ name ∈ strategy.names := by
  constructor
  · intro h
    unfold ofName? at h
    grind [names]
  · have hnames : ∀ name ∈ strategy.names, ofName? name = some strategy := by
      cases strategy <;> decide
    exact hnames name

theorem ofName?_eq_none_iff {name : String} :
    ofName? name = none ↔ ∀ strategy : Strategy, name ∉ strategy.names := by
  rw [Option.eq_none_iff_forall_ne_some]
  simp only [ne_eq, ofName?_eq_some_iff]

/-- No name of a strategy holds an equals sign or begins with a slash. -/
theorem equals_not_mem_names (strategy : Strategy) :
    ∀ name ∈ strategy.names, '=' ∉ name.toList ∧ name.toList.head? ≠ some '/' := by
  cases strategy <;> decide

/-- No two strategies have one key in the strict form. -/
theorem eq_of_strictKey? {strategy other : Strategy} {key : String}
    (h : strategy.strictKey? = some key) (h' : other.strictKey? = some key) :
    strategy = other := by
  have hkeys : strategy.strictKey? = other.strictKey? → strategy.strictKey? ≠ none →
      strategy = other := by
    cases strategy <;> cases other <;> decide
  apply hkeys (h.trans h'.symm)
  rw [h]
  exact Option.some_ne_none key

theorem strictKey?_eq_none_iff {strategy : Strategy} :
    strategy.strictKey? = none ↔ strategy = .partialLinkText := by
  cases strategy <;> decide

theorem quote_not_mem_strictKey? (strategy : Strategy) :
    ∀ key ∈ strategy.strictKey?, '"' ∉ key.toList := by
  cases strategy <;> decide

/-- No two strategies have one constructor in the driver form. -/
theorem driverMethod_injective : Function.Injective driverMethod := by
  intro strategy other
  cases strategy <;> cases other <;> decide

theorem bracket_not_mem_driverMethod (strategy : Strategy) :
    '(' ∉ strategy.driverMethod.toList := by
  cases strategy <;> decide

end Strategy

namespace Locator

/-! ## Reading -/

/-- What a locator says: one that begins with two slashes is an XPath as a whole, any other names a
strategy before its first equals sign. -/
inductive Denotes : String → Locator → Prop
  | path (rest : String) : Denotes ("//" ++ rest) ⟨.xpath, "//" ++ rest⟩
  | named {strategy : Strategy} {name : String} (h : name ∈ strategy.names) (selector : String) :
    Denotes (name ++ "=" ++ selector) ⟨strategy, selector⟩

/-- Why a locator that does not begin with two slashes says nothing: it has no equals sign, or what
stands before the first one names no strategy. -/
inductive Lacks : String → LocatorFault → Prop
  | mark {s : String} (h : '=' ∉ s.toList) : Lacks s (.shapeless s)
  | strategy {name : String} (hmark : '=' ∉ name.toList)
    (hname : ∀ strategy : Strategy, name ∉ strategy.names) (selector : String) :
    Lacks (name ++ "=" ++ selector) (.unknownStrategy name)

/-- Every locator says something, or lacks something and does not begin with two slashes. -/
theorem denotes_or_lacks (s : String) :
    (∃ l, Denotes s l) ∨ (¬ ∃ rest, s = "//" ++ rest) ∧ ∃ fault, Lacks s fault := by
  by_cases hpath : ∃ rest, s = "//" ++ rest
  · obtain ⟨rest, rfl⟩ := hpath
    exact .inl ⟨_, .path rest⟩
  by_cases hmark : '=' ∈ s.toList
  · obtain ⟨before, after, hchars, hbefore⟩ := List.eq_append_cons_of_mem hmark
    obtain rfl : s = String.ofList before ++ "=" ++ String.ofList after := by
      apply String.toList_injective
      simp [hchars]
    by_cases hname : ∃ strategy : Strategy, String.ofList before ∈ strategy.names
    · obtain ⟨strategy, hname⟩ := hname
      exact .inl ⟨_, .named hname _⟩
    · refine .inr ⟨hpath, _, .strategy ?_ (not_exists.mp hname) _⟩
      rw [String.toList_ofList]
      exact hbefore
  · exact .inr ⟨hpath, _, .mark hmark⟩

theorem startsWith_eq_false {s : String} (h : ¬ ∃ rest, s = "//" ++ rest) :
    Text.startsWith "//" s = false := by
  rw [← Bool.not_eq_true, Text.startsWith_iff]
  exact h

theorem parse_of_denotes {s : String} {l : Locator} (h : Denotes s l) : parse s = .ok l := by
  cases h with
  | path rest => exact if_pos (Text.startsWith_iff.mpr ⟨rest, rfl⟩)
  | @named strategy name hname selector =>
    obtain ⟨hmark, hhead⟩ := strategy.equals_not_mem_names name hname
    have hpath : ¬ ∃ rest, name ++ "=" ++ selector = "//" ++ rest := by
      rintro ⟨rest, heq⟩
      have hchars : name.toList ++ '=' :: selector.toList = '/' :: '/' :: rest.toList := by
        simpa using congrArg String.toList heq
      cases hletters : name.toList with
      | nil => simp [hletters] at hchars
      | cons c cs => simp_all
    have hsplit : Text.splitFirst '=' (name ++ "=" ++ selector) = some (name, selector) :=
      Text.splitFirst_append hmark selector
    simp [parse, startsWith_eq_false hpath, hsplit, Strategy.ofName?_eq_some_iff.mpr hname]

theorem parse_of_lacks {s : String} {fault : LocatorFault} (hpath : ¬ ∃ rest, s = "//" ++ rest)
    (h : Lacks s fault) : parse s = .error fault := by
  cases h with
  | mark hmark =>
    simp [parse, startsWith_eq_false hpath, Text.splitFirst_eq_none_iff.mpr hmark]
  | @strategy name hmark hname selector =>
    have hsplit : Text.splitFirst '=' (name ++ "=" ++ selector) = some (name, selector) :=
      Text.splitFirst_append hmark selector
    simp [parse, startsWith_eq_false hpath, hsplit, Strategy.ofName?_eq_none_iff.mpr hname]

theorem parse_eq_ok_iff {s : String} {l : Locator} : parse s = .ok l ↔ Denotes s l := by
  refine ⟨fun h => ?_, parse_of_denotes⟩
  obtain ⟨m, hdenotes⟩ | ⟨hpath, fault, hlacks⟩ := denotes_or_lacks s
  · rw [parse_of_denotes hdenotes] at h
    exact Except.ok.inj h ▸ hdenotes
  · rw [parse_of_lacks hpath hlacks] at h
    cases h

theorem parse_eq_error_iff {s : String} {fault : LocatorFault} :
    parse s = .error fault ↔ (¬ ∃ rest, s = "//" ++ rest) ∧ Lacks s fault := by
  refine ⟨fun h => ?_, fun h => parse_of_lacks h.1 h.2⟩
  obtain ⟨l, hdenotes⟩ | ⟨hpath, other, hlacks⟩ := denotes_or_lacks s
  · rw [parse_of_denotes hdenotes] at h
    cases h
  · rw [parse_of_lacks hpath hlacks] at h
    exact ⟨hpath, Except.error.inj h ▸ hlacks⟩

/-! ## Writing -/

theorem strict_of_parse_error {s : String} {fault : LocatorFault} (h : parse s = .error fault) :
    strict s = .error fault := by
  rw [strict, h]
  rfl

theorem driver_of_parse_error {s : String} {fault : LocatorFault} (h : parse s = .error fault) :
    driver s = .error fault := by
  rw [driver, h]
  rfl

theorem strict_of_strictKey? {s key : String} {l : Locator} (h : parse s = .ok l)
    (hkey : l.strategy.strictKey? = some key) :
    strict s = .ok ("[\"" ++ key ++ "\" => " ++ Literal.text l.selector ++ "]") := by
  rw [strict, h]
  simp only [bind, Except.bind, hkey]
  rfl

theorem strict_of_partialLinkText {s : String} {l : Locator} (h : parse s = .ok l)
    (hpartial : l.strategy = .partialLinkText) : strict s = .error (.noStrictForm s) := by
  rw [strict, h]
  simp only [bind, Except.bind, Strategy.strictKey?_eq_none_iff.mpr hpartial]
  rfl

/-- What the strict form of a locator is that can be read. -/
theorem strict_cases {s : String} {l : Locator} (h : parse s = .ok l) :
    l.strategy = .partialLinkText ∧ strict s = .error (.noStrictForm s) ∨
      ∃ key, l.strategy.strictKey? = some key ∧
        strict s = .ok ("[\"" ++ key ++ "\" => " ++ Literal.text l.selector ++ "]") := by
  cases hkey : l.strategy.strictKey? with
  | none =>
    have hpartial := Strategy.strictKey?_eq_none_iff.mp hkey
    exact .inl ⟨hpartial, strict_of_partialLinkText h hpartial⟩
  | some key => exact .inr ⟨key, rfl, strict_of_strictKey? h hkey⟩

theorem driver_of_parse_ok {s : String} {l : Locator} (h : parse s = .ok l) :
    driver s = .ok ("\\Facebook\\WebDriver\\WebDriverBy::" ++ l.strategy.driverMethod ++ "(" ++
      Literal.text l.selector ++ ")") := by
  rw [driver, h]
  rfl

/-- A text with a key and a literal in it tells both, if the key does not hold the mark that follows
it. -/
theorem eq_of_keyed_literal {start middle finish key other a b : String} {mark : Char}
    {more : List Char} (hmiddle : middle.toList = mark :: more) (hkey : mark ∉ key.toList)
    (hother : mark ∉ other.toList)
    (h : start ++ key ++ middle ++ Literal.quote a ++ finish =
      start ++ other ++ middle ++ Literal.quote b ++ finish) :
    key = other ∧ a = b := by
  have hchars := congrArg String.toList h
  simp only [String.toList_append, hmiddle, List.append_assoc, List.cons_append,
    List.append_cancel_left_eq] at hchars
  have hkeys : key.toList = other.toList := Text.eq_of_append_mark hkey hother hchars
  refine ⟨String.toList_injective hkeys, ?_⟩
  rw [hkeys, List.append_cancel_left_eq, List.cons.injEq, List.append_cancel_left_eq,
    ← String.toList_append, ← String.toList_append] at hchars
  have hread := Literal.readLiteral_quote a finish
  rw [String.toList_injective hchars.2, Literal.readLiteral_quote] at hread
  exact (Prod.mk.inj (Option.some.inj hread)).1.symm

/-- The locators have one strategy, and their selectors are the same once the variables are written
in. -/
def Alike (l m : Locator) : Prop :=
  l.strategy = m.strategy ∧ Text.interpolate l.selector = Text.interpolate m.selector

theorem strict_eq_of_alike {s t : String} {l m : Locator} (hs : parse s = .ok l)
    (ht : parse t = .ok m) (h : l.Alike m) (hpartial : l.strategy = .partialLinkText → s = t) :
    strict s = strict t := by
  obtain ⟨hstrategies, hselectors⟩ := h
  rcases strict_cases hs with ⟨hstrategy, -⟩ | ⟨key, hkey, hfirst⟩
  · rw [hpartial hstrategy]
  · rw [hfirst, strict_of_strictKey? ht (hstrategies ▸ hkey), Literal.text, Literal.text,
      hselectors]

theorem alike_of_strict_eq {s t : String} {l m : Locator} (hs : parse s = .ok l)
    (ht : parse t = .ok m) (h : strict s = strict t) :
    l.Alike m ∧ (l.strategy = .partialLinkText → s = t) := by
  rcases strict_cases hs with ⟨-, hfirst⟩ | ⟨key, hkey, hfirst⟩
  · rcases strict_cases ht with ⟨-, hsecond⟩ | ⟨other, -, hsecond⟩
    · -- each fault names its own locator
      rw [hfirst, hsecond] at h
      cases h
      obtain rfl : l = m := Except.ok.inj (hs.symm.trans ht)
      exact ⟨⟨rfl, rfl⟩, fun _ => rfl⟩
    · rw [hfirst, hsecond] at h
      cases h
  · rcases strict_cases ht with ⟨-, hsecond⟩ | ⟨other, hother, hsecond⟩
    · rw [hfirst, hsecond] at h
      cases h
    · rw [hfirst, hsecond] at h
      obtain ⟨rfl, hselectors⟩ := eq_of_keyed_literal rfl
        (l.strategy.quote_not_mem_strictKey? key hkey)
        (m.strategy.quote_not_mem_strictKey? other hother) (Except.ok.inj h)
      refine ⟨⟨Strategy.eq_of_strictKey? hkey hother, hselectors⟩, fun hpartial => ?_⟩
      rw [Strategy.strictKey?_eq_none_iff.mpr hpartial] at hkey
      cases hkey

theorem driver_eq_driver_iff {s t : String} {l m : Locator} (hs : parse s = .ok l)
    (ht : parse t = .ok m) : driver s = driver t ↔ l.Alike m := by
  rw [driver_of_parse_ok hs, driver_of_parse_ok ht]
  constructor
  · intro h
    obtain ⟨hmethods, hselectors⟩ := eq_of_keyed_literal rfl
      l.strategy.bracket_not_mem_driverMethod m.strategy.bracket_not_mem_driverMethod
      (Except.ok.inj h)
    exact ⟨Strategy.driverMethod_injective hmethods, hselectors⟩
  · rintro ⟨hstrategies, hselectors⟩
    rw [hstrategies, Literal.text, Literal.text, hselectors]

/-! ## Equal results -/

/-- Reading a locator does not ask whether it has a strict form. -/
theorem parse_ne_noStrictForm (s t : String) : parse s ≠ .error (.noStrictForm t) := by
  intro h
  cases (parse_eq_error_iff.mp h).2

/-- Two locators have equal results if both are read and written alike, or if neither can be read
for the same reason. The faults of writing are not those of reading. -/
theorem form_eq_form_iff {form : String → Except LocatorFault String}
    (herror : ∀ s fault, parse s = .error fault → form s = .error fault)
    (hok : ∀ s l fault, parse s = .ok l → form s = .error fault → fault = .noStrictForm s)
    {s t : String} {Same : Locator → Locator → Prop}
    (hsame : ∀ l m, parse s = .ok l → parse t = .ok m → (form s = form t ↔ Same l m)) :
    form s = form t ↔ (∃ l m, parse s = .ok l ∧ parse t = .ok m ∧ Same l m) ∨
      ∃ fault, parse s = .error fault ∧ parse t = .error fault := by
  cases hs : parse s with
  | error fault =>
    rw [herror s fault hs]
    cases ht : parse t with
    | error other => simp [herror t other ht, eq_comm]
    | ok m =>
      have hne : form t ≠ .error fault := fun h =>
        parse_ne_noStrictForm s t (hok t m fault ht h ▸ hs)
      simp [hne.symm]
  | ok l =>
    cases ht : parse t with
    | error other =>
      have hne : form s ≠ .error other := fun h =>
        parse_ne_noStrictForm t s (hok s l other hs h ▸ ht)
      simp [herror t other ht, hne]
    | ok m => simp [hsame l m hs ht]

theorem eq_noStrictForm_of_strict {s : String} {l : Locator} {fault : LocatorFault}
    (h : parse s = .ok l) (hfault : strict s = .error fault) : fault = .noStrictForm s := by
  rcases strict_cases h with ⟨-, hstrict⟩ | ⟨key, -, hstrict⟩
  · rw [hstrict] at hfault
    exact (Except.error.inj hfault).symm
  · rw [hstrict] at hfault
    cases hfault

theorem strict_eq_iff (s t : String) :
    strict s = strict t ↔
      (∃ l m, parse s = .ok l ∧ parse t = .ok m ∧
        l.Alike m ∧ (l.strategy = .partialLinkText → s = t)) ∨
      ∃ fault, parse s = .error fault ∧ parse t = .error fault := by
  refine form_eq_form_iff (fun _ _ => strict_of_parse_error)
    (fun _ _ _ => eq_noStrictForm_of_strict) fun l m hs ht => ?_
  exact ⟨alike_of_strict_eq hs ht, fun h => strict_eq_of_alike hs ht h.1 h.2⟩

theorem driver_eq_iff (s t : String) :
    driver s = driver t ↔
      (∃ l m, parse s = .ok l ∧ parse t = .ok m ∧ l.Alike m) ∨
      ∃ fault, parse s = .error fault ∧ parse t = .error fault := by
  refine form_eq_form_iff (fun _ _ => driver_of_parse_error) (fun u l fault hu hdriver => ?_)
    fun l m hs ht => driver_eq_driver_iff hs ht
  rw [driver_of_parse_ok hu] at hdriver
  cases hdriver

theorem mapError_locator_eq_iff {x y : Except LocatorFault String} :
    x.mapError Error.locator = y.mapError Error.locator ↔ x = y := by
  cases x <;> cases y <;> simp [Except.mapError]

end Locator

/-- No two faults have one wording, so equal errors are those with equal texts. -/
theorem LocatorFault.message_injective : Function.Injective message := by
  intro fault other h
  have hchars := congrArg String.toList h
  cases fault <;> cases other <;> simp [message, String.join] at hchars ⊢ <;>
    exact String.toList_injective hchars

namespace Locator

/-- The form holds the literal of the selector. -/
def Holds (form : String) (l : Locator) : Prop :=
  (Literal.quote (Text.interpolate l.selector)).toList <:+: form.toList

theorem holds_append (before : String) (l : Locator) (after : String) :
    Holds (before ++ Literal.text l.selector ++ after) l := by
  rw [Holds, String.toList_append, String.toList_append]
  exact List.infix_append _ _ _

/-- The two forms of a locator agree. The locators that cannot be read are those that do not begin
with two slashes and have no equals sign, or no strategy in front of the first one; both forms fail
for them, with the error of reading. A locator that can be read has a driver form, and a strict form
unless its strategy is that of partial link texts, and both hold the literal of the selector. Two
locators have equal forms exactly if they have one strategy and the same selector once variables are
written in. Where the form is missing, the errors are compared: that for a partial link text names
the locator, and that for a locator that cannot be read is the error of reading. -/
theorem forms_agree :
    (∀ s fault, parse s = .error fault ↔ (¬ ∃ rest, s = "//" ++ rest) ∧ Lacks s fault) ∧
    (∀ s l, parse s = .ok l ↔ Denotes s l) ∧
    (∀ s fault, parse s = .error fault →
      Resolver.standard.strict s = .error (.locator fault) ∧
        Resolver.standard.driver s = .error (.locator fault)) ∧
    (∀ s l, parse s = .ok l →
      (∃ form, Resolver.standard.driver s = .ok form ∧ Holds form l) ∧
      (l.strategy ≠ .partialLinkText →
        ∃ form, Resolver.standard.strict s = .ok form ∧ Holds form l) ∧
      (l.strategy = .partialLinkText →
        Resolver.standard.strict s = .error (.locator (.noStrictForm s)))) ∧
    (∀ s t, Resolver.standard.strict s = Resolver.standard.strict t ↔
      (∃ l m, parse s = .ok l ∧ parse t = .ok m ∧
        l.Alike m ∧ (l.strategy = .partialLinkText → s = t)) ∨
      ∃ fault, parse s = .error fault ∧ parse t = .error fault) ∧
    (∀ s t, Resolver.standard.driver s = Resolver.standard.driver t ↔
      (∃ l m, parse s = .ok l ∧ parse t = .ok m ∧ l.Alike m) ∨
      ∃ fault, parse s = .error fault ∧ parse t = .error fault) ∧
    Function.Injective LocatorFault.message := by
  refine ⟨fun _ _ => parse_eq_error_iff, fun _ _ => parse_eq_ok_iff, ?_, ?_,
    fun s t => mapError_locator_eq_iff.trans (strict_eq_iff s t),
    fun s t => mapError_locator_eq_iff.trans (driver_eq_iff s t), LocatorFault.message_injective⟩
  · intro s fault h
    simp only [Resolver.standard, strict_of_parse_error h, driver_of_parse_error h]
    exact ⟨rfl, rfl⟩
  · intro s l h
    simp only [Resolver.standard]
    refine ⟨⟨_, congrArg (Except.mapError Error.locator) (driver_of_parse_ok h),
      holds_append _ l _⟩, fun hother => ?_, fun hpartial => ?_⟩
    · rcases strict_cases h with ⟨hpartial, -⟩ | ⟨key, -, hstrict⟩
      · exact absurd hpartial hother
      · exact ⟨_, congrArg (Except.mapError Error.locator) hstrict, holds_append _ l _⟩
    · rw [strict_of_partialLinkText h hpartial]
      rfl

/-- An XPath with and without the name of its strategy have equal forms, and a strategy that is not
known has neither form. -/
theorem forms_agree_samples :
    parse "//a" = .ok ⟨.xpath, "//a"⟩ ∧ parse "xpath=//a" = .ok ⟨.xpath, "//a"⟩ ∧
    Resolver.standard.strict "//a" = Resolver.standard.strict "xpath=//a" ∧
    Resolver.standard.driver "//a" = Resolver.standard.driver "xpath=//a" ∧
    (∃ form, Resolver.standard.strict "//a" = .ok form ∧ Holds form ⟨.xpath, "//a"⟩) ∧
    parse "jquery=//a" = .error (.unknownStrategy "jquery") ∧
    Resolver.standard.strict "jquery=//a" = .error (.locator (.unknownStrategy "jquery")) ∧
    parse "partialLinkText=a" = .ok ⟨.partialLinkText, "a"⟩ ∧
    Resolver.standard.strict "partialLinkText=a" =
      .error (.locator (.noStrictForm "partialLinkText=a")) := by
  have hbare : parse "//a" = .ok ⟨.xpath, "//a"⟩ := rfl
  have hnamed : parse "xpath=//a" = .ok ⟨.xpath, "//a"⟩ := rfl
  have hunknown : parse "jquery=//a" = .error (.unknownStrategy "jquery") := rfl
  have hpartial : parse "partialLinkText=a" = .ok ⟨.partialLinkText, "a"⟩ := rfl
  obtain ⟨-, -, herror, hok, hstrict, hdriver, -⟩ := forms_agree
  refine ⟨hbare, hnamed, (hstrict _ _).mpr (.inl ⟨_, _, hbare, hnamed, ⟨rfl, rfl⟩, ?_⟩),
    (hdriver _ _).mpr (.inl ⟨_, _, hbare, hnamed, rfl, rfl⟩), (hok _ _ hbare).2.1 (by decide),
    hunknown, (herror _ _ hunknown).1, hpartial, (hok _ _ hpartial).2.2 rfl⟩
  intro h
  cases h

/-- The sign of a variable in a partial link text, written as a reference and as it is read. -/
theorem interpolate_partialLinkTexts :
    Text.interpolate "$\x7ba\x7d" = Text.interpolate "$a" := by
  have hreference : Text.reference? "$\x7ba\x7d".toList = some (['a'], []) := by decide
  have hwritten : Text.interpolate "$\x7ba\x7d" = "$a" := by
    rw [Text.interpolate, Text.Piece.decompose_of_reference hreference, Text.decompose]
    decide
  calc Text.interpolate "$\x7ba\x7d"
      = Text.interpolate (Text.interpolate "$\x7ba\x7d") := (Text.interpolate_interpolate _).symm
    _ = Text.interpolate "$a" := by rw [hwritten]

/-- Locators with equal results need not be alike, nor the other way round. Two partial link texts
that are alike have different strict results, since each error names its own locator; two locators
that cannot be read have equal results, although they say nothing. -/
theorem equal_results_not_iff_alike :
    (∃ l m, parse "partialLinkText=$\x7ba\x7d" = .ok l ∧ parse "partialLinkText=$a" = .ok m ∧
      l.Alike m ∧
      Resolver.standard.strict "partialLinkText=$\x7ba\x7d" ≠
        Resolver.standard.strict "partialLinkText=$a") ∧
    Resolver.standard.strict "jquery=#x" = Resolver.standard.strict "jquery=#y" ∧
    Resolver.standard.driver "jquery=#x" = Resolver.standard.driver "jquery=#y" ∧
    ¬ ∃ l m, parse "jquery=#x" = .ok l ∧ parse "jquery=#y" = .ok m ∧ l.Alike m := by
  have hs : parse "partialLinkText=$\x7ba\x7d" = .ok ⟨.partialLinkText, "$\x7ba\x7d"⟩ := rfl
  have ht : parse "partialLinkText=$a" = .ok ⟨.partialLinkText, "$a"⟩ := rfl
  have hx : parse "jquery=#x" = .error (.unknownStrategy "jquery") := rfl
  have hy : parse "jquery=#y" = .error (.unknownStrategy "jquery") := rfl
  refine ⟨⟨_, _, hs, ht, ⟨rfl, interpolate_partialLinkTexts⟩, ?_⟩,
    mapError_locator_eq_iff.mpr ((strict_eq_iff _ _).mpr (.inr ⟨_, hx, hy⟩)),
    mapError_locator_eq_iff.mpr ((driver_eq_iff _ _).mpr (.inr ⟨_, hx, hy⟩)), ?_⟩
  · intro h
    have hsame := (alike_of_strict_eq hs ht (mapError_locator_eq_iff.mp h)).2 rfl
    exact absurd hsame (by decide)
  · rintro ⟨l, m, hread, -⟩
    rw [hx] at hread
    cases hread

end Locator

end CestWriter
