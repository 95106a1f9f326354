import CestWriter.Proofs.Braces
import CestWriter.Proofs.Parts

/-!
# Levels and braces within an emission

The levels of lines follow the braces when every line stands as deep as braces are open before it,
and one level less if it begins by closing one. Some lines are marked to stand one level less too.
The emissions of the standard vocabulary follow the braces, and they open as many braces in all as
they raise the level, as long as the texts of the command are tidy.
-/

namespace CestWriter.Braces

open Vocabulary

/-- Whether the text begins with a closing brace. -/
def closes (s : String) : Bool :=
  Text.startsWith "\x7d" s

/-- How much further left than the braces say a line stands. -/
def outdent (s : String) (marked : Bool) : Int :=
  if closes s || marked then 1 else 0

/-- How many braces the lines open, less those that they close. -/
def netLines (lines : List Line) : Int :=
  netOf (lines.flatMap fun l => l.statement.toList)

/-- The levels of lines, some of which are marked, follow the braces from a depth on. -/
def Follows : Int → List (Line × Bool) → Prop
  | _, [] => True
  | depth, (l, marked) :: rest =>
    (l.level : Int) = depth - outdent l.statement marked ∧ Follows (depth + net l.statement) rest

/-- The lines, none of which is marked. -/
def unmarked (lines : List Line) : List (Line × Bool) :=
  lines.map (·, false)

/-! ## Lines -/

@[simp] theorem netLines_nil : netLines [] = 0 := rfl

@[simp] theorem netLines_cons (l : Line) (lines : List Line) :
    netLines (l :: lines) = net l.statement + netLines lines := by
  rw [netLines, List.flatMap_cons, netOf_append]
  rfl

@[simp] theorem netLines_append (first second : List Line) :
    netLines (first ++ second) = netLines first + netLines second := by
  rw [netLines, List.flatMap_append, netOf_append]
  rfl

theorem netLines_shift (n : Nat) (lines : List Line) :
    netLines (lines.map (Line.shift n)) = netLines lines := by
  rw [netLines, List.flatMap_map]
  rfl

theorem unmarked_append (first second : List Line) :
    unmarked (first ++ second) = unmarked first ++ unmarked second :=
  List.map_append

@[simp] theorem map_fst_pair (lines : List Line) (mark : Bool) :
    (lines.map (·, mark)).map Prod.fst = lines := by
  rw [List.map_map]
  exact List.map_id lines

@[simp] theorem map_fst_unmarked (lines : List Line) : (unmarked lines).map Prod.fst = lines :=
  map_fst_pair lines false

theorem follows_append {depth : Int} {first second : List (Line × Bool)} :
    Follows depth (first ++ second) ↔
      Follows depth first ∧ Follows (depth + netLines (first.map Prod.fst)) second := by
  induction first generalizing depth with
  | nil => simp [Follows]
  | cons entry first ih =>
    obtain ⟨l, marked⟩ := entry
    rw [List.cons_append, Follows, Follows, ih, List.map_cons, netLines_cons, Int.add_assoc,
      and_assoc]

theorem Follows.shift {depth : Int} {lines : List Line} (h : Follows depth (unmarked lines))
    (n : Nat) : Follows (n + depth) (unmarked (lines.map (Line.shift n))) := by
  induction lines generalizing depth with
  | nil => trivial
  | cons l lines ih =>
    obtain ⟨hlevel, hrest⟩ := h
    have hlevel' : (l.level : Int) = depth - outdent l.statement false := hlevel
    refine ⟨?_, ?_⟩
    · change ((n + l.level : Nat) : Int) = n + depth - outdent l.statement false
      omega
    · have hshifted := ih hrest
      rwa [← Int.add_assoc] at hshifted

/-! ## Texts of lines -/

/-- Whether the text begins with a character other than a closing brace. -/
def leads (s : String) : Bool :=
  match s.toList with
  | [] => false
  | c :: _ => c != '\x7d'

/-- A text that does not begin with a closing brace and opens as many braces as it closes. -/
def Flat (s : String) : Prop :=
  leads s = true ∧ net s = 0

instance (s : String) : Decidable (Flat s) :=
  inferInstanceAs (Decidable (_ ∧ _))

theorem leads_append {s : String} (h : leads s = true) (t : String) : leads (s ++ t) = true := by
  unfold leads at h ⊢
  rw [String.toList_append]
  cases hs : s.toList with
  | nil =>
    rw [hs] at h
    cases h
  | cons c cs =>
    rw [hs] at h
    exact h

theorem Flat.append {s t : String} (hs : Flat s) (ht : net t = 0) : Flat (s ++ t) :=
  ⟨leads_append hs.1 t, net_append_eq_zero hs.2 ht⟩

theorem closes_append {s : String} (h : closes s = true) (t : String) : closes (s ++ t) = true := by
  unfold closes Text.startsWith at h ⊢
  obtain ⟨rest, hrest⟩ := Option.isSome_iff_exists.mp h
  rw [Text.rest?_eq_some_iff] at hrest
  rw [Option.isSome_iff_exists]
  refine ⟨rest ++ t.toList, Text.rest?_eq_some_iff.mpr ?_⟩
  rw [String.toList_append, hrest, List.append_assoc]

theorem outdent_of_leads {s : String} (h : leads s = true) : outdent s false = 0 := by
  have hcloses : closes s = false := by
    unfold closes Text.startsWith
    rw [Option.isSome_eq_false_iff, Option.isNone_iff_eq_none]
    cases hrest : Text.rest? "\x7d".toList s.toList with
    | none => rfl
    | some rest =>
      rw [Text.rest?_eq_some_iff] at hrest
      rw [leads, hrest] at h
      exact absurd h (by simp)
  rw [outdent, hcloses]
  rfl

theorem outdent_of_closes {s : String} (h : closes s = true) : outdent s false = 1 := by
  rw [outdent, h]
  rfl

/-- A flat line stands as deep as the braces say, and leaves their depth. -/
theorem Flat.follows {s : String} (h : Flat s) {level : Nat} {depth : Int}
    {rest : List (Line × Bool)} (hlevel : (level : Int) = depth) (hrest : Follows depth rest) :
    Follows depth ((⟨level, s⟩, false) :: rest) := by
  refine ⟨?_, ?_⟩
  · rw [outdent_of_leads h.1, Int.sub_zero]
    exact hlevel
  · rw [h.2, Int.add_zero]
    exact hrest

theorem follows_body {body : List String} (h : ∀ s ∈ body, Flat s) :
    Follows 1 (unmarked (body.map (⟨1, ·⟩))) := by
  induction body with
  | nil => trivial
  | cons s body ih =>
    rw [List.forall_mem_cons] at h
    exact h.1.follows rfl (ih h.2)

theorem netLines_body {body : List String} (h : ∀ s ∈ body, Flat s) :
    netLines (body.map (⟨1, ·⟩)) = 0 := by
  induction body with
  | nil => rfl
  | cons s body ih =>
    rw [List.forall_mem_cons] at h
    rw [List.map_cons, netLines_cons, ih h.2, h.1.2]
    rfl

/-! ## Emissions -/

/-- The lines follow the braces from the depth that the command is placed at, and change the depth
by as much as the emission changes the level. -/
structure Braced (e : Emission) : Prop where
  follows : Follows (-e.before) (unmarked e.lines)
  net_eq : netLines e.lines = e.before + e.after

theorem braced_nothing : Braced .nothing where
  follows := trivial
  net_eq := rfl

theorem braced_statement {s : String} (h : Flat s) : Braced (.statement s) where
  follows := h.follows rfl trivial
  net_eq := by
    rw [Emission.lines, netLines_cons, h.2]
    rfl

theorem braced_callback {body : List String} (hbody : ∀ s ∈ body, Flat s)
    {binding : Option String} (hbinding : ∀ name, binding = some name → net name = 0) :
    Braced (.callback body binding) := by
  have hopening : ∀ opening, leads opening = true → net opening = 1 →
      Follows 0 (unmarked
        (⟨0, opening⟩ :: body.map (⟨1, ·⟩) ++ [⟨0, Emission.callbackClose⟩])) ∧
      netLines (⟨0, opening⟩ :: body.map (⟨1, ·⟩) ++ [⟨0, Emission.callbackClose⟩]) = 0 := by
    intro opening hleads hnet
    refine ⟨⟨?_, ?_⟩, ?_⟩
    · rw [outdent_of_leads hleads]
      rfl
    · change Follows (0 + net opening)
        (unmarked (body.map (⟨1, ·⟩) ++ [⟨0, Emission.callbackClose⟩]))
      rw [hnet, unmarked_append, follows_append, map_fst_unmarked]
      refine ⟨follows_body hbody, ?_⟩
      rw [netLines_body hbody]
      exact ⟨by decide, trivial⟩
    · rw [netLines_append, netLines_cons, netLines_body hbody, hnet]
      decide
  have hopen : net Emission.callbackOpen = 1 := by decide
  cases binding with
  | none =>
    obtain ⟨hfollows, hnet⟩ := hopening Emission.callbackOpen (by decide) hopen
    exact ⟨hfollows, hnet⟩
  | some name =>
    have hassigned : net (Literal.variableOf name ++ " = " ++ Emission.callbackOpen) = 1 := by
      rw [net_append, net_append, net_variableOf, hbinding name rfl, hopen]
      decide
    obtain ⟨hfollows, hnet⟩ :=
      hopening _ (leads_append (leads_append (leads_append (by decide) name) _) _) hassigned
    exact ⟨hfollows, hnet⟩

/-- One line that changes the level as its braces say. -/
theorem braced_line {s : String} {before after : Int} (hbefore : before = -outdent s false)
    (hnet : net s = before + after) : Braced (.block [⟨0, s⟩] before after) where
  follows := by
    refine ⟨?_, trivial⟩
    change ((0 : Nat) : Int) = -before - outdent s false
    omega
  net_eq := by
    change netLines [⟨0, s⟩] = before + after
    rw [netLines_cons, netLines_nil, Int.add_zero]
    exact hnet

/-- The lines for a window keep to the braces. -/
theorem Braced.withWindow {e : Emission} (h : Braced e) (hbefore : e.before = 0)
    (hafter : e.after = 0) {c : Command} (hname : net c.windowHandleName = 0) (config : Config) :
    Braced (Vocabulary.withWindow c config e) := by
  unfold Vocabulary.withWindow
  split
  · have hsnapshot : Flat snapshotLine.statement := by decide +kernel
    have hawait : Flat (awaitLine c config).statement := by
      have hvariable : Flat ("$" ++ c.windowHandleName) := Flat.append (by decide) hname
      exact ((hvariable.append (by decide)).append (net_repr _)).append (by decide)
    have hnet : netLines e.lines = 0 := by
      rw [h.net_eq, hbefore, hafter]
      rfl
    have hfollows : Follows 0 (unmarked e.lines) := by
      have hfollows := h.follows
      rwa [hbefore] at hfollows
    refine ⟨?_, ?_⟩
    · change Follows (-e.before) (unmarked (snapshotLine :: e.lines ++ [awaitLine c config]))
      rw [hbefore]
      refine hsnapshot.follows rfl ?_
      change Follows 0 (unmarked (e.lines ++ [awaitLine c config]))
      rw [unmarked_append, follows_append, map_fst_unmarked, hnet]
      exact ⟨hfollows, hawait.follows rfl trivial⟩
    · change netLines (snapshotLine :: e.lines ++ [awaitLine c config]) = e.before + e.after
      rw [netLines_append, netLines_cons, netLines_cons, hsnapshot.2, hawait.2, hnet, hbefore,
        hafter]
      rfl
  · exact h

end CestWriter.Braces
