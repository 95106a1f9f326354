import CestWriter.Template.Expr

/-!
# Templates

A template is a tree of literal texts, values, conditions and repetitions. It is read from its
segments by a machine that keeps the conditions and repetitions that are still open, and filled in
with the values of a scope. Values that are put in are never read as template text again.
-/

namespace CestWriter.Template

/-- A part of a template. -/
inductive Node where
  | text (s : String)
  /-- Puts a value in. -/
  | output (e : Expr)
  /-- Writes its body if the expression counts as true. -/
  | condition (e : Expr) (body : List Node)
  /-- Writes its body for every item of a list. -/
  | repetition (name : String) (e : Expr) (body : List Node)
deriving Repr

/-- A condition or repetition that is still open. -/
inductive Opening where
  | condition (e : Expr)
  | repetition (name : String) (e : Expr)
deriving Repr, DecidableEq

/-- What has been read: the nodes of the innermost body, and for every open condition or repetition
the nodes before it, all in reverse. -/
structure Builder where
  nodes : List Node := []
  outer : List (Opening × List Node) := []

/-- Reads an expression that takes all of a text. -/
def readExpr (body : List Char) (tokens : Option (List Token)) : Except Fault Expr :=
  match tokens.bind Expr.ofTokens? with
  | some e => .ok e
  | none => .error (.unreadable (String.ofList body))

/-- Takes a control tag. -/
def Builder.control (b : Builder) (body : List Char) : Except Fault Builder :=
  match Token.scan? body with
  | none => .error (.unreadable (String.ofList body))
  | some (.name "if" :: rest) => do
    let e ← readExpr body (some rest)
    return ⟨[], (.condition e, b.nodes) :: b.outer⟩
  | some (.name "for" :: .name name :: .name "in" :: rest) => do
    let e ← readExpr body (some rest)
    return ⟨[], (.repetition name e, b.nodes) :: b.outer⟩
  | some [.name "endif"] =>
    match b.outer with
    | (.condition e, nodes) :: outer => .ok ⟨.condition e b.nodes.reverse :: nodes, outer⟩
    | _ => .error .unbalanced
  | some [.name "endfor"] =>
    match b.outer with
    | (.repetition name e, nodes) :: outer =>
      .ok ⟨.repetition name e b.nodes.reverse :: nodes, outer⟩
    | _ => .error .unbalanced
  | some _ => .error (.unreadable (String.ofList body))

/-- Takes a segment. -/
def Builder.step (b : Builder) : Segment → Except Fault Builder
  | .text cs =>
    .ok (if cs.isEmpty then b else { b with nodes := .text (String.ofList cs) :: b.nodes })
  | .tag .output body => do
    let e ← readExpr body (Token.scan? body)
    return { b with nodes := .output e :: b.nodes }
  | .tag .control body => b.control body
  | .tag .comment _ => .ok b

/-- Reads a template. -/
def parse (source : String) : Except Fault (List Node) := do
  let b ← (← segments source.toList).foldlM Builder.step {}
  if b.outer.isEmpty then return b.nodes.reverse else throw .unbalanced

/-- The items of a list; an undefined value has none. -/
def Value.items : Value → Except Fault (List String)
  | .list items => .ok items
  | .undefined => .ok []
  | _ => .error .mistyped

/-- The scope inside a repetition, for the item at the front of `items`. -/
def Scope.inside (scope : Scope) (name item : String) (first last : Bool) : Scope :=
  ("loop", .repetition first last) :: (name, .text item) :: scope

/-- Writes `body` for every item, in the scope of that item. -/
def repeatFor (body : Scope → Except Fault String) (scope : Scope) (name : String) (first : Bool) :
    List String → Except Fault String
  | [] => .ok ""
  | item :: rest => do
    let head ← body (scope.inside name item first rest.isEmpty)
    let tail ← repeatFor body scope name false rest
    return head ++ tail

mutual

/-- Fills in a part of a template. -/
def Node.render : Node → Scope → Except Fault String
  | .text s, _ => .ok s
  | .output e, scope => do return (← e.eval scope).write
  | .condition e body, scope => do
    if (← e.eval scope).isTrue then renderAll body scope else return ""
  | .repetition name e body, scope => do
    repeatFor (renderAll body) scope name true (← (← e.eval scope).items)

/-- Fills in the parts of a template one after another. -/
def renderAll : List Node → Scope → Except Fault String
  | [], _ => .ok ""
  | node :: rest, scope => do
    let head ← node.render scope
    let tail ← renderAll rest scope
    return head ++ tail

end

end CestWriter.Template
