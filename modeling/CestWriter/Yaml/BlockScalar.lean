import CestWriter.Yaml.Scalar

/-!
# Block scalars

A scalar that is written on indented lines below a header. After a bar the lines stay as they are;
after a greater-than sign a line end between two lines that do not begin with a blank becomes a
space.
-/

namespace CestWriter.Yaml

/-- Which of the line ends at its end a block scalar keeps. -/
inductive Chomping where
  /-- The first. -/
  | clip
  /-- None. -/
  | strip
  /-- All. -/
  | keep
deriving Repr, DecidableEq

namespace Chomping

/-- The chomping that a sign in a header stands for. -/
def ofSign? (c : Char) : Option Chomping :=
  if c = '-' then some .strip else if c = '+' then some .keep else none

/-- What is kept of the line ends at the end of a scalar: the first, and those after it in
reverse. -/
def tail (first : Option Char) (more : List Char) : Chomping → List Char
  | .strip => []
  | .clip => first.toList
  | .keep => first.toList ++ more.reverse

end Chomping

/-- The header of a block scalar. -/
structure BlockHeader where
  chomping : Chomping := .clip
  /-- How much deeper than its surroundings the scalar is indented, if the header says so. -/
  indent : Option Nat := none
deriving Repr, DecidableEq

namespace BlockHeader

/-- Reads a sign, if there is one. -/
def sign (h : BlockHeader) : List Char → BlockHeader × List Char
  | [] => (h, [])
  | c :: cs =>
    match Chomping.ofSign? c with
    | some chomping => ({ h with chomping := chomping }, cs)
    | none => (h, c :: cs)

/-- Reads a digit, if there is one. -/
def digit (h : BlockHeader) : List Char → BlockHeader × List Char
  | [] => (h, [])
  | c :: cs =>
    if c.isDigit then ({ h with indent := some (c.toNat - 48) }, cs) else (h, c :: cs)

/-- The header that follows the mark of a block scalar, and the lines after it. A sign and a digit
may stand in either order, and a comment may follow. -/
def parse (cs : List Char) : Except Fault (BlockHeader × List Char) :=
  let (h, rest) :=
    if cs.head?.any Char.isDigit then
      let (h, rest) := digit {} cs
      h.sign rest
    else
      let (h, rest) := sign {} cs
      if rest.length < cs.length then h.digit rest else (h, rest)
  let rest := rest.dropWhile isBlank
  let rest := if rest.head? = some '#' then rest.dropWhile (!isBreak ·) else rest
  if h.indent = some 0 then .error (.unreadable (String.ofList cs))
  else
    match rest with
    | [] => .ok (h, [])
    | c :: lines =>
      if isBreak c then .ok (h, lines) else .error (.unreadable (String.ofList rest))

end BlockHeader

/-- The empty lines at the beginning of a block scalar: their line ends in reverse, the widest
indentation met, and the place after them. -/
def leadingLines (widest : Nat) (p : Position) (breaks : List Char) :
    List Char → Except Fault (List Char × Nat × Cursor)
  | [] => .ok (breaks, max widest p.column, ⟨p, []⟩)
  | c :: cs =>
    if c = ' ' then leadingLines widest (p.right 1) breaks cs
    else if c = '\t' then .error .tab
    else if isBreak c then leadingLines (max widest p.column) p.newline (c :: breaks) cs
    else .ok (breaks, max widest p.column, ⟨p, c :: cs⟩)

/-- How a block scalar is read. -/
structure BlockStyle where
  folded : Bool
  chomping : Chomping
  indent : Nat
deriving Repr, DecidableEq

/-- The lines of a block scalar before the current place. -/
structure BlockState where
  /-- The end of the last line with text. -/
  first : Option Char := none
  /-- The ends of the empty lines after it, in reverse. -/
  more : List Char := []
  /-- Whether the last line with text begins with a blank. -/
  spaced : Bool := false
deriving Repr, DecidableEq

/-- The line ends before a line that begins with this character, as they are in the text. -/
def BlockStyle.join (style : BlockStyle) (state : BlockState) (c : Char) : List Char :=
  if style.folded && state.first == some '\n' && !state.spaced && !isBlank c then
    if state.more.isEmpty then [' '] else state.more.reverse
  else state.first.toList ++ state.more.reverse

/-- The rest of a block scalar, from a place in the text of a line, `inLine`, or in the indentation
before it. -/
def blockLines (style : BlockStyle) (state : BlockState) (inLine : Bool) (p : Position) :
    List Char → Except Fault Reading
  | [] => .ok ⟨style.chomping.tail state.first state.more, false, ⟨p, []⟩⟩
  | c :: cs =>
    if isBreak c then
      if inLine then blockLines style { state with first := some c } false p.newline cs
      else blockLines style { state with more := c :: state.more } false p.newline cs
    else if inLine then (blockLines style state true (p.right 1) cs).map (·.prepend [c])
    else if p.column < style.indent then
      if c = ' ' then blockLines style state false (p.right 1) cs
      else if c = '\t' then .error .tab
      else .ok ⟨style.chomping.tail state.first state.more, false, ⟨p, c :: cs⟩⟩
    else
      (blockLines style { spaced := isBlank c } true (p.right 1) cs).map
        (·.prepend (style.join state c ++ [c]))

/-- A block scalar from the place after its mark; `outer` is the least indentation that it may
have. -/
def blockScalar (folded : Bool) (outer : Nat) (p : Position) (cs : List Char) :
    Except Fault Reading := do
  let (header, lines) ← BlockHeader.parse cs
  match header.indent with
  | some n => blockLines ⟨folded, header.chomping, outer - 1 + n⟩ {} false p.newline lines
  | none =>
    let (breaks, widest, start) ← leadingLines 0 p.newline [] lines
    blockLines ⟨folded, header.chomping, max widest (max outer 1)⟩ { more := breaks } false
      start.position start.rest

end CestWriter.Yaml
