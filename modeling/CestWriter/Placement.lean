import CestWriter.Emission
import CestWriter.Error

/-!
# Placing emissions at a running level

The level starts at zero, moves by the changes that emissions ask for, and may neither become
negative nor be left above zero at the end.
-/

namespace CestWriter.Placement

/-- The level after a change, which may not be negative. There is no upper bound: a test is taken to
open fewer than 2³¹ blocks, so that its level fits into 32 bits with a sign. -/
def adjust (level : Nat) (command : String) (change : Int) : Except Error Nat :=
  let moved : Int := level + change
  if moved < 0 then .error (.unbalanced command moved) else .ok moved.toNat

/-- Places an emission at a level: the level after it, and its lines. If the change before the lines
fails the level stays; if the change after them fails, the first change has been made. -/
def place (level : Nat) (command : String) (e : Emission) : Nat × Except Error (List Line) :=
  match adjust level command e.before with
  | .error error => (level, .error error)
  | .ok base =>
    match adjust base command e.after with
    | .error error => (base, .error error)
    | .ok final => (final, .ok (e.lines.map (Line.shift base)))

/-- At the end the level must be zero again; `command` is the last one. -/
def finish (level : Nat) (command : String) : Except Error Unit :=
  if level = 0 then .ok () else .error (.unbalanced command level)

end CestWriter.Placement
