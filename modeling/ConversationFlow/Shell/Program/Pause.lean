import ConversationFlow.Shell.Options
import ConversationFlow.Shell.Program
import ConversationFlow.Shell.Real

/-!
# Pauses

A pause lasts as long as its operands tell together. An operand is a number of seconds, or
of the unit that its last letter names.
-/

namespace ConversationFlow.Shell.Pause

/-- A pause that is longer than any that is waited for. -/
def forever : Nat := Nat.pow 10 30

private def unit? (t : Text) : Option Nat :=
  match t with
  | [] | ['s'] => some 1
  | ['m'] => some 60
  | ['h'] => some 3600
  | ['d'] => some 86400
  | _ => none

/-- The nanoseconds that an operand tells. -/
private def nanos? (t : Text) : Option Nat := do
  let (r, rest) ← Real.read? t
  let unit ← unit? rest
  match r with
  | .finite negative a b =>
    if negative && a ≠ 0 then none else some (min forever ((a * unit * 1000000000 + b - 1) / b))
  | .infinite negative => if negative then none else some forever
  | .undefined _ => none

/-- Waits. -/
def run (c : Call) : Effect :=
  match ({ letters := [] } : OptionTable).read c.arguments with
  | .error message => .misuse 1 c.name message
  | .ok parsed =>
    if parsed.operands.isEmpty then .misuse 1 c.name "missing operand"
    else
      match parsed.operands.filter fun t => (nanos? t).isNone with
      | [] => { pause := (parsed.operands.filterMap nanos?).foldr (· + ·) 0 }
      | wrong =>
        .misuse 1 c.name (Text.join (("\n" : Text) ++ c.name ++ (": " : Text))
          (wrong.map fun t => ("invalid time interval " : Text) ++ Quoted.plain t))

end ConversationFlow.Shell.Pause
