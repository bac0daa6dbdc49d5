import ConversationFlow.Text.Basic

/-!
# Fields

The value of a word is a sequence of pieces. Some pieces are split into fields at the
separators of the shell, others only between arguments, and the rest stay whole. Blanks
that are separators count once however many there are; any other separator ends a field.
-/

namespace ConversationFlow.Shell

/-- A character of a value, or a mark that keeps a field which is otherwise empty. -/
inductive Cell where
  | char (c : Char) (quoted : Bool)
  | mark
deriving DecidableEq

namespace Cell

/-- The character between arguments that are to become fields of their own. -/
def border : Char := Char.ofNat 0

def ofText (quoted : Bool) (t : Text) : List Cell := t.map (.char · quoted)

/-- The text of cells. -/
def bare (cells : List Cell) : Text :=
  cells.filterMap fun
    | .char c _ => some c
    | .mark => none

/-- The pattern that cells write. A quoted sign stands for itself. -/
def pattern (cells : List Cell) : Text := go true cells
where
  /-- `escapes` does not hold behind a backslash that takes the meaning from a sign already. -/
  go : Bool → List Cell → Text
  | _, [] => []
  | _, .mark :: rest => go true rest
  | escapes, .char c quoted :: rest =>
    if quoted then
      let front := if escapes && !Text.isAlphanumeric c then ['\\', c] else [c]
      front ++ go true rest
    else c :: go (c ≠ '\\') rest

end Cell

/-- How a piece of a value is split. -/
inductive Splitting where
  | whole
  | fields
  | arguments
deriving DecidableEq

/-- A piece of a value. -/
structure Piece where
  splitting : Splitting
  cells : List Cell

namespace Fields

/-- The blanks among the separators. -/
def isBlank (c : Char) : Bool := c = ' ' || c = '\t' || c = '\n' || c = Cell.border

/-- The fields so far. The current one is in reverse, and ends after `cut` cells if there is a
cut. `room` is how many more fields may begin, if that is limited; `afterBlank` tells that
blanks end the field before, and `byArguments` how the piece before was split. -/
structure State where
  closed : List (List Cell) := []
  current : List Cell := []
  cut : Option Nat := none
  room : Option Nat := none
  afterBlank : Bool := false
  byArguments : Bool := false

/-- Takes a character of a piece that is split. -/
private def State.take (separators : Text) (byArguments afterArguments : Bool) (s : State)
    (cell : Cell) : State :=
  match cell with
  | .mark => { s with current := .mark :: s.current }
  | .char c _ =>
    let separates := c = Cell.border || (!byArguments && separators.contains c)
    let blank := separates && isBlank c
    let keep (s : State) : State := { s with current := cell :: s.current }
    if s.room = some 0 then
      if blank then keep { s with cut := some (s.cut.getD s.current.length) }
      else
        let cut := if separates && s.afterBlank then s.cut else none
        keep { s with cut, afterBlank := false }
    else if s.afterBlank && blank then { s with current := [] }
    else if s.afterBlank && separates then { s with current := [], afterBlank := false }
    else
      let s := if s.afterBlank then { s with current := [] } else s
      if separates then
        let afterBlank := if byArguments || afterArguments then s.afterBlank else blank
        if s.current.isEmpty && afterBlank then { s with afterBlank := false }
        else
          let room := s.room.map (· - 1)
          if room = some 0 then
            keep { s with room, afterBlank, cut := some s.current.length }
          else { s with room, afterBlank, closed := s.current.reverse :: s.closed, current := [] }
      else keep { s with afterBlank := false }

private def State.piece (separators : Text) (s : State) (p : Piece) : State :=
  match p.splitting with
  | .whole => { s with current := p.cells.reverse ++ s.current }
  | splitting =>
    let byArguments := splitting = .arguments
    let s' := p.cells.foldl (State.take separators byArguments s.byArguments)
      { s with afterBlank := false }
    { s' with byArguments }

/-- The fields of a value. With a limit the last one holds all that is left. -/
def split (separators : Text) (limit : Option Nat) (pieces : List Piece) : List (List Cell) :=
  let s := pieces.foldl (State.piece separators) { room := limit }
  let last := s.current.reverse
  if s.byArguments then (last :: s.closed).reverse
  else
    let last := match s.cut with
      | some n => last.take n
      | none => last
    (if last.isEmpty then s.closed else last :: s.closed).reverse

end Fields

end ConversationFlow.Shell
