import ConversationFlow.Checkout.Opening
import ConversationFlow.Checkout.Repository
import ConversationFlow.Template

/-!
# Checkouts

A directory belongs to a checkout if it, or one above it, holds the records of a
repository. The records name the current commit, by way of a branch or by itself.
-/

/-! ## Stored objects

A repository keeps commits and other objects in files that their digits name. It may borrow the
objects of other places. A commit is shown by as many of its digits as tell it from all of them.
-/

namespace ConversationFlow.Checkout

/-- The places that a place borrows from, one on a line. -/
private def lenders (fs : FileSystem) (l : Location) : List Location :=
  match octetsAt fs ((l.child "info").child "alternates") with
  | none => []
  | some t => (t.splitOn '\n').filterMap fun line => do
    guard (line.head? ≠ some '#')
    let there ← ({ fs with cwd := l }.locate ⟨decoded line⟩).toOption
    guard (fs.node? there = some .directory)
    return there

/-- A place, those that it borrows from, and so on, at most `depth` steps away. -/
private def places (fs : FileSystem) : (depth : Nat) → Location → List Location
  | 0, l => [l]
  | depth + 1, l => l :: (lenders fs l).flatMap (places fs depth)

/-- A commit that shares so many digits with an object is not told from it. -/
private def farthest : Nat := 32

namespace Repository

/-- How many digits of a commit are needed to tell it from all stored objects, at least `least`. -/
private def neededDigits (fs : FileSystem) (r : Repository) (least : Nat) (hash : Text) : Nat :=
  let names := (places fs 6 (r.shared.child "objects")).flatMap fun l =>
    fs.children (l.child (hash.take 2))
  let others := names.filterMap fun name =>
    let other := hash.take 2 ++ Text.lowerAscii name
    if other.length = r.digits && name.all isHexDigit then some other else none
  let common := others.map fun other => (Text.sharedStart other hash).length
  common.foldl (fun n k => if least ≤ k && k < farthest then max n (k + 1) else n) least

/-- The short form of a commit. -/
def shortCommit (fs : FileSystem) (r : Repository) (hash : Text) : Text :=
  let least := r.shownDigits.getD 7
  if r.digits ≤ least then hash else hash.take (r.neededDigits fs least hash)

end Repository

end ConversationFlow.Checkout

/-! ## The current commit -/

namespace ConversationFlow

namespace Checkout

private def shown (t : Text) : Text := Text.ofBytesLossy (Text.toOctets t)

/-- The checkout that a directory belongs to. A position that means several references names no
branch, and one that means none names itself where a file of its name lies in the directory. -/
def find (fs : FileSystem) (dir : Path) : Checkout :=
  let repository? : Option (Location × Repository) := do
    let l ← (fs.locate dir).toOption
    guard (fs.node? l = some .directory)
    return (l, ← Repository.find? fs l)
  match repository? with
  | none => {}
  | some (l, r) =>
    let meanings := r.meanings fs Repository.position
    { branch := match meanings with
        | [] => if (fs.node? (l.child Repository.position)).isSome then some Repository.position
          else none
        | [(name, _)] => some (shown (r.shortName fs name))
        | _ => none
      commit := meanings.head?.map fun m => r.shortCommit fs m.2 }

end Checkout

/-- The variables that every run has, with the checkout that is found among the files. -/
def Variables.standard (fs : FileSystem) (now : Moment) (cwd : Path) : Variables :=
  .initial (Checkout.find fs cwd) now cwd

end ConversationFlow
