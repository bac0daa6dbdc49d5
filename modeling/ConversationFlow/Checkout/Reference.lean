import ConversationFlow.Checkout.Repository

/-!
# References

A reference is a name for a commit, or for another reference. A short name may mean several
references; the rules say which, and in which order.
-/

namespace ConversationFlow.Checkout

/-- What a reference points to. -/
inductive Target where
  | reference (name : Text)
  | commit (hash : Text)
deriving DecidableEq

/-! ## Names -/

/-- Whether two characters stand side by side in a text. -/
private def hasPair (a b : Char) (t : Text) : Bool := Text.includes [a, b] t

private def isPartWellFormed (part : Text) : Bool :=
  !part.isEmpty && part.head? ≠ some '.' && !Text.endsWith ".lock" part && !hasPair '.' '.' part
    && !hasPair '@' '{' part
    && part.all fun c => 32 < c.toNat && c.toNat ≠ 127
      && !(['*', ':', '?', '[', '\\', '^', '~'].contains c)

/-- Whether a text can be the name of a reference. -/
def isNameWellFormed (name : Text) : Bool :=
  name ≠ ['@'] && name.getLast? ≠ some '.' && (name.splitOn '/').all isPartWellFormed

/-- Whether each repository that shares records has this reference for itself. -/
private def isOwn (name : Text) : Bool :=
  (name.all fun c => Text.isUpperLetter c || c = '-' || c = '_')
    || ["refs/worktree/", "refs/bisect/", "refs/rewritten/"].any fun p => Text.startsWith p name

/-! ## Reading -/

namespace Repository

/-- The target written in a record. -/
private def targetOf? (r : Repository) (t : Text) : Option Target :=
  let t := (t.reverse.dropWhile Setting.isSpace).reverse.takeWhile (· ≠ Char.ofNat 0)
  match Text.after? "ref:" t with
  | some name => some (.reference (name.dropWhile Setting.isSpace))
  | none =>
    if startsWithCommit r.digits t && (t.drop r.digits).head?.all Setting.isSpace then
      some (.commit (Text.lowerAscii (t.take r.digits)))
    else none

/-- Where a reference has a record of its own. One repository may name a reference that is another
one's own. -/
private def place (r : Repository) (name : Text) : Location :=
  let (root, name) := match Text.after? "main-worktree/" name with
    | some rest => (r.shared, if isOwn rest then rest else name)
    | none => (if isOwn name then r.own else r.shared, name)
  root ++ (decoded name).splitOn '/'

/-- The target of a reference: of its own record, or of the shared file if it has none. -/
private def target? (fs : FileSystem) (r : Repository) (name : Text) : Option Target :=
  let shared : Option Target := do
    let hash ← r.packed.lookup? name
    if startsWithCommit r.digits hash then some (.commit (Text.lowerAscii hash)) else none
  let l := r.place name
  match fs.node? l with
  | some (.file bytes) => r.targetOf? (Text.ofOctets bytes)
  | some .directory => shared
  | none =>
    let isBelowFile := (List.range l.length).any fun n =>
      match fs.node? (l.take n) with
      | some (.file _) => true
      | _ => false
    if isBelowFile then none else shared

/-- The last reference on the way from a name to a commit, and the commit. At most `steps`
references are read. -/
private def follow (fs : FileSystem) (r : Repository) (steps : Nat) (name : Text) :
    Option (Text × Text) :=
  match steps with
  | 0 => none
  | steps + 1 =>
    if !isNameWellFormed name then none
    else match r.target? fs name with
      | some (.commit hash) => some (name, hash)
      | some (.reference next) => follow fs r steps next
      | none => none

/-- The reference that a full name leads to, and its commit. -/
def resolve? (fs : FileSystem) (r : Repository) (name : Text) : Option (Text × Text) :=
  follow fs r 5 name

/-- The last reference on the way from a name, which need not have a commit. -/
def lastName? (fs : FileSystem) (r : Repository) (name : Text) : Option Text :=
  go 5 name
where
  go : Nat → Text → Option Text
    | 0, _ => none
    | steps + 1, name =>
      if !isNameWellFormed name then none
      else match r.target? fs name with
        | some (.reference next) => go steps next
        | _ => some name

/-! ## Short names -/

/-- What may stand before and after a short name to make a full name, in the order of
preference. -/
private def rules : List (Text × Text) := [
  ([], []), ("refs/".toList, []), ("refs/tags/".toList, []), ("refs/heads/".toList, []),
  ("refs/remotes/".toList, []), ("refs/remotes/".toList, "/HEAD".toList)]

private def fullName (rule : Text × Text) (short : Text) : Text := rule.1 ++ short ++ rule.2

/-- All references that a short name may mean. -/
def meanings (fs : FileSystem) (r : Repository) (short : Text) : List (Text × Text) :=
  let all := rules.filterMap fun rule => r.resolve? fs (fullName rule short)
  if r.isStrict then all else all.take 1

/-- The short name of a full one by a rule. -/
private def shortBy? (rule : Text × Text) (name : Text) : Option Text :=
  (Text.after? rule.1 name).bind (Text.before? rule.2)

/-- The shortest name of a reference that means nothing else: by no rule before the one that gives
it or, in a strict repository, by no other rule. -/
def shortName (fs : FileSystem) (r : Repository) (name : Text) : Text :=
  let candidate (i : Nat) : Option Text := do
    let short ← shortBy? (← rules[i]?) name
    let others := if r.isStrict then rules.eraseIdx i else rules.take i
    if others.any fun rule => (r.resolve? fs (fullName rule short)).isSome then none
    else some short
  ([5, 4, 3, 2, 1].findSome? candidate).getD name

end Repository

end ConversationFlow.Checkout
