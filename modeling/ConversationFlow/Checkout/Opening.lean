import ConversationFlow.Checkout.Settings
import ConversationFlow.Checkout.Reference
import ConversationFlow.Text.Basic

/-!
# Opening a repository

The settings of a repository say what form its records have; only a form that is known can be read.
Settings may include those of other files, some only where the repository lies in a certain place or
is on a certain branch. What the form is, the repository's own file has to say.
-/

namespace ConversationFlow.Checkout

/-! ## Wildcards for paths

A question mark stands for a character and a star for several, none of them a slash. Two stars that
fill a part of the path stand for any number of parts.
-/

/-- Whether a character is in the set that a bracket opened, and the pattern behind the set. A
bracket that comes first is in the set; `last` may begin a range. -/
private def setAt? (c : Char) (isFirst : Bool) (last : Option Char) (isIn : Bool) :
    Text → Option (Bool × Text)
  | [] => none
  | '\\' :: x :: p => setAt? c false (some x) (isIn || c = x) p
  | ['-'] => none
  | '-' :: x :: p =>
    match last with
    | some low =>
      if x = ']' then some (isIn || c = '-', p)
      else setAt? c false none (isIn || (low ≤ c && c ≤ x)) p
    | none => setAt? c false (some '-') (isIn || c = '-') (x :: p)
  | x :: p =>
    if x = ']' && !isFirst then some (isIn, p)
    else setAt? c false (some x) (isIn || c = x) p

/-- Whether a pattern matches a whole text; `opensPart` says that the pattern begins a part. -/
private def matchesFrom : (fuel : Nat) → (opensPart : Bool) → (pattern : Text) → Text → Bool
  | 0, _, _, _ => false
  | _ + 1, _, [], t => t.isEmpty
  | fuel + 1, opensPart, '*' :: p, t =>
    let isDouble := p.head? = some '*'
    let p := p.dropWhile (· = '*')
    let crosses := isDouble && opensPart && (p.isEmpty || p.head? = some '/')
    if p.isEmpty then crosses || !t.contains '/'
    else if crosses && matchesFrom fuel true (p.drop 1) t then true
    else
      let room := if crosses then t.length else (t.takeWhile (· ≠ '/')).length
      (List.range (room + 1)).any fun n => matchesFrom fuel false p (t.drop n)
  | _ + 1, _, _ :: _, [] => false
  | fuel + 1, _, c :: p, x :: t =>
    if c = '?' then x ≠ '/' && matchesFrom fuel false p t
    else if c = '[' then
      let isNegated := p.head? = some '!' || p.head? = some '^'
      match setAt? x true none false (if isNegated then p.drop 1 else p) with
      | some (isIn, p) => isIn ≠ isNegated && x ≠ '/' && matchesFrom fuel false p t
      | none => false
    else if c = '\\' then
      match p with
      | c :: p => c = x && matchesFrom fuel (c = '/') p t
      | [] => false
    else c = x && matchesFrom fuel (c = '/') p t

/-- Whether a pattern matches a path. -/
def isMatch (pattern path : Text) : Bool :=
  matchesFrom (pattern.length + path.length + 1) true pattern path

/-! ## The form of the records -/

/-- The form of a repository's records, and where its files are checked out. -/
private structure Form where
  digits : Nat := 40
  hasOwnSettings : Bool := false
  isBare : Bool := false
  worktree : Option Text := none

/-- The extensions that any version of the form may have. -/
private def freeExtensions : List String :=
  ["noop", "preciousobjects", "partialclone", "worktreeconfig"]

/-- The extensions that only the later version may have. -/
private def laterExtensions : List String := ["noop-v1", "objectformat"]

private def isIn (names : List String) (name : Text) : Bool := names.any fun n => n.toList = name

/-- Whether the value of an extension is one that it may have. -/
private def isExtensionValid (name : Text) (value : Option Text) : Bool :=
  if isIn ["preciousobjects", "worktreeconfig"] name then (Setting.bool? value).isSome
  else if isIn ["partialclone"] name then value.isSome
  else if isIn ["objectformat"] name then value.any (isIn ["sha1", "sha256"])
  else true

/-- What settings say of the working files, if they can say it. -/
private def working? (settings : List Setting) : Option (Option Bool × Option Text) := do
  let named (name : String) := settings.filter fun s => s.name = name.toList
  let bare ← (named "core.bare").mapM fun s => Setting.bool? s.value
  let places ← (named "core.worktree").mapM (·.value)
  return (bare.getLast?, places.getLast?)

/-- The form that a repository's own settings say, if it is known. Without a version nothing is said
about it. -/
private def form? (settings : List Setting) : Option Form := do
  let extensions := settings.filterMap fun s =>
    (Text.after? "extensions." s.name).map (·, s.value)
  let versions ← (settings.filter fun s => s.name = "core.repositoryformatversion".toList).mapM
    fun s => Setting.int? (wordSize 31 - 1) s.value
  guard (extensions.all fun e => isExtensionValid e.1 e.2)
  let (isBare, worktree) ← working? settings
  match versions.getLast? with
  | none => some {}
  | some version =>
    if version < 0 then some {}
    else
      guard (version ≤ 1)
      guard (version = 0 || extensions.all fun e => isIn (freeExtensions ++ laterExtensions) e.1)
      guard (version = 1 || !extensions.any fun e => isIn laterExtensions e.1)
      let isLong := Setting.last? settings "extensions.objectformat" = some (some "sha256".toList)
      return {
        digits := if isLong then 64 else 40
        hasOwnSettings := (Setting.last? settings "extensions.worktreeconfig").any fun v =>
          Setting.bool? v = some true
        isBare := isBare.getD false
        worktree := worktree }

/-- Whether the working files can be where a repository says. -/
private def canWorkAt (fs : FileSystem) (own : Location) (path : Text) : Bool :=
  let path : Path := ⟨decoded path⟩
  let there := { fs with cwd := own }.nodeAt? path
  if path.isAbsolute then
    there.isSome || path.parent?.any fun above => fs.nodeAt? above = some .directory
  else there = some .directory

/-! ## Settings in other files -/

/-- What conditions on settings look at: the place of the repository and its branch. -/
private structure Scope where
  own : Location
  branch : Option Text

/-- A pattern with all below it, if it names a directory. -/
private def withAllBelow (pattern : Text) : Text :=
  if pattern.getLast? = some '/' then pattern ++ "**".toList else pattern

/-- Whether a place matches a pattern, which may begin at the directory of the settings. -/
private def isPlacedAt (own directory : Location) (pattern : Text) : Bool :=
  let pattern := match pattern with
    | '.' :: '/' :: rest => directory.path.text ++ '/' :: rest
    | '/' :: _ => pattern
    | _ => ("**/" : Text) ++ pattern
  isMatch (withAllBelow pattern) own.path.text

private def holds (scope : Scope) (directory : Location) (condition : Text) : Bool :=
  match Text.after? "gitdir:" condition, Text.after? "gitdir/i:" condition with
  | some pattern, _ => isPlacedAt scope.own directory (decoded pattern)
  | none, some pattern =>
    let lower (l : Location) : Location := l.map Text.lowerAscii
    isPlacedAt (lower scope.own) (lower directory) (Text.lowerAscii (decoded pattern))
  | none, none =>
    match Text.after? "onbranch:" condition, scope.branch with
    | some pattern, some branch => isMatch (withAllBelow pattern) branch
    | _, _ => false

/-- Whether a setting includes a file. -/
private def includes (scope : Scope) (directory : Location) (name : Text) : Bool :=
  name = "include.path".toList
    || (((Text.after? "includeif." name).bind (Text.before? ".path")).any (holds scope directory))

/-- The settings of a file without those that it includes; a file that is missing has none. -/
private def ownSettings? (fs : FileSystem) (l : Location) : Option (List Setting) :=
  match fs.node? l with
  | none => some []
  | some .directory => none
  | some (.file bytes) => Setting.ofText? (Text.ofOctets bytes)

/-- The settings of a file, and of those that it includes, at most `depth` steps away. -/
private def settingsAt? (fs : FileSystem) (scope : Scope) (depth : Nat) (l : Location) :
    Option (List Setting) :=
  match depth with
  | 0 => none
  | depth + 1 => do
    let own ← ownSettings? fs l
    let all ← own.mapM fun s =>
      if includes scope l.dropLast s.name then do
        let path ← s.value
        guard (!path.isEmpty && !Setting.isHomeless path)
        match { fs with cwd := l.dropLast }.locate ⟨decoded path⟩ with
        | .ok there => return s :: (← settingsAt? fs scope depth there)
        | .error .notFound | .error .notDirectory => return [s]
        | .error _ => none
      else some [s]
    return all.flatten

/-! ## Opening -/

namespace Repository

/-- The name of the current position. -/
def position : Text := "HEAD"

/-- The repository that a directory belongs to, if it can be opened. -/
def find? (fs : FileSystem) (l : Location) : Option Repository :=
  match search fs l with
  | .nothing | .refusal => none
  | .found own shared => do
    let form ← form? (← ownSettings? fs (shared.child "config"))
    let extra := own.child "config.worktree"
    let ownExtra ← if form.hasOwnSettings then ownSettings? fs extra else some []
    let (isBare, worktree) ← working? ownExtra
    let worktree := worktree.or form.worktree
    if (own = shared || form.hasOwnSettings) && !isBare.getD form.isBare then
      guard (worktree.all (canWorkAt fs own))
    let r : Repository :=
      { own := own
        shared := shared
        digits := form.digits
        packed := ← PackedReferences.ofText? form.digits
          (← match fs.node? (shared.child "packed-refs") with
            | none => some []
            | some .directory => none
            | some (.file bytes) => some (Text.ofOctets bytes)) }
    let scope : Scope :=
      { own := own
        branch := (r.lastName? fs position).bind (Text.after? "refs/heads/") }
    let main ← settingsAt? fs scope 11 (shared.child "config")
    let more ← if form.hasOwnSettings then settingsAt? fs scope 11 extra else some []
    let settings := main ++ more
    guard (Setting.areValid form.digits settings)
    return { r with
      shownDigits := (← (Setting.last? settings "core.abbrev").mapM
        (Setting.shortLength? form.digits)).join
      isStrict := ((Setting.last? settings "core.warnambiguousrefs").bind Setting.bool?).getD true }

end Repository

end ConversationFlow.Checkout
