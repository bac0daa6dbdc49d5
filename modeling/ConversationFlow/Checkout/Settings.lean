import ConversationFlow.Text.Basic
import ConversationFlow.Value.Basic

/-!
# Settings of a repository

A settings file has sections in brackets, and below them names with values. Names and sections do
not tell upper from lower case; a part of a section in quotes does. A name without a value is a
flag that is set.
-/

namespace ConversationFlow.Checkout

/-- A name with its section, and its value unless it is a flag. -/
structure Setting where
  name : Text
  value : Option Text
deriving DecidableEq

namespace Setting

def isSpace (c : Char) : Bool := c = ' ' || c = '\t' || c = '\n' || c = '\r'

private def isLetter (c : Char) : Bool := Text.isLowerLetter c || Text.isUpperLetter c

private def isNameChar (c : Char) : Bool := Text.isAlphanumeric c || c = '-'

/-! ## The file -/

/-- Line feeds in place of each carriage return with a line feed. -/
private def unifyBreaks : Text → Text
  | '\r' :: '\n' :: t => '\n' :: unifyBreaks t
  | c :: t => c :: unifyBreaks t
  | [] => []

/-- The rest of a section's quoted part, and the text after its bracket. -/
private def quotedPart? : Text → Option (Text × Text)
  | '"' :: ']' :: t => some ([], t)
  | '\\' :: '\n' :: _ => none
  | '\\' :: c :: t => (quotedPart? t).map fun (w, r) => (c :: w, r)
  | c :: t =>
    if c = '"' || c = '\n' then none else (quotedPart? t).map fun (w, r) => (c :: w, r)
  | [] => none

/-- The section behind an opening bracket, and the text after its closing one. -/
private def sectionName? (t : Text) : Option (Text × Text) :=
  let name := t.takeWhile fun c => isNameChar c || c = '.'
  match t.drop name.length with
  | ']' :: rest => if name.isEmpty then none else some (Text.lowerAscii name, rest)
  | c :: rest =>
    if c = ' ' || c = '\t' || c = '\r' then
      match rest.dropWhile fun c => c ≠ '\n' && isSpace c with
      | '"' :: rest => (quotedPart? rest).map fun (w, r) => (Text.lowerAscii name ++ '.' :: w, r)
      | _ => none
    else none
  | [] => none

/-- A value, and the text after its line. Blanks around it are dropped, quotes keep them; `seen` and
`blanks` are what was read of it, in reverse. -/
private def value? (isQuoted : Bool) (seen blanks : Text) : Text → Option (Text × Text)
  | [] => if isQuoted then none else some (seen.reverse, [])
  | '\n' :: t => if isQuoted then none else some (seen.reverse, t)
  | '\\' :: c :: t =>
    let seen := blanks ++ seen
    if c = '\n' then value? isQuoted seen [] t
    else if c = 't' then value? isQuoted ('\t' :: seen) [] t
    else if c = 'b' then value? isQuoted (Char.ofNat 8 :: seen) [] t
    else if c = 'n' then value? isQuoted ('\n' :: seen) [] t
    else if c = '\\' || c = '"' then value? isQuoted (c :: seen) [] t
    else none
  | c :: t =>
    if isSpace c && !isQuoted then value? isQuoted seen (if seen.isEmpty then [] else c :: blanks) t
    else if (c = ';' || c = '#') && !isQuoted then
      some (seen.reverse, (t.dropWhile (· ≠ '\n')).drop 1)
    else if c = '"' then value? (!isQuoted) (blanks ++ seen) [] t
    else if c = '\\' then some ((blanks ++ seen).reverse, [])
    else value? isQuoted (c :: (blanks ++ seen)) [] t

private def settings? (fuel : Nat) (inSection : Text) (t : Text) : Option (List Setting) :=
  match fuel, t with
  | _, [] => some []
  | 0, _ => none
  | fuel + 1, c :: t =>
    if isSpace c then settings? fuel inSection t
    else if c = '#' || c = ';' then settings? fuel inSection (t.dropWhile (· ≠ '\n'))
    else if c = '[' then do
      let (name, rest) ← sectionName? t
      settings? fuel (name ++ ['.']) rest
    else if isLetter c then do
      let name := inSection ++ Text.lowerAscii (c :: t.takeWhile isNameChar)
      match (t.dropWhile isNameChar).dropWhile fun c => c = ' ' || c = '\t' with
      | [] => return [⟨name, none⟩]
      | '\n' :: rest => return ⟨name, none⟩ :: (← settings? fuel inSection rest)
      | '=' :: rest =>
        let (value, rest) ← value? false [] [] rest
        return ⟨name, some value⟩ :: (← settings? fuel inSection rest)
      | _ => none
    else none

/-- The settings of a file in their order. A byte order mark may stand at its beginning. -/
def ofText? (t : Text) : Option (List Setting) :=
  let t := (Text.after? ([0xEF, 0xBB, 0xBF].map Char.ofNat) t).getD t
  settings? (t.length + 1) [] (unifyBreaks t)

/-! ## Values -/

/-- The values of digits in a base, and what follows them. -/
private def digitsIn (base : Nat) (t : Text) : Option Nat × Text :=
  let digit? (c : Char) : Option Nat :=
    let n := if Text.isDigit c then some (c.toNat - 48)
      else if Text.isLowerLetter c then some (c.toNat - 87)
      else if Text.isUpperLetter c then some (c.toNat - 55)
      else none
    n.filter fun d => d < base
  let digits := t.takeWhile fun c => (digit? c).isSome
  (if digits.isEmpty then none
    else some (digits.foldl (fun n c => base * n + (digit? c).getD 0) 0), t.drop digits.length)

/-- A number in decimal, octal or hexadecimal digits, and the text after it. -/
private def natural? (t : Text) : Option (Nat × Text) :=
  match t with
  | '0' :: x :: rest =>
    if x = 'x' || x = 'X' then
      match digitsIn 16 rest with
      | (some n, rest) => some (n, rest)
      | (none, _) => some (0, x :: rest)
    else
      let (n, rest) := digitsIn 8 (x :: rest)
      some (n.getD 0, rest)
  | t => let (n, rest) := digitsIn 10 t; n.map (·, rest)

/-- How much a letter behind a number multiplies it by. -/
private def unit? (t : Text) : Option Nat :=
  match Text.lowerAscii t with
  | [] => some 1
  | ['k'] => some 1024
  | ['m'] => some 1048576
  | ['g'] => some 1073741824
  | _ => none

/-- A whole number of at most `limit` on either side of zero. -/
def int? (limit : Nat) (value : Option Text) : Option Int := do
  let t := (← value).dropWhile fun c => isSpace c || c.toNat = 11 || c.toNat = 12
  let (isNegative, t) := match t with
    | '-' :: t => (true, t)
    | '+' :: t => (false, t)
    | t => (false, t)
  let (n, rest) ← natural? t
  let n := n * (← unit? rest)
  if limit < n then none else some (if isNegative then -(n : Int) else n)

/-- A value in words that says yes or no; a flag says yes. -/
def word? (value : Option Text) : Option Bool :=
  match value with
  | none => some true
  | some t =>
    let t := Text.lowerAscii t
    if ["true", "yes", "on"].any fun w => t = w.toList then some true
    else if ["", "false", "no", "off"].any fun w => t = w.toList then some false
    else none

/-- Yes or no, in words or as a number. -/
def bool? (value : Option Text) : Option Bool :=
  (word? value).orElse fun _ => (int? (wordSize 31 - 1) value).map fun n => n ≠ 0

end Setting

/-! ## Known settings

Some settings are read whenever a repository is opened. Each has values that it may have, and any
other makes the repository unusable. Of most of them each value counts, of some only the last one.
-/

/-- What a setting may say. -/
inductive SettingKind where
  | flag
  | text
  | path
  | number
  | size
  | level
  | digits
  | mark
  | choice (words : List String)
  | flagOr (words : List String)

namespace Setting

/-- The last value of a name. -/
def last? (settings : List Setting) (name : String) : Option (Option Text) :=
  (settings.reverse.find? fun s => s.name = name.toList).map (·.value)

/-- The least number of digits that a commit is shortened to. -/
private def leastShort : Nat := 4

/-- How many digits a commit is shortened to, of all `full` ones; `none` leaves the choice. -/
def shortLength? (full : Nat) (value : Option Text) : Option (Option Nat) := do
  let t ← value
  if Text.lowerAscii t = "auto".toList then some none
  else if word? (some t) = some false then some (some full)
  else
    let n ← int? (wordSize 31 - 1) (some t)
    if n < leastShort || full < n then none else some (some n.toNat)

/-- Whether a path begins with the home of somebody who is not known. -/
def isHomeless (path : Text) : Bool :=
  match path with
  | '~' :: rest => !(["", "root"].any fun w => rest.takeWhile (· ≠ '/') = w.toList)
  | _ => false

private def isAllowed (full : Nat) (value : Option Text) : SettingKind → Bool
  | .flag => (bool? value).isSome
  | .text => value.isSome
  | .path => value.any fun t => !isHomeless t
  | .number => (int? (wordSize 31 - 1) value).isSome
  | .size => !(value.any fun t => t.contains '-') && (int? (wordSize 64 - 1) value).isSome
  | .level => (int? (wordSize 31 - 1) value).any fun n => -1 ≤ n && n ≤ 9
  | .digits => (shortLength? full value).isSome
  | .mark => value.any fun t => t.length = 1 || Text.lowerAscii t = "auto".toList
  | .choice words => words.any fun w => value = some w.toList
  | .flagOr words => (words.any fun w => value = some w.toList) || (bool? value).isSome

private def advice : List String := [
  "addembeddedrepo", "addemptypathspec", "addignoredfile", "amworkdir", "ambiguousfetchrefspec",
  "checkoutambiguousremotebranchname", "commitbeforemerge", "detachedhead", "diverging",
  "fetchshowforcedupdates", "graftfiledeprecated", "ignoredhook", "implicitidentity", "nestedtag",
  "objectnamewarning", "pushalreadyexists", "pushfetchfirst", "pushneedsforce", "pushnonffcurrent",
  "pushnonffmatching", "pushnonfastforward", "pushrefneedsupdate", "pushunqualifiedrefname",
  "pushupdaterejected", "resetnorefresh", "resolveconflict", "rmhints", "sequencerinuse",
  "skippedcherrypicks", "statusaheadbehindwarning", "statushints", "statusuoption",
  "submodulealternateerrorstrategydie", "submodulesnotupdated", "suggestdetachinghead",
  "updatesparsepath", "waitingforeditor", "worktreeaddorphan"]

/-- The settings of which each value counts. -/
private def known : List (SettingKind × List String) := [
  (.flag, [
    "core.filemode", "core.trustctime", "core.quotepath", "core.symlinks", "core.ignorecase",
    "core.bare", "core.fsyncobjectfiles", "core.sparsecheckout", "core.sparsecheckoutcone",
    "core.precomposeunicode", "core.protecthfs", "core.protectntfs", "core.warnambiguousrefs",
    "core.prefersymlinkrefs", "core.preloadindex", "core.ignorestat", "user.useconfigonly",
    "pager.color", "color.pager", "sparse.expectfilesoutsideofpatterns"]),
  (.flag, advice.map fun name => "advice." ++ name),
  (.text, [
    "core.checkstat", "core.notesref", "core.editor", "core.askpass", "core.whitespace",
    "core.checkroundtripencoding", "core.fsync", "core.fsyncmethod", "user.name", "user.email",
    "author.name", "author.email", "committer.name", "committer.email", "i18n.commitencoding",
    "i18n.logoutputencoding", "attr.tree", "mailmap.blob", "color.advice.hint",
    "push.default"]),
  (.path, ["core.attributesfile", "core.hookspath", "core.excludesfile", "mailmap.file"]),
  (.number, ["core.maxtreedepth"]),
  (.size, [
    "core.packedgitwindowsize", "core.packedgitlimit", "core.deltabasecachelimit",
    "core.bigfilethreshold", "pack.packsizelimit"]),
  (.level, ["core.compression", "core.loosecompression", "pack.compression"]),
  (.digits, ["core.abbrev"]),
  (.mark, ["core.commentchar"]),
  (.flagOr ["always"], ["core.logallrefupdates"]),
  (.flagOr ["input"], ["core.autocrlf"]),
  (.flagOr ["warn"], ["core.safecrlf"]),
  (.flagOr ["always", "inherit", "simple"], ["branch.autosetupmerge"]),
  (.flagOr ["never", "always", "auto"], ["color.advice"]),
  (.choice ["rename", "link"], ["core.createobject"]),
  (.choice ["none", "commit", "committish", "tree", "treeish", "blob"], ["core.disambiguate"]),
  (.choice ["never", "local", "remote", "always"], ["branch.autosetuprebase"])]

/-- The settings of which the last value counts. -/
private def knownByLast : List (SettingKind × List String) := [
  (.flag, [
    "core.usereplacerefs", "core.commitgraph", "core.multipackindex", "feature.experimental",
    "feature.manyfiles", "index.sparse", "index.skiphash", "pack.usesparse",
    "pack.readreverseindex", "pack.usebitmapboundarytraversal", "commitgraph.readchangedpaths",
    "gc.writecommitgraph", "fetch.writecommitgraph"]),
  (.text, ["core.untrackedcache"]),
  (.number, ["index.version", "commitgraph.generationversion"]),
  (.choice ["noop", "consecutive", "skipping", "default"], ["fetch.negotiationalgorithm"])]

/-- Whether settings that are known have values that they may have. -/
def areValid (full : Nat) (settings : List Setting) : Bool :=
  (settings.all fun s =>
    match known.find? fun e => e.2.any fun name => name.toList = s.name with
    | some (kind, _) => isAllowed full s.value kind
    | none => true)
  && (knownByLast.all fun (kind, names) => names.all fun name =>
    (last? settings name).all fun value => isAllowed full value kind)

end Setting

end ConversationFlow.Checkout
