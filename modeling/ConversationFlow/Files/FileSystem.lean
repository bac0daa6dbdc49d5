import ConversationFlow.Files.Path
import ConversationFlow.Text.Utf8

/-!
# File systems

A file system is a finite tree of directories and files without links, seen from
a working directory. A location is the list of names from the root to a node; a
path leads to at most one location, which is its canonical form. Where links matter, for
files that include each other, `Sources` stands in the place of a file system.
-/

namespace ConversationFlow

/-- Why an access to a file fails. -/
inductive FileError where
  | notFound
  | permissionDenied
  | alreadyExists
  | notDirectory
  | isDirectory
  | nameTooLong
  | nulByte
  | notText
  | other (message : Text)
deriving DecidableEq

def FileError.message : FileError → Text
  | .notFound => "No such file or directory (os error 2)"
  | .permissionDenied => "Permission denied (os error 13)"
  | .alreadyExists => "File exists (os error 17)"
  | .notDirectory => "Not a directory (os error 20)"
  | .isDirectory => "Is a directory (os error 21)"
  | .nameTooLong => "File name too long (os error 36)"
  | .nulByte => "file name contained an unexpected NUL byte"
  | .notText => "stream did not contain valid UTF-8"
  | .other message => message

/-- The names from the root to a node. -/
abbrev Location := List Text

/-- The absolute path that names a location without any detour. -/
def Location.path (l : Location) : Path := ⟨'/' :: Text.join ['/'] l⟩

/-- The location of a name in a directory. -/
def Location.child (l : Location) (name : Text) : Location := l ++ [name]

/-- A location made of names, so that its path can be taken apart again. -/
def Location.IsNamed (l : Location) : Prop := ∀ name ∈ l, name ≠ [] ∧ '/' ∉ name

inductive FileNode where
  | file (content : Bytes)
  | directory
deriving DecidableEq

/-- Nodes by location, and the directory that relative paths start from. `programs` are
the commands that are installed, and `environment` holds the variables that they inherit. -/
structure FileSystem where
  cwd : Location
  nodes : List (Location × FileNode)
  programs : List Text := []
  environment : List (Text × Text) := []

namespace FileSystem

/-- The file system with no files of its own. -/
def empty : FileSystem := ⟨[], [], [], []⟩

/-- The directories that every system has. -/
def systemDirectories : List Location :=
  ["", "bin", "dev", "etc", "home", "lib", "opt", "proc", "root", "sbin", "sys", "tmp", "usr", "var",
    "usr/bin", "usr/lib", "usr/local", "usr/local/bin", "usr/sbin", "usr/share", "var/log",
    "var/tmp"].map fun t => (t.toList.splitOn '/').filter fun name => !name.isEmpty

/-- The node at a location. -/
def node? (fs : FileSystem) (l : Location) : Option FileNode :=
  match fs.nodes.find? fun n => n.1 == l with
  | some (_, n) => some n
  | none => if systemDirectories.contains l then some .directory else none

def directoryAt (fs : FileSystem) (l : Location) : Except FileError Location :=
  match fs.node? l with
  | some .directory => .ok l
  | some (.file _) => .error .notDirectory
  | none => .error .notFound

/-- One step of a path from an existing node. -/
def descend (fs : FileSystem) (l : Location) (segment : Text) :
    Except FileError Location := do
  let l ← fs.directoryAt l
  if segment.isEmpty || segment = ['.'] then return l
  if segment = ['.', '.'] then return l.dropLast
  if 255 < Text.byteLength segment then throw .nameTooLong
  match fs.node? (l ++ [segment]) with
  | some _ => return l ++ [segment]
  | none => throw .notFound

/-- The location that a path leads to. -/
def locate (fs : FileSystem) (p : Path) : Except FileError Location :=
  if Char.ofNat 0 ∈ p.text then .error .nulByte
  else if p.isEmpty then .error .notFound
  else if 4095 < Text.byteLength p.text then .error .nameTooLong
  else
    (p.text.splitOn '/').foldlM (descend fs) (if p.isAbsolute then [] else fs.cwd)

/-- The node that a path leads to. -/
def nodeAt? (fs : FileSystem) (p : Path) : Option FileNode :=
  (fs.locate p).toOption.bind fs.node?

def pathExists (fs : FileSystem) (p : Path) : Bool := (fs.nodeAt? p).isSome

def isFile (fs : FileSystem) (p : Path) : Bool :=
  match fs.nodeAt? p with
  | some (.file _) => true
  | _ => false

def isDirectory (fs : FileSystem) (p : Path) : Bool := fs.nodeAt? p == some .directory

/-- The bytes of a file at a location. -/
def bytesAt (fs : FileSystem) (l : Location) : Except FileError Bytes :=
  match fs.node? l with
  | some (.file content) => .ok content
  | some .directory => .error .isDirectory
  | none => .error .notFound

def read (fs : FileSystem) (p : Path) : Except FileError Bytes := do
  fs.bytesAt (← fs.locate p)

/-- The text of a file at a location. -/
def textAt (fs : FileSystem) (l : Location) : Except FileError Text := do
  match Text.ofBytes? (← fs.bytesAt l) with
  | some t => return t
  | none => throw .notText

/-- The text of a file, which must be well-formed. -/
def readText (fs : FileSystem) (p : Path) : Except FileError Text := do
  fs.textAt (← fs.locate p)

/-- The names in a directory, in increasing order. -/
def children (fs : FileSystem) (l : Location) : List Text :=
  let names := fs.nodes.filterMap fun (m, _) =>
    if m.dropLast = l && !m.isEmpty then m.getLast? else none
  names.mergeSort fun a b => !Text.before b a

/-- The locations of the files below a directory, as the names that lead there from it. -/
def filesBelow (fs : FileSystem) (l : Location) : List (List Text) :=
  fs.nodes.filterMap fun (m, n) =>
    match n with
    | .file _ =>
      if m.take l.length = l ∧ l.length < m.length then some (m.drop l.length) else none
    | .directory => none

/-- Puts a node at a location, in place of the one there. -/
def put (fs : FileSystem) (l : Location) (n : FileNode) : FileSystem :=
  { fs with nodes := fs.nodes.filter (fun m => m.1 != l) ++ [(l, n)] }

/-- Takes out the node at a location and all below it. -/
def remove (fs : FileSystem) (l : Location) : FileSystem :=
  { fs with nodes := fs.nodes.filter fun m => m.1.take l.length != l }

/-- Creates the missing directories on the way along the segments. -/
private def createAlong (fs : FileSystem) : Location → List Text → Except FileError FileSystem
  | _, [] => .ok fs
  | l, s :: rest =>
    if s.isEmpty || s = ['.'] then createAlong fs l rest
    else if s = ['.', '.'] then createAlong fs l.dropLast rest
    else if 255 < Text.byteLength s then .error .nameTooLong
    else
      match fs.node? (l ++ [s]) with
      | some .directory => createAlong fs (l ++ [s]) rest
      | some (.file _) => .error (if rest.all (·.isEmpty) then .alreadyExists else .notDirectory)
      | none => createAlong (fs.put (l ++ [s]) .directory) (l ++ [s]) rest

/-- Creates a directory and the missing ones above it. -/
def createDirectories (fs : FileSystem) (p : Path) : Except FileError FileSystem :=
  if Char.ofNat 0 ∈ p.text then .error .nulByte
  else fs.createAlong (if p.isAbsolute then [] else fs.cwd) (p.text.splitOn '/')

/-- Writes a file whose directory exists. -/
def write (fs : FileSystem) (p : Path) (content : Bytes) : Except FileError FileSystem := do
  if Char.ofNat 0 ∈ p.text then throw .nulByte
  if p.isEmpty then throw .notFound
  let segments := p.text.splitOn '/'
  let start : Location := if p.isAbsolute then [] else fs.cwd
  let directory ← segments.dropLast.foldlM (descend fs) start
  let directory ← fs.directoryAt directory
  match segments.getLast? with
  | none | some [] | some ['.'] | some ['.', '.'] => throw .isDirectory
  | some name =>
    if 255 < Text.byteLength name then throw .nameTooLong
    match fs.node? (directory ++ [name]) with
    | some .directory => throw .isDirectory
    | _ => return fs.put (directory ++ [name]) (.file content)

def writeText (fs : FileSystem) (p : Path) (t : Text) : Except FileError FileSystem :=
  fs.write p (Text.toBytes t)

/-- Writes a file and creates the missing directories above it, which stay even if the file
cannot be written. -/
def writeNested (fs : FileSystem) (p : Path) (t : Text) : Except FileError Unit × FileSystem :=
  let made : Except FileError FileSystem :=
    match p.parent? with
    | some dir => if dir.isEmpty then .ok fs else fs.createDirectories dir
    | none => .ok fs
  match made with
  | .error e => (.error e, fs)
  | .ok made =>
    match made.writeText p t with
    | .error e => (.error e, made)
    | .ok written => (.ok (), written)

/-- The nodes that were put since an earlier state, in which nodes are in the same order: a node
that was put stands behind all that were left alone. -/
def putSince (fs earlier : FileSystem) : List (Location × FileNode) := go earlier.nodes fs.nodes
where
  go : List (Location × FileNode) → List (Location × FileNode) → List (Location × FileNode)
    | _, [] => []
    | [], new => new
    | o :: old, n :: new => if o = n then go old new else go old (n :: new)

/-- One step of a path that leads to a program. -/
private def stepTo (fs : FileSystem) (l : Option Location) (segment : Text) : Option Location := do
  let l ← l
  if fs.node? l != some .directory then none
  else if segment.isEmpty || segment = ['.'] then some l
  else if segment = ['.', '.'] then some l.dropLast
  else some (l.child segment)

/-- The program that an absolute path names: one in a directory of programs. -/
def programAt? (fs : FileSystem) (path : Text) : Option Text := do
  if path.head? ≠ some '/' then none
  else
    let l ← (path.splitOn '/').foldl (stepTo fs) (some [])
    let name ← l.getLast?
    if (l.dropLast = ["bin".toList] || l.dropLast = ["usr".toList, "bin".toList])
        && fs.programs.contains name then some name
    else none

/-- Whether a command can be started: a program on the search path, by its name or its path. -/
def hasProgram (fs : FileSystem) (name : Text) : Bool :=
  fs.programs.contains name || (fs.programAt? name).isSome

/-! ## Paths without their nodes

Where a path leads to, if it leads anywhere, can be read off its components: there are no links. -/

/-- What a component leads to, whatever stands there. -/
def follow (l : Location) : PathPart → Location
  | .root => []
  | .here => l
  | .up => l.dropLast
  | .name n => l.child n

variable {fs : FileSystem} {p q : Path} {l m : Location}

theorem directoryAt_ok (h : fs.directoryAt l = .ok m) :
    m = l ∧ fs.node? l = some .directory := by
  unfold directoryAt at h
  split at h
  · next hl =>
    cases h
    exact ⟨rfl, hl⟩
  · cases h
  · cases h

private theorem descend_ok {segment : Text} (h : fs.descend l segment = .ok m) :
    fs.node? l = some .directory ∧ m = Path.along follow l segment := by
  unfold descend directoryAt at h
  cases hl : fs.node? l with
  | none => rw [hl] at h; cases h
  | some n =>
    cases n with
    | file content => rw [hl] at h; cases h
    | directory =>
      rw [hl] at h
      refine ⟨rfl, ?_⟩
      unfold Path.along
      simp only [bind, Except.bind, pure, Except.pure] at h
      split at h
      · next hidle =>
        cases h
        exact (if_pos hidle).symm
      · next hidle =>
        rw [if_neg hidle]
        split at h
        · next hup =>
          cases h
          exact (if_pos hup).symm
        · next hup =>
          rw [if_neg hup]
          split at h
          · cases h
          · split at h
            · cases h
              rfl
            · cases h

/-- The start of a path, and one step after the other to where it leads. -/
theorem foldlM_of_locate (h : fs.locate p = .ok l) :
    (p.text.splitOn '/').foldlM (descend fs) (if p.isAbsolute then [] else fs.cwd) = .ok l := by
  unfold locate at h
  split at h
  · cases h
  · split at h
    · cases h
    · split at h
      · cases h
      · exact h

private theorem foldlM_descend_ok {segments : List Text} (h : segments.foldlM (descend fs) l = .ok m) :
    m = segments.foldl (Path.along follow) l := by
  induction segments generalizing l with
  | nil =>
    cases h
    rfl
  | cons segment segments ih =>
    rw [List.foldlM_cons] at h
    cases hn : fs.descend l segment with
    | error e =>
      rw [hn] at h
      cases h
    | ok next =>
      rw [hn] at h
      rw [List.foldl_cons, ← (descend_ok hn).2]
      exact ih h

theorem locate_eq_foldl (h : fs.locate p = .ok l) :
    l = (p.text.splitOn '/').foldl (Path.along follow) (if p.isAbsolute then [] else fs.cwd) :=
  foldlM_descend_ok (foldlM_of_locate h)

/-- Where a path leads to if it leads anywhere. -/
def reached (fs : FileSystem) (p : Path) : Location := p.parts.foldl follow fs.cwd

theorem reached_eq_foldl (fs : FileSystem) (p : Path) : fs.reached p =
    (p.text.splitOn '/').foldl (Path.along follow) (if p.isAbsolute then [] else fs.cwd) :=
  p.foldl_parts (fun _ => rfl) fs.cwd

theorem reached_of_locate (h : fs.locate p = .ok l) : fs.reached p = l := by
  rw [locate_eq_foldl h, reached_eq_foldl]

/-- Equal paths lead to one location, if they lead anywhere. -/
theorem locate_unique (hp : fs.locate p = .ok l) (hq : fs.locate q = .ok m)
    (h : p.parts = q.parts) : m = l := by
  rw [← reached_of_locate hp, ← reached_of_locate hq, reached, reached, h]

/-- The working directory is a directory with a name, and so is every one above it. -/
structure WellPlaced (fs : FileSystem) : Prop where
  directory : ∀ above, above <+: fs.cwd → fs.node? above = some .directory
  named : fs.cwd.IsNamed

/-- All that stands above a location is a directory. -/
private def Below (fs : FileSystem) (l : Location) : Prop :=
  ∀ above, above <+: l → above ≠ l → fs.node? above = some .directory

private theorem Below.of_directory (h : fs.Below l) (hl : fs.node? l = some .directory)
    {above : Location} (ha : above <+: l) : fs.node? above = some .directory := by
  by_cases he : above = l
  · rw [he, hl]
  · exact h above ha he

private theorem Below.descend {segment : Text} (h : fs.Below l) (hm : fs.descend l segment = .ok m) :
    fs.Below m := by
  obtain ⟨hl, rfl⟩ := descend_ok hm
  intro above ha hne
  rcases Path.segment_cases segment with hs | rfl | hs
  · rw [Path.along_idle hs] at ha
    exact h.of_directory hl ha
  · exact h.of_directory hl (ha.trans (List.dropLast_prefix l))
  · rw [Path.along_name hs] at ha hne
    exact h.of_directory hl ((List.prefix_concat_iff.mp ha).resolve_left hne)

private theorem Below.foldlM {segments : List Text} (h : fs.Below l)
    (hm : segments.foldlM (FileSystem.descend fs) l = .ok m) : fs.Below m := by
  induction segments generalizing l with
  | nil =>
    cases hm
    exact h
  | cons segment segments ih =>
    rw [List.foldlM_cons] at hm
    cases hn : fs.descend l segment with
    | error e =>
      rw [hn] at hm
      cases hm
    | ok next =>
      rw [hn] at hm
      exact ih (h.descend hn) hm

private theorem named_foldl {segments : List Text} (hs : ∀ s ∈ segments, '/' ∉ s)
    (hl : l.IsNamed) : Location.IsNamed (segments.foldl (Path.along follow) l) := by
  induction segments generalizing l with
  | nil => exact hl
  | cons s segments ih =>
    refine ih (fun t ht => hs t (List.mem_cons_of_mem s ht)) fun name hname => ?_
    rcases Path.segment_cases s with hidle | rfl | hsname
    · rw [Path.along_idle hidle] at hname
      exact hl name hname
    · exact hl name (List.dropLast_subset l hname)
    · rw [Path.along_name hsname] at hname
      rcases List.mem_append.mp hname with hname | hname
      · exact hl name hname
      · rw [List.mem_singleton.mp hname]
        exact ⟨hsname.1, hs s List.mem_cons_self⟩

/-- A location that a path leads to consists of names. -/
theorem named_of_locate (hd : fs.WellPlaced) (h : fs.locate p = .ok l) : l.IsNamed := by
  rw [locate_eq_foldl h]
  refine named_foldl (fun s hs => Path.slash_not_mem hs) ?_
  split
  · exact fun name hname => absurd hname List.not_mem_nil
  · exact hd.named

/-- The path of a file ends in a name, and what comes before leads to the directory of the file. -/
theorem locate_file {content : Bytes} (hd : fs.WellPlaced) (h : fs.locate p = .ok l)
    (hl : fs.node? l = some (.file content)) :
    ∃ front name, p.text.splitOn '/' = front ++ [name] ∧ Path.IsName name ∧
      front.foldl (Path.along follow) (if p.isAbsolute then [] else fs.cwd) = l.dropLast := by
  have hstart : fs.Below (if p.isAbsolute then [] else fs.cwd) := by
    split
    · exact fun above ha hne => absurd (List.prefix_nil.mp ha) hne
    · exact fun above ha _ => hd.directory above ha
  have hwalk := foldlM_of_locate h
  obtain ⟨front, name, hfront⟩ : ∃ front name, p.text.splitOn '/' = front ++ [name] :=
    ⟨_, _, (List.dropLast_concat_getLast (List.splitOn_ne_nil '/' p.text)).symm⟩
  rw [hfront, List.foldlM_append] at hwalk
  cases hm : front.foldlM (descend fs) (if p.isAbsolute then [] else fs.cwd) with
  | error e =>
    rw [hm] at hwalk
    cases hwalk
  | ok m =>
    rw [hm] at hwalk
    have hlast : fs.descend m name = .ok l := by
      rw [← bind_pure (fs.descend m name)]
      exact hwalk
    obtain ⟨hdir, rfl⟩ := descend_ok hlast
    have hbelow := hstart.foldlM hm
    refine ⟨front, name, hfront, ?_⟩
    rcases Path.segment_cases name with hs | rfl | hs
    · rw [Path.along_idle hs, hdir] at hl
      cases hl
    · have habove := hbelow.of_directory hdir (List.dropLast_prefix m)
      rw [Path.along_up] at hl
      cases habove.symm.trans hl
    · refine ⟨hs, ?_⟩
      rw [← foldlM_descend_ok hm, Path.along_name hs]
      exact List.dropLast_concat.symm

/-! ## Writing

What is written is a file below the directory that its path names, and nothing but missing
directories is created on the way to a directory. -/

theorem node?_put (fs : FileSystem) (l : Location) (n : FileNode) (m : Location) :
    (fs.put l n).node? m = if m = l then some n else fs.node? m := by
  unfold node? put
  dsimp only
  rw [List.find?_append]
  by_cases h : m = l
  · subst h
    have hnone : (fs.nodes.filter fun n => n.1 != m).find? (fun n => n.1 == m) = none := by
      rw [List.find?_eq_none]
      intro x hx
      simpa using (List.mem_filter.mp hx).2
    rw [hnone, if_pos rfl, Option.none_or, List.find?_cons_of_pos (by simp)]
  · have hsame : (fs.nodes.filter fun n => n.1 != l).find? (fun n => n.1 == m) =
        fs.nodes.find? fun n => n.1 == m := by
      rw [List.find?_filter]
      congr 1
      funext x
      by_cases hx : x.1 = m
      · simp [hx, h]
      · simp [hx]
    have hlast : ([(l, n)] : List (Location × FileNode)).find? (fun n => n.1 == m) = none := by
      simp [Ne.symm h]
    rw [hsame, hlast, Option.or_none, if_neg h]

/-- The systems hold the same files and are seen from the same directory. -/
structure SameFiles (fs other : FileSystem) : Prop where
  cwd : other.cwd = fs.cwd
  files : ∀ m content, other.node? m = some (.file content) ↔ fs.node? m = some (.file content)

private theorem sameFiles_createAlong {made : FileSystem} {segments : List Text}
    (h : fs.createAlong l segments = .ok made) : fs.SameFiles made := by
  induction segments generalizing fs l with
  | nil =>
    cases h
    exact ⟨rfl, fun _ _ => Iff.rfl⟩
  | cons s rest ih =>
    unfold createAlong at h
    split at h
    · exact ih h
    split at h
    · exact ih h
    split at h
    · cases h
    split at h
    · exact ih h
    · cases h
    · next hnone =>
      obtain ⟨hcwd, hfiles⟩ := ih h
      refine ⟨hcwd, fun m content => (hfiles m content).trans ?_⟩
      rw [node?_put]
      split
      · next hm =>
        rw [hm, hnone]
        exact iff_of_false nofun nofun
      · exact Iff.rfl

theorem sameFiles_createDirectories {made : FileSystem} (h : fs.createDirectories p = .ok made) :
    fs.SameFiles made := by
  unfold createDirectories at h
  split at h
  · cases h
  · exact sameFiles_createAlong h

/-- A file is written under the last name of its path, where the segments before lead to. -/
theorem write_ok {content : Bytes} {after : FileSystem} (h : fs.write p content = .ok after) :
    ∃ front name, p.text.splitOn '/' = front ++ [name] ∧
      after = fs.put (Location.child (front.foldl (Path.along follow)
        (if p.isAbsolute then [] else fs.cwd)) name) (.file content) := by
  obtain ⟨front, name, hfront⟩ : ∃ front name, p.text.splitOn '/' = front ++ [name] :=
    ⟨_, _, (List.dropLast_concat_getLast (List.splitOn_ne_nil '/' p.text)).symm⟩
  refine ⟨front, name, hfront, ?_⟩
  unfold write at h
  simp only [bind, Except.bind, pure, Except.pure, hfront, List.dropLast_concat,
    List.getLast?_concat] at h
  split at h
  · cases h
  split at h
  · cases h
  split at h
  · cases h
  next reached hreached =>
  split at h
  · cases h
  next directory hdirectory =>
  obtain ⟨rfl, -⟩ := directoryAt_ok hdirectory
  rw [← foldlM_descend_ok hreached]
  split at h
  · cases h
  · cases h
  · cases h
  · cases h
  next last hlast =>
  cases hlast
  split at h
  · cases h
  split at h
  · cases h
  · cases h
    rfl

end FileSystem

end ConversationFlow
