import ConversationFlow.Calendar
import ConversationFlow.CommandLine.Program

/-!
# The executable

Brings in the files that a command line needs, runs the program on them, prints what it prints
and writes the files that it wrote. Files are brought in as far as the conversations ask for them:
the files that are named on the command line, those that these include or name, the context, the
checkout around them, and the user's configuration. The content of no other file is read.
-/

namespace ConversationFlow.Main

private def shown (l : Location) : String := String.ofList l.path.text

private def toLocation (path : String) : Location :=
  (path.toList.splitOn '/').filter fun s => !s.isEmpty

/-! ## Looking -/

/-- What stands at a location: a directory, or a regular file, with its content if that is wanted.
Devices, sockets and what cannot be read are passed over. -/
def look (content : Bool) (l : Location) : IO (Option FileNode) := do
  let path := (← IO.currentDir) / shown l
  let .ok found ← path.metadata.toBaseIO | return none
  match found.type with
  | .dir => return some .directory
  | .file =>
    if !content then return some (.file [])
    let .ok bytes ← (IO.FS.readBinFile path).toBaseIO | return none
    return some (.file bytes.toList)
  | _ => return none

/-- Directories whose trees are not searched: what the system makes up, and the stored objects of a
checkout. -/
def isSkipped (l : Location) (name : Text) : Bool :=
  if l.isEmpty then ["proc", "sys", "dev"].any fun n => n.toList = name
  else l.getLast? = some ".git".toList && name = "objects".toList

/-- The names in a directory that is searched; links to directories are left out, since they may
lead back. -/
def namesIn (l : Location) : IO (List Text) := do
  let .ok entries ← ((← IO.currentDir) / shown l).readDir.toBaseIO | return []
  let kept ← entries.toList.filterM fun e => do
    let .ok found ← e.path.symlinkMetadata.toBaseIO | return false
    return found.type != .symlink || !(← e.path.isDir)
  return (kept.map fun e => e.fileName.toList).filter fun name => !isSkipped l name

/-- The nodes at and below the locations, those near the top first, up to a number of nodes. -/
def survey (content : Bool) : (left : Nat) → List (Location × FileNode) → List Location →
    IO (List (Location × FileNode))
  | 0, found, _ | _, found, [] => return found.reverse
  | left + 1, found, l :: rest => do
    match ← look content l with
    | none => survey content left found rest
    | some (.file bytes) => survey content left ((l, .file bytes) :: found) rest
    | some .directory =>
      survey content left ((l, .directory) :: found) (rest ++ (← namesIn l).map l.child)

/-- The number of nodes up to which a tree is searched. -/
def surveyLimit : Nat := 20000

/-! ## Bringing in -/

/-- The locations above a location. -/
def above (l : Location) : List Location := (List.range l.length).tail.map fun n => l.take n

/-- Brings in a node, in place of one that was brought in before. -/
def bringNode (content : Bool) (fs : FileSystem) (l : Location) : IO FileSystem :=
  return match ← look content l with
  | none => fs
  | some node => fs.put l node

/-- Brings in what stands at a location, with the directories above it. -/
def bring (fs : FileSystem) (l : Location) : IO FileSystem := do
  let around := (above l).filter fun m => fs.nodes.all fun n => n.1 ≠ m
  bringNode true (← around.foldlM (bringNode false) fs) l

/-- Brings in the tree at a location. -/
def bringTree (content : Bool) (fs : FileSystem) (l : Location) : IO FileSystem := do
  let fs ← bring fs l
  let found ← survey content surveyLimit [] [l]
  let known := fs.nodes.map (·.1)
  return { fs with nodes := fs.nodes ++ found.filter fun n => !known.contains n.1 }

/-! ## What a conversation asks for -/

/-- The files that a conversation includes. -/
def included (file : Path) (text : Text) : List Path :=
  (Directive.ofDocument .empty text).filterMap fun d =>
    match d.instruction (some file) with
    | .ok (.includeFile target) => some (Event.includePath (some file) target)
    | _ => none

/-- The words and the quoted parts of a text that may be the name of a file, without the lines that
a reference may select. -/
def candidates (text : Text) : List Text :=
  let isQuote (c : Char) : Bool := c = '"' || c = '\''
  let parts := text.splitOnP (fun c => isQuote c || c = '\n')
    ++ text.splitOnP fun c => isQuote c || Text.isBlank c
  let plain := (parts.map fun t => (Text.trim t).dropWhile (· = '@')).filter fun t =>
    !t.isEmpty && !Glob.isPattern t
  (plain ++ plain.map fun t => t.takeWhile (· ≠ '#')).eraseDups

/-- Brings in conversations, what they include and what they name. Each is opened once, and no more
than a number of them. -/
def bringConversations : (left : Nat) → (opened : List Location) → FileSystem → List Path →
    IO FileSystem
  | 0, _, fs, _ | _, _, fs, [] => return fs
  | left + 1, opened, fs, file :: rest => do
    let l := fs.reached file
    if opened.contains l then bringConversations left opened fs rest
    else
      let fs ← bring fs l
      let text := (fs.readText file).toOption.getD []
      let places := [fs.cwd.path, Event.includeBase (some file)].flatMap fun base =>
        (candidates text).map fun name => fs.reached (base.join ⟨name⟩)
      let fs ← (places.eraseDups.filter (· ≠ l)).foldlM bring fs
      bringConversations left (l :: opened) fs (rest ++ included file text)

/-- Brings in the references and the context of a conversation, as they are found from a directory.
For the context, first come the names below the directories in which it is looked up, and then the
files that belong to it. -/
def bringContext (cwd : Path) (fs : FileSystem) (file : Path) : IO FileSystem := do
  let .ok c := Conversation.ofFile fs .empty file | return fs
  let scope : ContextScope := ⟨cwd.within c.settings.cwd, some c.baseDir⟩
  let referred := c.settings.refcatRefs.flatMap candidates
  let fs ← (scope.bases.flatMap fun base =>
    referred.map fun name => fs.reached (base.join ⟨name⟩)).foldlM bring fs
  let patterns := c.settings.context ++ c.settings.contextOptional
  if patterns.isEmpty then return fs
  let fs ← (scope.bases.map fs.reached).foldlM (bringTree false) fs
  let found := patterns.flatMap fun p => ((scope.resolve fs p).toOption).getD []
  (found.map fs.reached).eraseDups.foldlM bring fs

end Main

namespace CommandLine.Job

/-- The conversations of a job. -/
def conversations : Job → List Path
  | .validate files => files
  | .render file _ _ _ _ _ | .inspect file => [file]

/-- The directory that a job is done in, if it is named. -/
def directory? : Job → Option Path
  | .render _ _ _ _ cwd _ => cwd
  | .validate _ | .inspect _ => none

/-- The file that a job writes, if it is named. -/
def target? : Job → Option Path
  | .render _ _ _ _ _ output => output
  | .validate _ | .inspect _ => none

end CommandLine.Job

namespace Main

/-- The names of the programs on the search path. -/
def programNames : IO (List Text) := do
  let directories := (((← IO.getEnv "PATH").getD "").toList.splitOn ':').filter (!·.isEmpty)
  return (← directories.mapM fun d => namesIn (toLocation (String.ofList d))).flatten

/-- A directory of the user: that of a variable, or one below the home directory. -/
def userDirectory (variable_ fallback : String) : IO Path := do
  match ← IO.getEnv variable_ with
  | some d => if d.isEmpty then atHome else return ⟨d.toList⟩
  | none => atHome
where
  atHome : IO Path := do
    let home : Path := ⟨((← IO.getEnv "HOME").getD ".").toList⟩
    return home.join ⟨fallback.toList⟩

/-- The number of conversations that are opened at most. -/
def conversationLimit : Nat := 4096

/-- The files that a command line needs. -/
def gather (configHome dataHome : Path) (line : CommandLine) : IO FileSystem := do
  let here := toLocation (← IO.currentDir).toString
  let fs : FileSystem := { FileSystem.empty with cwd := here, programs := ← programNames }
  let cwd := line.job.directory?.getD here.path
  let settings := Config.projectFile :: Config.userFile configHome :: line.config.toList
  let logs := (dataHome.join "convofile").join "logs"
  let named := cwd :: logs :: logs.join "cf.log" :: settings ++ line.job.target?.toList
  let fs ← ((here :: named.map fs.reached).eraseDups).foldlM bring fs
  let around := (fs.reached cwd :: above (fs.reached cwd)).map (·.child ".git".toList)
  let fs ← around.foldlM (bringTree true) fs
  let fs ← bringConversations conversationLimit [] fs line.job.conversations
  line.job.conversations.foldlM (bringContext cwd) fs

/-- The current time in seconds since the beginning of 1970: when the system made up what it shows
of this process. Where it shows nothing, time stands still. -/
def seconds : IO Nat := do
  let .ok process ← (IO.FS.realPath "/proc/self").toBaseIO | return 0
  let .ok found ← process.metadata.toBaseIO | return 0
  return found.modified.sec.toNat

/-- Writes a node where it belongs. -/
def store : Location × FileNode → IO Unit
  | (l, .directory) => IO.FS.createDirAll (shown l)
  | (l, .file bytes) => IO.FS.writeBinFile (shown l) ⟨bytes.toArray⟩

end ConversationFlow.Main

open ConversationFlow in
/-- Runs the program on its words. -/
def main (words : List String) : IO UInt32 := do
  let words := words.map String.toList
  let configHome ← Main.userDirectory "XDG_CONFIG_HOME" ".config"
  let dataHome ← Main.userDirectory "XDG_DATA_HOME" ".local/share"
  let files ← match CommandLine.read words with
    | .ok line => Main.gather configHome dataHome line
    | .error _ => pure .empty
  let setting := ⟨files, configHome, dataHome, Calendar.moment (← Main.seconds)⟩
  let (outcome, left) := CommandLine.run setting words
  (← IO.getStdout).putStr (String.ofList outcome.output)
  (← IO.getStderr).putStr (String.ofList outcome.errors)
  let .error e ← ((left.putSince files).forM Main.store).toBaseIO | return outcome.code.toUInt32
  (← IO.getStderr).putStr ("Error: " ++ toString e ++ "\n")
  return 1
