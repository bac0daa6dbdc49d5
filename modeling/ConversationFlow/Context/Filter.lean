import ConversationFlow.Context.Error
import ConversationFlow.Settings

/-!
# Which files may be loaded

A filter allows and denies files by patterns. A denial wins; if anything is allowed by
name, only that is allowed. A pattern for files is matched with the path, with the
path seen from the base and with the bare name; a pattern for directories with the
directories above the file.
-/

namespace ConversationFlow

/-- The patterns of a filter, and the directory from which paths are seen. -/
structure PathFilter where
  base : Path
  allowFiles : List Glob
  denyFiles : List Glob
  allowDirs : List Glob
  denyDirs : List Glob

namespace PathFilter

def pattern (t : Text) : Except ContextError Glob :=
  let t := ((t.dropWhile (· = '@')).reverse.dropWhile (· = '/')).reverse
  match Glob.read t with
  | .ok g => .ok g
  | .error e => .error (.invalidPattern t (.glob e))

/-- The filter of a conversation. What is excluded from the context is denied. -/
def ofSettings (s : Settings) (base : Path) : Except ContextError PathFilter := do
  let allowFiles ← s.allowFiles.mapM pattern
  let denyFiles ← (s.denyFiles ++ s.contextExclude).mapM pattern
  let allowDirs ← s.allowDirs.mapM pattern
  let denyDirs ← s.denyDirs.mapM pattern
  return { base, allowFiles, denyFiles, allowDirs, denyDirs }

def isEmpty (f : PathFilter) : Bool :=
  f.allowFiles.isEmpty && f.denyFiles.isEmpty && f.allowDirs.isEmpty && f.denyDirs.isEmpty

private def fileHit (path relative : Path) (patterns : List Glob) : Bool :=
  patterns.any fun g =>
    g.accepts relative.text || g.accepts path.text || relative.fileName?.any g.accepts

private def directoryHit (relative : Path) (patterns : List Glob) : Bool :=
  (relative.ancestors.filter fun a => !a.isEmpty).any fun a =>
    patterns.any fun g => g.accepts a.text || a.fileName?.any g.accepts

/-- Whether a file may be loaded. -/
def allows (f : PathFilter) (path : Path) : Bool :=
  let relative := path.shownFrom f.base
  if fileHit path relative f.denyFiles || directoryHit relative f.denyDirs then false
  else if f.allowFiles.isEmpty && f.allowDirs.isEmpty then true
  else fileHit path relative f.allowFiles || directoryHit relative f.allowDirs

end PathFilter

end ConversationFlow
