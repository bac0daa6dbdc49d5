import Mathlib.Data.List.Forall2
import ConversationFlow.Context.Tracker

/-!
# File systems that differ in contents

Two file systems are alike if they hold the same directories and the same files, and the contents
of each file are related. Where a path leads to, which paths there are and which of them match a
pattern are then the same; only what is read may differ, and it is related.
-/

namespace ConversationFlow

variable {R : Bytes → Bytes → Prop}

/-- Two nodes of one kind; two files have related contents. -/
inductive FileNode.Alike (R : Bytes → Bytes → Prop) : FileNode → FileNode → Prop where
  | file {a b : Bytes} (contents : R a b) : Alike R (.file a) (.file b)
  | directory : Alike R .directory .directory

namespace FileSystem

/-- Two file systems with the same paths, seen from the same directory. -/
structure Alike (R : Bytes → Bytes → Prop) (fs gs : FileSystem) : Prop where
  cwd : fs.cwd = gs.cwd
  nodes : List.Forall₂ (fun m n => m.1 = n.1 ∧ FileNode.Alike R m.2 n.2) fs.nodes gs.nodes

namespace Alike

variable {fs gs : FileSystem} {l : Location} {p : Path}

theorem refl (hR : ∀ b, R b b) (fs : FileSystem) : Alike R fs fs := by
  refine ⟨rfl, List.forall₂_same.mpr fun m _ => ⟨rfl, ?_⟩⟩
  cases m.2 with
  | file b => exact .file (hR b)
  | directory => exact .directory

/-! ## Where paths lead to -/

/-- At each location stand alike nodes, or none. -/
theorem node_cases (h : Alike R fs gs) (l : Location) :
    (fs.node? l = none ∧ gs.node? l = none) ∨
      ∃ m n, fs.node? l = some m ∧ gs.node? l = some n ∧ FileNode.Alike R m n := by
  unfold node?
  obtain ⟨-, hnodes⟩ := h
  generalize fs.nodes = ms, gs.nodes = ns at hnodes ⊢
  induction hnodes with
  | nil =>
    dsimp only [List.find?]
    split
    · exact .inr ⟨_, _, rfl, rfl, .directory⟩
    · exact .inl ⟨rfl, rfl⟩
  | @cons m n ms ns hmn _ ih =>
    obtain ⟨hlocation, hnode⟩ := hmn
    rw [List.find?_cons, List.find?_cons, hlocation]
    cases n.1 == l with
    | true => exact .inr ⟨_, _, rfl, rfl, hnode⟩
    | false => exact ih

theorem directoryAt_eq (h : Alike R fs gs) (l : Location) :
    fs.directoryAt l = gs.directoryAt l := by
  unfold directoryAt
  obtain ⟨hm, hn⟩ | ⟨m, n, hm, hn, hnode⟩ := h.node_cases l
  · rw [hm, hn]
  · rw [hm, hn]
    cases hnode <;> rfl

theorem descend_eq (h : Alike R fs gs) : fs.descend = gs.descend := by
  funext l segment
  unfold descend
  rw [h.directoryAt_eq l]
  congr 1
  funext m
  obtain ⟨hm, hn⟩ | ⟨_, _, hm, hn, -⟩ := h.node_cases (m ++ [segment]) <;> rw [hm, hn]

theorem locate_eq (h : Alike R fs gs) : fs.locate = gs.locate := by
  funext p
  unfold locate
  rw [h.descend_eq, h.cwd]

/-- A path leads to alike nodes, or to none. -/
theorem nodeAt_cases (h : Alike R fs gs) (p : Path) :
    (fs.nodeAt? p = none ∧ gs.nodeAt? p = none) ∨
      ∃ m n, fs.nodeAt? p = some m ∧ gs.nodeAt? p = some n ∧ FileNode.Alike R m n := by
  unfold nodeAt?
  rw [h.locate_eq]
  cases (gs.locate p).toOption with
  | none => exact .inl ⟨rfl, rfl⟩
  | some l => exact h.node_cases l

theorem pathExists_eq (h : Alike R fs gs) : fs.pathExists = gs.pathExists := by
  funext p
  unfold pathExists
  obtain ⟨hm, hn⟩ | ⟨_, _, hm, hn, -⟩ := h.nodeAt_cases p <;> simp only [hm, hn, Option.isSome]

theorem isFile_eq (h : Alike R fs gs) : fs.isFile = gs.isFile := by
  funext p
  unfold isFile
  obtain ⟨hm, hn⟩ | ⟨_, _, hm, hn, hnode⟩ := h.nodeAt_cases p
  · rw [hm, hn]
  · rw [hm, hn]
    cases hnode <;> rfl

theorem isDirectory_eq (h : Alike R fs gs) : fs.isDirectory = gs.isDirectory := by
  funext p
  unfold isDirectory
  obtain ⟨hm, hn⟩ | ⟨_, _, hm, hn, hnode⟩ := h.nodeAt_cases p
  · rw [hm, hn]
  · rw [hm, hn]
    cases hnode <;> rfl

/-- What is read on both sides is related, or there is one error. -/
theorem read_cases (h : Alike R fs gs) (p : Path) :
    (∃ e, fs.read p = .error e ∧ gs.read p = .error e) ∨
      ∃ a b, fs.read p = .ok a ∧ gs.read p = .ok b ∧ R a b := by
  unfold read
  rw [h.locate_eq]
  cases gs.locate p with
  | error e => exact .inl ⟨e, rfl, rfl⟩
  | ok l =>
    dsimp only [bind, Except.bind]
    unfold bytesAt
    obtain ⟨hm, hn⟩ | ⟨_, _, hm, hn, hnode⟩ := h.node_cases l
    · rw [hm, hn]
      exact .inl ⟨_, rfl, rfl⟩
    · rw [hm, hn]
      cases hnode with
      | file contents => exact .inr ⟨_, _, rfl, rfl, contents⟩
      | directory => exact .inl ⟨_, rfl, rfl⟩

/-! ## Which paths there are -/

theorem locations_eq (h : Alike R fs gs) : fs.nodes.map (·.1) = gs.nodes.map (·.1) := by
  obtain ⟨-, hnodes⟩ := h
  generalize fs.nodes = ms, gs.nodes = ns at hnodes ⊢
  induction hnodes with
  | nil => rfl
  | cons hmn _ ih => rw [List.map_cons, List.map_cons, hmn.1, ih]

/-- What is gathered from the locations alone is the same. -/
theorem filterMap_eq {α : Type} (h : Alike R fs gs) (f : Location → Option α) :
    (fs.nodes.filterMap fun (m, _) => f m) = gs.nodes.filterMap fun (m, _) => f m := by
  have hmap (hs : FileSystem) :
      (hs.nodes.filterMap fun (m, _) => f m) = (hs.nodes.map (·.1)).filterMap f := by
    rw [List.filterMap_map]
    rfl
  rw [hmap, hmap, h.locations_eq]

theorem children_eq (h : Alike R fs gs) : fs.children = gs.children := by
  funext l
  unfold children
  rw [h.filterMap_eq fun m => if m.dropLast = l && !m.isEmpty then m.getLast? else none]

theorem filesBelow_eq (h : Alike R fs gs) : fs.filesBelow = gs.filesBelow := by
  funext l
  unfold filesBelow
  obtain ⟨-, hnodes⟩ := h
  generalize fs.nodes = ms, gs.nodes = ns at hnodes ⊢
  induction hnodes with
  | nil => rfl
  | @cons m n ms ns hmn _ ih =>
    obtain ⟨hlocation, hnode⟩ := hmn
    obtain ⟨m, a⟩ := m
    obtain ⟨n, b⟩ := n
    obtain rfl : m = n := hlocation
    rw [List.filterMap_cons, List.filterMap_cons, ih]
    cases hnode <;> rfl

end Alike

end FileSystem

namespace Glob

variable {fs gs : FileSystem}

theorem below_eq (h : fs.Alike R gs) : below fs = below gs := by
  funext p
  unfold below
  rw [h.locate_eq]
  cases gs.locate p with
  | error e => rfl
  | ok l =>
    exact h.filterMap_eq fun m =>
      if m.take l.length = l ∧ l.length < m.length then some (m.drop l.length) else none

theorem childPaths_eq (h : fs.Alike R gs) : childPaths fs = childPaths gs := by
  funext p
  unfold childPaths
  rw [h.locate_eq, h.children_eq]

/-- The walk reads no file. A component for any directories is taken together with the next one, so
the recursion goes one component down or two. -/
theorem walk_eq (h : fs.Alike R gs) (directories : Bool) :
    ∀ globs p, walk fs directories globs p = walk gs directories globs p
  | [], p => by
    unfold walk
    rw [h.isDirectory_eq]
  | [g], p => by
    unfold walk
    simp only [h.isDirectory_eq, h.pathExists_eq, below_eq h, childPaths_eq h,
      walk_eq h directories []]
  | g :: next :: rest, p => by
    unfold walk
    simp only [h.isDirectory_eq, h.pathExists_eq, below_eq h, childPaths_eq h,
      walk_eq h directories (next :: rest), walk_eq h directories rest]

end Glob

/-- The same paths match a pattern. -/
theorem FileSystem.Alike.expand_eq {fs gs : FileSystem} (h : fs.Alike R gs) :
    fs.expand = gs.expand := by
  funext pattern
  unfold FileSystem.expand
  simp only [Glob.walk_eq h]

namespace ContextScope

variable {fs gs : FileSystem}

theorem filesOf_eq (h : fs.Alike R gs) : filesOf fs = filesOf gs := by
  funext p
  unfold filesOf
  rw [h.expand_eq, h.isFile_eq, h.locate_eq, h.filesBelow_eq]
  split
  · rfl
  · cases gs.locate p with
    | error e => rfl
    | ok l =>
      obtain ⟨hm, hn⟩ | ⟨_, _, hm, hn, hnode⟩ := h.node_cases l
      · simp only [hm, hn]
      · cases hnode <;> simp only [hm, hn]

theorem firstFound_eq (h : fs.Alike R gs) : firstFound fs = firstFound gs := by
  funext raw bases
  induction bases with
  | nil => rfl
  | cons base rest ih => rw [firstFound, firstFound, filesOf_eq h, ih]

/-- The same files are found by a pattern. -/
theorem resolve_eq (h : fs.Alike R gs) (s : ContextScope) (pattern : Text) :
    s.resolve fs pattern = s.resolve gs pattern := by
  unfold resolve
  rw [filesOf_eq h, firstFound_eq h]

end ContextScope

end ConversationFlow
