import ConversationFlow.Proofs.Compilation.Nesting
import Mathlib.Data.List.Chain
import Mathlib.Data.List.Forall2
import Mathlib.Data.List.Nodup
import Mathlib.Data.List.Perm.Subperm
import Mathlib.Logic.Relation

/-!
# Include cycles

A frame is a file that is being read, with the files that are open around it. Frames open frames as
the compiler opens files, and paths include paths as the directives of their files say. The first
relation comes to an end wherever there are finitely many files; the second one may come back to a
file, and the compiler finds where it does: it reports an include cycle exactly there, and what it
compiles has none. Where an INCLUDE leads depends on the path by which its file was opened, and with
links a file may be opened by many. Only where that makes no difference, as in a file system without
links, is there more to say of the files alone: then no compiled file leads to itself, whatever path
is taken.
-/

namespace ConversationFlow

open Relation (ReflTransGen TransGen)

/-! ## Where an INCLUDE leads -/

/-- The file that the one path leads to holds an INCLUDE, which names the other path if the file is
opened by the first. -/
def Includes (src : Sources) (registry : Registry) (p q : Path) : Prop :=
  ∃ (l : Location) (t : Text) (x : Directive) (target : Text),
    src.locate p = .ok l ∧ src.textAt l = .ok t ∧ x ∈ Directive.ofDocument registry t ∧
      x.instruction (some p) = .ok (.includeFile target) ∧ q = Event.includePath (some p) target

/-- Some path to the one file includes a path to the other. -/
def IncludesFile (src : Sources) (registry : Registry) (l m : Location) : Prop :=
  ∃ p q, Includes src registry p q ∧ src.locate p = .ok l ∧ src.locate q = .ok m

namespace Sources

/-- Canonical locations are made of names. -/
def IsNamed (src : Sources) : Prop := ∀ p l, src.locate p = .ok l → l.IsNamed

/-- Where the INCLUDE of a file leads does not depend on the path by which the file is opened. -/
def IsSteady (src : Sources) : Prop :=
  ∀ {p q l t target m n}, src.locate p = .ok l → src.locate q = .ok l → src.textAt l = .ok t →
    src.locate (Event.includePath (some p) target) = .ok m →
    src.locate (Event.includePath (some q) target) = .ok n → m = n

end Sources

/-- The location that a target leads to from the file at a location, if it leads anywhere. -/
def Location.included (l : Location) (target : Text) : Location :=
  let q : Path := ⟨target.dropWhile (· = '@')⟩
  (q.text.splitOn '/').foldl (Path.along FileSystem.follow) (if q.isAbsolute then [] else l.dropLast)

namespace FileSystem

variable {fs : FileSystem} {p : Path} {l m : Location} {t target : Text}

theorem node_of_textAt (h : fs.textAt l = .ok t) : ∃ content, fs.node? l = some (.file content) := by
  unfold textAt bytesAt at h
  cases hn : fs.node? l with
  | none =>
    rw [hn] at h
    cases h
  | some n =>
    cases n with
    | file content => exact ⟨content, rfl⟩
    | directory =>
      rw [hn] at h
      cases h

/-- Without links, an INCLUDE leads from the directory of its file, whichever path led there. -/
theorem locate_includePath (hd : fs.WellPlaced) (hp : fs.locate p = .ok l) (ht : fs.textAt l = .ok t)
    (hm : fs.locate (Event.includePath (some p) target) = .ok m) : m = l.included target := by
  obtain ⟨content, hfile⟩ := node_of_textAt ht
  obtain ⟨front, name, hfront, hname, hdir⟩ := locate_file hd hp hfile
  obtain ⟨base, hparent, before, after, rfl, hafter, hjoin⟩ := Path.exists_parent hfront hname
  have hbase : Event.includePath (some p) target = base.join ⟨target.dropWhile (· = '@')⟩ := by
    unfold Event.includePath Event.includeBase
    rw [Option.bind_some, hparent]
    rfl
  rw [hbase] at hm
  rw [locate_eq_foldl hm]
  unfold Location.included
  dsimp only
  cases hq : Path.isAbsolute ⟨target.dropWhile (· = '@')⟩ with
  | true =>
    have hself : base.join ⟨target.dropWhile (· = '@')⟩ = ⟨target.dropWhile (· = '@')⟩ := by
      unfold Path.join
      rw [hq]
      rfl
    rw [hself, hq]
    rfl
  | false =>
    obtain ⟨hsplit, habsolute⟩ := hjoin _ hq
    rw [hsplit, habsolute, List.foldl_append, ← hdir, List.foldl_append, Path.foldl_idle hafter]
    rfl

theorem WellPlaced.isSteady (hd : fs.WellPlaced) : fs.sources.IsSteady := fun hp hq ht hm hn =>
  (locate_includePath hd hp ht hm).trans (locate_includePath hd hq ht hn).symm

theorem WellPlaced.isNamed (hd : fs.WellPlaced) : fs.sources.IsNamed := fun _ _ hp =>
  named_of_locate hd hp

end FileSystem

/-- A file system in which the files at some locations are links to others. -/
def FileSystem.linked (fs : FileSystem) (links : List (Location × Location)) : Sources where
  locate p := (fs.locate p).map fun l => (links.lookup l).getD l
  textAt := fs.textAt
  files := fs.sources.files
  locate_unique := by
    intro p q l m hp hq h
    cases hl : fs.locate p with
    | error e =>
      rw [hl] at hp
      cases hp
    | ok l' =>
      cases hm : fs.locate q with
      | error e =>
        rw [hm] at hq
        cases hq
      | ok m' =>
        rw [hl] at hp
        rw [hm, FileSystem.locate_unique hl hm h] at hq
        exact Except.ok.inj (hq.symm.trans hp)
  mem_files := fs.sources.mem_files

/-- A location is named by its path. -/
theorem Location.path_injOn {l m : Location} (hl : l.IsNamed) (hm : m.IsNamed)
    (h : l.path = m.path) : l = m := by
  have hjoin : Text.join ['/'] l = Text.join ['/'] m := (List.cons.inj (congrArg Path.text h)).2
  have hsplit {l : Location} (hl : l.IsNamed) (hne : l ≠ []) :
      (Text.join ['/'] l).splitOn '/' = l :=
    List.splitOn_intercalate '/' (fun name hname => (hl name hname).2) hne
  have hroot {l : Location} (hl : l.IsNamed) (h : Text.join ['/'] l = []) : l = [] := by
    by_contra hne
    have hone := hsplit hl hne
    rw [h, List.splitOn_nil] at hone
    exact (hl [] (hone ▸ List.mem_singleton_self [])).1 rfl
  by_cases hlnil : l = []
  · subst hlnil
    exact (hroot hm hjoin.symm).symm
  · by_cases hmnil : m = []
    · subst hmnil
      exact hroot hl hjoin
    · rw [← hsplit hl hlnil, hjoin, hsplit hm hmnil]

theorem IncludeStack.push_error {stack chain : List Location} {l : Location}
    (h : push stack l = .error chain) :
    ∃ before middle, stack = before ++ l :: middle ∧ chain = l :: (middle ++ [l]) := by
  unfold push at h
  split at h
  · next hopen =>
    cases h
    induction stack with
    | nil => cases hopen
    | cons a stack ih =>
      by_cases ha : a = l
      · subst ha
        exact ⟨[], stack, rfl, by rw [List.dropWhile_cons_of_neg (by simp)]; rfl⟩
      · obtain ⟨before, middle, rfl, hchain⟩ := ih (by simpa [ha] using hopen)
        exact ⟨a :: before, middle, rfl, by rw [List.dropWhile_cons_of_pos (by simpa using ha), hchain]⟩
  · cases h

/-! ## Frames -/

/-- A file that is being read, and the files that are open, itself the last: their locations and the
paths that they were opened by. -/
structure Frame where
  stack : List Location
  paths : List Path
  path : Path
  location : Location
  text : Text

namespace Frame

variable {src : Sources} {registry : Registry} {path : Path} {f g : Frame}

def directives (f : Frame) (registry : Registry) : List Directive :=
  Directive.ofDocument registry f.text

/-- The frame in which a compilation starts. -/
def root (path : Path) (location : Location) (text : Text) : Frame :=
  ⟨[location], [path], path, location, text⟩

/-- An INCLUDE of the file is followed. -/
inductive Opens (src : Sources) (registry : Registry) (f g : Frame) : Prop where
  | intro {x : Directive} {target : Text} : x ∈ f.directives registry →
      x.instruction (some f.path) = .ok (.includeFile target) →
      g.path = Event.includePath (some f.path) target → g.paths = f.paths ++ [g.path] →
      src.locate g.path = .ok g.location →
      IncludeStack.push f.stack g.location = .ok g.stack → src.textAt g.location = .ok g.text →
      Opens src registry f g

theorem Opens.stack_eq (h : Opens src registry f g) :
    g.location ∉ f.stack ∧ g.stack = f.stack ++ [g.location] := by
  obtain ⟨-, -, -, -, -, hpush, -⟩ := h
  exact IncludeStack.push_ok_iff.mp hpush

/-- A frame as the compiler comes to it when it starts with the path. -/
structure Good (src : Sources) (registry : Registry) (path : Path) (f : Frame) : Prop where
  located : src.locate f.path = .ok f.location
  read : src.textAt f.location = .ok f.text
  last : f.stack.getLast? = some f.location
  current : f.paths.getLast? = some f.path
  nodup : f.stack.Nodup
  opened : List.Forall₂ (fun p l => src.locate p = .ok l) f.paths f.stack
  chain : f.paths.IsChain (Includes src registry)
  leads : ∀ p ∈ f.paths, ReflTransGen (Includes src registry) path p
  files : f.stack ⊆ src.files

theorem good_root {l : Location} {t : Text} (hl : src.locate path = .ok l)
    (ht : src.textAt l = .ok t) : (root path l t).Good src registry path where
  located := hl
  read := ht
  last := rfl
  current := rfl
  nodup := List.nodup_singleton l
  opened := .cons hl .nil
  chain := List.isChain_singleton path
  leads p hp := by
    rw [List.mem_singleton.mp hp]
  files := List.cons_subset.mpr ⟨src.mem_files ht, List.nil_subset _⟩

theorem Good.reaches_path (hf : f.Good src registry path) :
    ReflTransGen (Includes src registry) path f.path :=
  hf.leads f.path (List.mem_of_getLast? hf.current)

theorem Opens.includes (h : Opens src registry f g) (hf : f.Good src registry path) :
    Includes src registry f.path g.path := by
  obtain ⟨hx, hi, hpath, -⟩ := h
  exact ⟨f.location, f.text, _, _, hf.located, hf.read, hx, hi, hpath⟩

theorem chain_concat {α : Type} {R : α → α → Prop} {as : List α} {a b : α} (h : as.IsChain R)
    (ha : as.getLast? = some a) (hb : R a b) : (as ++ [b]).IsChain R := by
  refine List.isChain_append.mpr ⟨h, List.isChain_singleton b, ?_⟩
  intro x hx y hy
  rw [ha] at hx
  cases hx
  cases hy
  exact hb

theorem Good.opens (hf : f.Good src registry path) (h : Opens src registry f g) :
    g.Good src registry path := by
  obtain ⟨hfresh, hstack⟩ := h.stack_eq
  have hincludes := h.includes hf
  obtain ⟨-, -, -, hpaths, hl, -, ht⟩ := h
  refine ⟨hl, ht, ?_, ?_, ?_, ?_, ?_, ?_, ?_⟩
  · rw [hstack]
    exact List.getLast?_concat
  · rw [hpaths]
    exact List.getLast?_concat
  · rw [hstack]
    exact hf.nodup.append (List.nodup_singleton _) (by simpa using hfresh)
  · rw [hstack, hpaths]
    exact List.rel_append hf.opened (.cons hl .nil)
  · rw [hpaths]
    exact chain_concat hf.chain hf.current hincludes
  · rw [hpaths]
    intro p hp
    rcases List.mem_append.mp hp with hp | hp
    · exact hf.leads p hp
    · rw [List.mem_singleton.mp hp]
      exact hf.reaches_path.tail hincludes
  · rw [hstack]
    exact List.append_subset.mpr
      ⟨hf.files, List.cons_subset.mpr ⟨src.mem_files ht, List.nil_subset _⟩⟩

theorem Good.reached (hf : f.Good src registry path) (h : ReflTransGen (Opens src registry) f g) :
    g.Good src registry path := by
  induction h with
  | refl => exact hf
  | tail _ ho ih => exact ih.opens ho

/-- The frame that an INCLUDE opens. -/
def ofInclusion {f : Frame} {x : Directive} (i : Inclusion src f.stack (some f.path) x) : Frame :=
  ⟨i.opened, f.paths ++ [i.path], i.path, i.location, i.text⟩

theorem opens_ofInclusion {x : Directive} (hx : x ∈ f.directives registry)
    (i : Inclusion src f.stack (some f.path) x) : Opens src registry f (ofInclusion i) :=
  ⟨hx, i.named, rfl, rfl, i.located, IncludeStack.push_ok_iff.mpr ⟨i.fresh, rfl⟩, i.read⟩

/-! ## Compilations that fail -/

/-- Where the stream of a file ends early, a frame below has the directive that ends it. -/
theorem exists_stops {stack : List Location} {file : Option Path} {ds : List Directive}
    {events : List Event} (h : Event.Expands src registry stack file ds events)
    (hstack : f.stack = stack) (hfile : some f.path = file)
    (hds : ∀ x ∈ ds, x ∈ f.directives registry) {e : CompileError} (he : .fail e ∈ events) :
    ∃ g x, ReflTransGen (Opens src registry) f g ∧ x ∈ g.directives registry ∧
      Event.Stops src g.stack (some g.path) x e := by
  induction h generalizing f with
  | done => cases he
  | @stopped _ _ x _ _ hx =>
    obtain rfl := Event.fail.inj (List.mem_singleton.mp he)
    subst hstack hfile
    exact ⟨f, x, .refl, hds x List.mem_cons_self, hx⟩
  | @plain _ _ x _ _ _ _ _ _ ih =>
    exact ih hstack hfile (fun y hy => hds y (List.mem_cons_of_mem x hy))
      ((List.mem_cons.mp he).resolve_left Event.noConfusion)
  | @included _ _ x _ _ _ i _ _ inFile inRest =>
    subst hstack hfile
    rcases List.mem_append.mp ((List.mem_cons.mp he).resolve_left Event.noConfusion) with he | he
    · obtain ⟨g, y, hg, hy, hstops⟩ := inFile (f := ofInclusion i) rfl rfl (fun y hy => hy) he
      exact ⟨g, y, .head (opens_ofInclusion (hds x List.mem_cons_self) i) hg, hy, hstops⟩
    · exact inRest rfl rfl (fun y hy => hds y (List.mem_cons_of_mem x hy))
        ((List.mem_cons.mp he).resolve_left Event.noConfusion)

/-- The chain that the stack answers with goes from a file to itself, and the paths by which its
files were opened include one another. -/
theorem Good.chain_of_push (hf : f.Good src registry path) {q : Path} {l : Location}
    {chain : List Location} (hi : Includes src registry f.path q) (hq : src.locate q = .ok l)
    (hpush : IncludeStack.push f.stack l = .error chain) :
    ∃ middle paths, chain = l :: (middle ++ [l]) ∧ (l :: middle).Nodup ∧
      List.Forall₂ (fun p m => src.locate p = .ok m) paths chain ∧
      paths.IsChain (Includes src registry) ∧
      ∀ p ∈ paths, ReflTransGen (Includes src registry) path p := by
  obtain ⟨before, middle, hstack, rfl⟩ := IncludeStack.push_error hpush
  have hsuffix : l :: middle <:+ f.stack := hstack ▸ List.suffix_append before (l :: middle)
  -- The paths of the files from the one that is open already on.
  have hopened := List.forall₂_drop_append f.paths before (l :: middle) (hstack ▸ hf.opened)
  have hpaths := List.drop_suffix before.length f.paths
  have hcurrent : (f.paths.drop before.length).getLast? = some f.path := by
    rw [List.getLast?_drop, if_neg, hf.current]
    have hlength : (f.paths.drop before.length).length = (l :: middle).length := hopened.length_eq
    rw [List.length_drop, List.length_cons] at hlength
    omega
  refine ⟨middle, f.paths.drop before.length ++ [q], rfl, hf.nodup.sublist hsuffix.sublist,
    List.rel_append hopened (.cons hq .nil),
    chain_concat (hf.chain.suffix hpaths) hcurrent hi, fun p hp => ?_⟩
  rcases List.mem_append.mp hp with hp | hp
  · exact hf.leads p (hpaths.subset hp)
  · rw [List.mem_singleton.mp hp]
    exact hf.reaches_path.tail hi

end Frame

namespace Draft

variable {d : Draft} {line l : SourceLine} {cycle : List Path}

theorem apply_ne_includeCycle (i : Instruction) : d.apply line i ≠ .error (.includeCycle l cycle) := by
  cases i with
  | prologue text | epilogue text =>
    unfold apply
    dsimp only
    split <;> exact fun h => by cases h
  | retry count prompt =>
    change d.retry line count prompt ≠ _
    unfold retry
    split <;> exact fun h => by cases h
  | openBlock kind =>
    change d.openBlock line kind ≠ _
    unfold openBlock
    split
    · exact fun h => by cases h
    · split
      · split
        · exact fun h => by cases h
        · split <;> exact fun h => by cases h
      · exact fun h => by cases h
  | closeBlock =>
    change d.closeBlock line ≠ _
    unfold closeBlock
    split
    · exact fun h => by cases h
    · split <;> exact fun h => by cases h
  | _ => exact fun h => by cases h

theorem feed_error_includeCycle {e : Event}
    (h : d.feed e = .error (.parse (.includeCycle l cycle))) :
    e = .fail (.parse (.includeCycle l cycle)) := by
  cases e with
  | instruction line i =>
    simp only [feed] at h
    split at h
    · cases h
    · next he =>
      cases h
      exact absurd he (apply_ne_includeCycle i)
  | enter => cases h
  | leave =>
    simp only [feed] at h
    split at h
    · split at h <;> cases h
    · cases h
  | fail e =>
    cases h
    rfl

theorem run_error_includeCycle {events : List Event}
    (h : d.run events = .error (.parse (.includeCycle l cycle))) :
    .fail (.parse (.includeCycle l cycle)) ∈ events := by
  induction events generalizing d with
  | nil => cases h
  | cons e events ih =>
    rw [run, List.foldlM_cons] at h
    rcases error_of_bind h with he | ⟨next, -, h⟩
    · rw [feed_error_includeCycle he]
      exact List.mem_cons_self
    · exact List.mem_cons_of_mem e (ih h)

end Draft

theorem Directive.instruction_ne_includeCycle {x : Directive} {file : Option Path} {l : SourceLine}
    {cycle : List Path} : x.instruction file ≠ .error (.includeCycle l cycle) := by
  unfold instruction
  split
  · exact fun h => by cases h
  · split
    · exact fun h => by cases h
    · next r _ => cases r <;> exact fun h => by cases h

/-! ## Compilations that succeed -/

namespace Frame

variable {src : Sources} {registry : Registry} {path : Path} {f g : Frame}

/-- The file is read to its end. -/
def Completes (src : Sources) (registry : Registry) (f : Frame) : Prop :=
  ∃ d d', Draft.Reads src registry f.stack (some f.path) (f.directives registry) d d'

/-- Each INCLUDE of a file that is read to its end is followed, and its file is read to its end. -/
theorem exists_inclusion {stack : List Location} {file : Option Path} {ds : List Directive}
    {d d' : Draft} (h : Draft.Reads src registry stack file ds d d') {x : Directive} (hx : x ∈ ds)
    {target : Text} (hi : x.instruction file = .ok (.includeFile target)) :
    ∃ i : Inclusion src stack file x, i.target = target ∧
      ∃ e e', Draft.Reads src registry i.opened (some i.path) (i.directives registry) e e' := by
  induction h with
  | done => cases hx
  | plain hy hno _ _ ih =>
    rcases List.mem_cons.mp hx with rfl | hx
    · exact absurd (Except.ok.inj (hy.symm.trans hi)) (hno target)
    · exact ih hx hi
  | included i _ hinside _ _ _ ih =>
    rcases List.mem_cons.mp hx with rfl | hx
    · exact ⟨i, Instruction.includeFile.inj (Except.ok.inj (i.named.symm.trans hi)), _, _, hinside⟩
    · exact ih hx hi

theorem Completes.opens_target (hc : f.Completes src registry) {x : Directive}
    (hx : x ∈ f.directives registry) {target : Text}
    (hi : x.instruction (some f.path) = .ok (.includeFile target)) :
    ∃ g, Opens src registry f g ∧ g.path = Event.includePath (some f.path) target ∧
      g.Completes src registry := by
  obtain ⟨d, d', hreads⟩ := hc
  obtain ⟨i, rfl, hcompletes⟩ := exists_inclusion hreads hx hi
  exact ⟨ofInclusion i, opens_ofInclusion hx i, rfl, hcompletes⟩

theorem Completes.opens (hc : f.Completes src registry) (hf : f.Good src registry path) {q : Path}
    (h : Includes src registry f.path q) :
    ∃ g, Opens src registry f g ∧ g.path = q ∧ g.Completes src registry := by
  obtain ⟨l, t, x, target, hl, ht, hx, hi, rfl⟩ := h
  obtain rfl := Except.ok.inj (hf.located.symm.trans hl)
  obtain rfl := Except.ok.inj (hf.read.symm.trans ht)
  exact hc.opens_target hx hi

theorem Completes.reaches (hc : f.Completes src registry) (hf : f.Good src registry path) {q : Path}
    (h : ReflTransGen (Includes src registry) f.path q) :
    ∃ g, ReflTransGen (Opens src registry) f g ∧ g.path = q ∧ g.Completes src registry := by
  induction h with
  | refl => exact ⟨f, .refl, rfl, hc⟩
  | tail _ hi ih =>
    obtain ⟨g, hg, rfl, hgc⟩ := ih
    obtain ⟨g', hg', hq, hc'⟩ := hgc.opens (hf.reached hg) hi
    exact ⟨g', hg.tail hg', hq, hc'⟩

theorem stack_of_reached (h : ReflTransGen (Opens src registry) f g) : f.stack <+: g.stack := by
  induction h with
  | refl => exact List.prefix_refl _
  | tail _ ho ih =>
    rw [ho.stack_eq.2]
    exact ih.trans (List.prefix_append _ _)

/-- What is opened inside a file is another one. -/
theorem Good.location_ne {g' : Frame} (hf : f.Good src registry path)
    (h : ReflTransGen (Opens src registry) f g) (ho : Opens src registry g g') :
    g'.location ≠ f.location := by
  have hmem : f.location ∈ g.stack := (stack_of_reached h).subset (List.mem_of_getLast? hf.last)
  exact fun heq => ho.stack_eq.1 (heq ▸ hmem)

theorem Completes.opens_file (hs : src.IsSteady) (hc : f.Completes src registry)
    (hf : f.Good src registry path) {m : Location} (h : IncludesFile src registry f.location m) :
    ∃ g, Opens src registry f g ∧ g.location = m ∧ g.Completes src registry := by
  obtain ⟨p, q, ⟨l, t, x, target, hl, ht, hx, hi, rfl⟩, hp, hq⟩ := h
  obtain rfl := Except.ok.inj (hp.symm.trans hl)
  obtain rfl := Except.ok.inj (hf.read.symm.trans ht)
  have hhere : x.instruction (some f.path) = .ok (.includeFile target) := by
    refine ok_of_toOption ?_
    rw [x.toOption_instruction, ← x.toOption_instruction (some p), hi]
    rfl
  obtain ⟨g, hg, hpath, hgc⟩ := hc.opens_target hx hhere
  have hlocated := (hf.opens hg).located
  rw [hpath] at hlocated
  exact ⟨g, hg, hs hf.located hp hf.read hlocated hq, hgc⟩

theorem Completes.reaches_file (hs : src.IsSteady) (hc : f.Completes src registry)
    (hf : f.Good src registry path) {m : Location}
    (h : ReflTransGen (IncludesFile src registry) f.location m) :
    ∃ g, ReflTransGen (Opens src registry) f g ∧ g.location = m ∧ g.Completes src registry := by
  induction h with
  | refl => exact ⟨f, .refl, rfl, hc⟩
  | tail _ hi ih =>
    obtain ⟨g, hg, rfl, hgc⟩ := ih
    obtain ⟨g', hg', hm, hc'⟩ := hgc.opens_file hs (hf.reached hg) hi
    exact ⟨g', hg.tail hg', hm, hc'⟩

theorem Completes.file_acyclic (hs : src.IsSteady) (hc : f.Completes src registry)
    (hf : f.Good src registry path) :
    ¬TransGen (IncludesFile src registry) f.location f.location := by
  intro h
  obtain ⟨m, hm, hback⟩ := TransGen.tail'_iff.mp h
  obtain ⟨g, hg, rfl, hgc⟩ := hc.reaches_file hs hf hm
  obtain ⟨g', hg', hlocation, -⟩ := hgc.opens_file hs (hf.reached hg) hback
  exact hf.location_ne hg hg' hlocation

end Frame

/-! ## Compiled files -/

namespace Compiled

open ConversationFlow.Frame (Opens root)

variable {src : Sources} {registry : Registry} {path : Path} {l : Location} {text : Text}

theorem exists_text_of_cycle {line : SourceLine} {cycle : List Path}
    (h : ofFile src registry path = .error (.parse (.includeCycle line cycle))) :
    ∃ l text, src.locate path = .ok l ∧ src.textAt l = .ok text := by
  rcases ofFile_cases src registry path with htext | he | ⟨e, he⟩
  · exact htext
  · cases he.symm.trans h
  · cases he.symm.trans h

theorem run_of_ofEvents_includeCycle {events : List Event} {source : Option Path}
    {line : SourceLine} {cycle : List Path}
    (h : ofEvents source events = .error (.parse (.includeCycle line cycle))) :
    Draft.run {} events = .error (.parse (.includeCycle line cycle)) := by
  rcases error_of_bind h with hr | ⟨d, -, hf⟩
  · exact hr
  · unfold Draft.finish at hf
    split at hf <;> cases hf

/-- A cycle is only reported where one is. -/
theorem cycle_of_ofFile {line : SourceLine} {cycle : List Path}
    (h : ofFile src registry path = .error (.parse (.includeCycle line cycle))) :
    ∃ first middle paths,
      cycle = (first :: (middle ++ [first])).map Location.path ∧ (first :: middle).Nodup ∧
      List.Forall₂ (fun p l => src.locate p = .ok l) paths (first :: (middle ++ [first])) ∧
      paths.IsChain (Includes src registry) ∧
      ∀ p ∈ paths, ReflTransGen (Includes src registry) path p := by
  obtain ⟨l, text, hl, ht⟩ := exists_text_of_cycle h
  rw [ofFile_eq hl ht] at h
  have hmem := Draft.run_error_includeCycle (run_of_ofEvents_includeCycle h)
  -- The directive that ends the stream is an INCLUDE of a file that is open.
  obtain ⟨f, x, hreached, hx, hstops⟩ := Frame.exists_stops
    (Event.expands_ofDirectives src registry [l] (some path) (Directive.ofDocument registry text))
    (f := root path l text) rfl rfl (fun x hx => hx) hmem
  have hf := (Frame.good_root hl ht).reached hreached
  cases hstops with
  | refused he => exact absurd he Directive.instruction_ne_includeCycle
  | @cycle target first chain hi hfirst hpush =>
    have hincludes : Includes src registry f.path (Event.includePath (some f.path) target) :=
      ⟨f.location, f.text, x, target, hf.located, hf.read, hx, hi, rfl⟩
    obtain ⟨middle, paths, rfl, hnodup, hrest⟩ := hf.chain_of_push hincludes hfirst hpush
    exact ⟨first, middle, paths, rfl, hnodup, hrest⟩

/-- A file that compiles is read to its end. -/
theorem exists_frame_of_ofFile {c : Compiled} (h : ofFile src registry path = .ok c) :
    ∃ l text, src.locate path = .ok l ∧ (root path l text).Good src registry path ∧
      (root path l text).Completes src registry := by
  obtain ⟨l, text, hl, ht, hevents⟩ := ofFile_ok h
  obtain ⟨d, hrun, -⟩ := ofEvents_ok hevents
  exact ⟨l, text, hl, Frame.good_root hl ht, _, _, Draft.reads_of_run hrun⟩

theorem files_acyclic_of_ofFile (hs : src.IsSteady) {c : Compiled} (hl : src.locate path = .ok l)
    (h : ofFile src registry path = .ok c) {m : Location}
    (hm : ReflTransGen (IncludesFile src registry) l m) :
    ¬TransGen (IncludesFile src registry) m m := by
  obtain ⟨l', text, hl', hroot, hc⟩ := exists_frame_of_ofFile h
  obtain rfl := Except.ok.inj (hl.symm.trans hl')
  obtain ⟨f, hf, rfl, hfc⟩ := hc.reaches_file hs hroot hm
  exact hfc.file_acyclic hs (hroot.reached hf)

/-- Distinct files are reported by distinct paths. -/
theorem nodup_paths {paths : List Path} {files : List Location} {last : Location}
    (hnamed : src.IsNamed)
    (h : List.Forall₂ (fun p l => src.locate p = .ok l) paths (files ++ [last]))
    (hnodup : files.Nodup) : (files.map Location.path).Nodup := by
  have hlocated : ∀ l ∈ files, l.IsNamed := by
    intro l hl
    obtain ⟨i, hi, rfl⟩ := List.getElem_of_mem (List.mem_append_left [last] hl)
    exact hnamed _ _ (h.get (h.length_eq ▸ hi) hi)
  exact hnodup.map_on fun a ha b hb hab => Location.path_injOn (hlocated a ha) (hlocated b hb) hab

/-- In a file system without links, the paths that are reported as a cycle are distinct up to the
last one, and no file that a compiled file leads to leads to itself. -/
theorem ofFile_acyclic {fs : FileSystem} (hd : fs.WellPlaced) (registry : Registry) (path : Path) :
    (∀ line cycle, ofFile fs registry path = .error (.parse (.includeCycle line cycle)) →
      cycle.dropLast.Nodup) ∧
    ∀ l c, fs.locate path = .ok l → ofFile fs registry path = .ok c →
      ∀ m, ReflTransGen (IncludesFile fs registry) l m →
        ¬TransGen (IncludesFile fs registry) m m := by
  constructor
  · intro line cycle h
    obtain ⟨first, middle, paths, rfl, hnodup, hpaths, -⟩ := cycle_of_ofFile h
    have hdistinct := nodup_paths hd.isNamed hpaths hnodup
    rwa [← List.cons_append, List.map_append, List.map_singleton, List.dropLast_concat]
  · exact fun l c hl h m hm => files_acyclic_of_ofFile hd.isSteady hl h hm

/-- Two files that are opened by links only: from the one directory the first includes the second,
and from the other one the second includes the first. -/
def linked : Sources :=
  FileSystem.linked ⟨[], [(["main".toList], .file (Text.toBytes "INCLUDE p/b\nINCLUDE r/c".toList)),
    (["b".toList], .file (Text.toBytes "INCLUDE c".toList)),
    (["c".toList], .file (Text.toBytes "INCLUDE q/b".toList)),
    (["p".toList], .directory), (["p".toList, "q".toList], .directory),
    (["p".toList, "b".toList], .file []), (["p".toList, "c".toList], .file []),
    (["p".toList, "q".toList, "b".toList], .file []),
    (["r".toList], .directory), (["r".toList, "q".toList], .directory),
    (["r".toList, "c".toList], .file []), (["r".toList, "q".toList, "b".toList], .file []),
    (["r".toList, "q".toList, "c".toList], .file [])], [], []⟩
    [(["p".toList, "b".toList], ["b".toList]), (["p".toList, "c".toList], ["c".toList]),
    (["r".toList, "c".toList], ["c".toList]), (["r".toList, "q".toList, "b".toList], ["b".toList])]

/-- Each of the files includes the other, but no INCLUDE comes back: the conversation compiles. -/
theorem linked_compiles : (ofFile linked .empty "main").isOk ∧
    IncludesFile linked .empty ["b".toList] ["c".toList] ∧
    IncludesFile linked .empty ["c".toList] ["b".toList] := by
  have hmain : linked.textAt ["main".toList] = .ok "INCLUDE p/b\nINCLUDE r/c".toList := rfl
  have hb : linked.textAt ["b".toList] = .ok "INCLUDE c".toList := rfl
  have hc : linked.textAt ["c".toList] = .ok "INCLUDE q/b".toList := rfl
  have hinner : linked.textAt ["p".toList, "q".toList, "b".toList] = .ok [] := rfl
  have hinner' : linked.textAt ["r".toList, "q".toList, "c".toList] = .ok [] := rfl
  have hmainDoc : Directive.ofDocument .empty "INCLUDE p/b\nINCLUDE r/c".toList =
      [⟨.builtin .includeFile, "p/b".toList, 1⟩, ⟨.builtin .includeFile, "r/c".toList, 2⟩] := rfl
  have hbDoc : Directive.ofDocument .empty "INCLUDE c".toList =
      [⟨.builtin .includeFile, "c".toList, 1⟩] := rfl
  have hcDoc : Directive.ofDocument .empty "INCLUDE q/b".toList =
      [⟨.builtin .includeFile, "q/b".toList, 1⟩] := rfl
  have hempty : Directive.ofDocument .empty [] = [] := rfl
  refine ⟨?_, ⟨"p/b", "p/c", ⟨_, _, _, "c".toList, rfl, hb, hbDoc ▸ List.mem_cons_self, rfl, rfl⟩,
    rfl, rfl⟩, ⟨"r/c", "r/q/b", ⟨_, _, _, "q/b".toList, rfl, hc, hcDoc ▸ List.mem_cons_self, rfl, rfl⟩,
    rfl, rfl⟩⟩
  rw [ofFile_eq rfl hmain, hmainDoc, Event.ofDirectives_include rfl rfl rfl hb, hbDoc,
    Event.ofDirectives_include rfl rfl rfl hc, hcDoc, Event.ofDirectives_include rfl rfl rfl hinner,
    Event.ofDirectives_include rfl rfl rfl hc, hcDoc, Event.ofDirectives_include rfl rfl rfl hb, hbDoc,
    Event.ofDirectives_include rfl rfl rfl hinner', hempty]
  simp only [Event.ofDirectives]
  rfl

end Compiled

end ConversationFlow
