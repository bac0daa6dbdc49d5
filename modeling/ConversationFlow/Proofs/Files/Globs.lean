import ConversationFlow.Files.Glob
import ConversationFlow.Proofs.Compilation.Instructions
import ConversationFlow.Proofs.Files.Bases
import ConversationFlow.Proofs.Value.Checks

/-!
# Patterns without stars

A pattern without stars matches one character after the other. A set stands for one character and
takes at least two to write, so that a pattern with a set matches only paths that are shorter than
it is written. Paths are measured by `Path.mass`, in which equal paths do not differ.
-/

namespace ConversationFlow

/-! ## The mass of a path -/

namespace Path

/-- The number of characters that are no slashes and no dots. -/
def mass (t : Text) : Nat := t.countP fun c => c != '/' && c != '.'

@[simp] theorem mass_nil : mass [] = 0 := rfl

theorem mass_cons (c : Char) (t : Text) : mass (c :: t) = mass [c] + mass t := by
  unfold mass
  rw [List.countP_cons, List.countP_singleton]
  omega

theorem mass_append (t u : Text) : mass (t ++ u) = mass t + mass u := List.countP_append

theorem mass_single (c : Char) : mass [c] ≤ 1 := by
  unfold mass
  rw [List.countP_singleton]
  split <;> omega

theorem mass_of_isIdle {s : Text} (h : IsIdle s) : mass s = 0 := by
  rcases h with rfl | rfl <;> rfl

theorem mass_splitOn (t : Text) : ((t.splitOn '/').map mass).sum = mass t := by
  induction t with
  | nil => rfl
  | cons c t ih =>
    rw [mass_cons, ← ih, List.splitOn_eq_splitOnP, List.splitOnP_cons_eq_if_modifyHead,
      ← List.splitOn_eq_splitOnP]
    split
    · next hc =>
      have hc : c = '/' := by simpa using hc
      subst hc
      rfl
    · obtain ⟨first, rest, ht⟩ := List.exists_cons_of_ne_nil (List.splitOn_ne_nil '/' t)
      rw [ht, List.modifyHead_cons]
      simp only [List.map_cons, List.sum_cons]
      rw [mass_cons c first, Nat.add_assoc]

theorem mass_steps (p : Path) : (p.steps.map mass).sum = mass p.text := by
  rw [← mass_splitOn, steps]
  induction p.text.splitOn '/' with
  | nil => rfl
  | cons s segments ih =>
    cases hs : leads s with
    | true => rw [List.filter_cons_of_pos hs, List.map_cons, List.map_cons, List.sum_cons, ih,
        List.sum_cons]
    | false =>
      rw [List.filter_cons_of_neg (by simp [hs]), ih, List.map_cons, List.sum_cons,
        mass_of_isIdle (isIdle_of_leads hs), Nat.zero_add]

/-- Equal paths have one mass. -/
theorem mass_of_parts {p q : Path} (h : p.parts = q.parts) : mass p.text = mass q.text := by
  rw [← mass_steps p, ← mass_steps q, steps_of_parts h]

theorem mass_join_le (p q : Path) : mass (p.join q).text ≤ mass p.text + mass q.text := by
  unfold join
  split
  · omega
  · split
    · exact (mass_append p.text q.text).le
    · exact (mass_append p.text ('/' :: q.text)).le

end Path

/-! ## What a pattern without stars spells -/

namespace Glob

/-- The elements of a pattern without stars, in the order in which they are written. -/
inductive Spells : Text → List Token → Prop where
  | done : Spells [] []
  | char {c : Char} {t : Text} {ts : List Token} (plain : c ≠ '[') (rest : Spells t ts) :
      Spells (c :: t) (.char c :: ts)
  | anyChar {t : Text} {ts : List Token} (rest : Spells t ts) : Spells ('?' :: t) (.anyChar :: ts)
  | within {inner t : Text} {ts : List Token} (set : CharSet) (rest : Spells t ts) :
      Spells ('[' :: inner ++ ']' :: t) (.within set :: ts)
  | except {inner t : Text} {ts : List Token} (set : CharSet) (rest : Spells t ts) :
      Spells ('[' :: inner ++ ']' :: t) (.except set :: ts)

variable {t name : Text} {ts : List Token}

theorem bracket_ok {rest : Text} {token : Token} {width : Nat}
    (h : bracket? rest = some (token, width)) :
    ∃ inner more, rest = inner ++ ']' :: more ∧ rest.drop (width - 1) = more ∧
      ∃ set, token = .within set ∨ token = .except set := by
  unfold bracket? at h
  split at h
  · next first more =>
    split at h
    · next inner after hcut =>
      obtain ⟨rfl, rfl⟩ := Prod.mk.inj (Option.some.inj h)
      obtain ⟨rfl, -⟩ := Text.cutAt_eq_some_iff.mp hcut
      refine ⟨'!' :: first :: inner, after, by simp, ?_, _, .inr rfl⟩
      simp [List.drop_append]
    · cases h
  · cases h
  · next first more _ _ =>
    split at h
    · next inner after hcut =>
      obtain ⟨rfl, rfl⟩ := Prod.mk.inj (Option.some.inj h)
      obtain ⟨rfl, -⟩ := Text.cutAt_eq_some_iff.mp hcut
      refine ⟨first :: inner, after, by simp, ?_, _, .inl rfl⟩
      simp [List.drop_append]
    · cases h
  · cases h

/-- What is read is put in front of what was read before; the induction is on the fuel, of which
there is one for each character. -/
theorem scan_ok {fuel position : Nat} {before : Option Char} {read : List Token}
    (h : scan fuel position before read t = .ok ts) (hfuel : t.length ≤ fuel) (hstar : '*' ∉ t) :
    ∃ more, ts = read.reverse ++ more ∧ Spells t more := by
  induction fuel generalizing position before read t with
  | zero =>
    obtain rfl := List.length_eq_zero_iff.mp (Nat.le_zero.mp hfuel)
    cases h
    exact ⟨[], (List.append_nil _).symm, .done⟩
  | succ fuel ih =>
    have hcons {token : Token} {rest : Text} {next : Nat} {last : Option Char}
        (h : scan fuel next last (token :: read) rest = .ok ts) (hlength : rest.length ≤ fuel)
        (hrest : '*' ∉ rest) : ∃ more, ts = read.reverse ++ token :: more ∧ Spells rest more := by
      obtain ⟨more, rfl, hmore⟩ := ih h hlength hrest
      exact ⟨more, by simp, hmore⟩
    cases t with
    | nil =>
      cases h
      exact ⟨[], (List.append_nil _).symm, .done⟩
    | cons c rest =>
      have hlength : rest.length ≤ fuel := Nat.le_of_succ_le_succ hfuel
      have hrest : '*' ∉ rest := fun hs => hstar (List.mem_cons_of_mem c hs)
      have hc : c ≠ '*' := fun he => hstar (he ▸ List.mem_cons_self)
      by_cases hany : c = '?'
      · subst hany
        rw [scan] at h
        obtain ⟨more, hts, hmore⟩ := hcons h hlength hrest
        exact ⟨_, hts, .anyChar hmore⟩
      by_cases hset : c = '['
      · subst hset
        rw [scan] at h
        split at h
        · next token width hbracket =>
          obtain ⟨inner, after, rfl, hdrop, set, hset⟩ := bracket_ok hbracket
          rw [hdrop] at h
          obtain ⟨more, hts, hmore⟩ := hcons h
            (by rw [List.length_append, List.length_cons] at hlength; omega)
            fun hs => hrest (by simp [hs])
          rcases hset with rfl | rfl
          · exact ⟨_, hts, .within set hmore⟩
          · exact ⟨_, hts, .except set hmore⟩
        · cases h
      · rw [scan] at h
        · obtain ⟨more, hts, hmore⟩ := hcons h hlength hrest
          exact ⟨_, hts, .char hset hmore⟩
        · exact hany
        · exact hc
        · exact hset

theorem spells_of_tokensOf (h : tokensOf t = .ok ts) (hstar : '*' ∉ t) : Spells t ts := by
  obtain ⟨more, rfl, hmore⟩ := scan_ok h le_rfl hstar
  exact hmore

namespace Spells

theorem not_recursive (h : Spells t ts) : ts.contains .anyDirectories = false := by
  induction h with
  | done => rfl
  | char _ _ ih | anyChar _ ih | within _ _ ih | except _ _ ih => exact ih

/-- A set is no literal. -/
theorem bracket_not_mem (h : Spells t ts)
    (hliteral : ts.all (fun t => match t with | .char _ => true | _ => false) = true) :
    '[' ∉ t := by
  induction h with
  | done => exact List.not_mem_nil
  | char plain _ ih =>
    exact fun hb => (List.mem_cons.mp hb).elim (fun he => plain he.symm) (ih hliteral)
  | anyChar => cases hliteral
  | within => cases hliteral
  | except => cases hliteral

theorem mass_set (inner t : Text) :
    Path.mass ('[' :: inner ++ ']' :: t) = Path.mass inner + Path.mass t + 2 := by
  rw [List.cons_append, Path.mass_cons, Path.mass_append, Path.mass_cons ']']
  change 1 + (Path.mass inner + (1 + Path.mass t)) = _
  omega

/-- A name that a pattern matches has no more mass than the pattern, and less than one with a set:
the set is one character of the name. -/
theorem mass_of_matches (h : Spells t ts) (hname : matchesFrom ts name = true) :
    Path.mass name ≤ Path.mass t ∧ ('[' ∈ t → Path.mass name < Path.mass t) := by
  induction h generalizing name with
  | done =>
    rw [matchesFrom, List.isEmpty_iff] at hname
    subst hname
    exact ⟨le_rfl, fun hb => absurd hb List.not_mem_nil⟩
  | @char c t ts plain rest ih =>
    cases name with
    | nil => cases hname
    | cons d name =>
      obtain ⟨hd, hrest⟩ := Bool.and_eq_true_iff.mp hname
      obtain rfl : c = d := by simpa using hd
      obtain ⟨hle, hlt⟩ := ih hrest
      rw [Path.mass_cons, Path.mass_cons c t]
      refine ⟨Nat.add_le_add_left hle _, fun hb => Nat.add_lt_add_left (hlt ?_) _⟩
      exact (List.mem_cons.mp hb).resolve_left plain.symm
  | @anyChar t ts rest ih =>
    cases name with
    | nil => cases hname
    | cons d name =>
      obtain ⟨hle, hlt⟩ := ih hname
      rw [Path.mass_cons, Path.mass_cons '?' t]
      have hd : Path.mass [d] ≤ Path.mass ['?'] := Path.mass_single d
      refine ⟨Nat.add_le_add hd hle, fun hb => Nat.add_lt_add_of_le_of_lt hd (hlt ?_)⟩
      exact (List.mem_cons.mp hb).resolve_left (by decide)
  | @within inner t ts set rest ih | @except inner t ts set rest ih =>
    cases name with
    | nil => cases hname
    | cons d name =>
      have hd := Path.mass_single d
      have hle := (ih (Bool.and_eq_true_iff.mp hname).2).1
      rw [Path.mass_cons, mass_set]
      constructor <;> omega

end Spells

/-! ## Walks -/

variable {fs : FileSystem} {g : Glob} {globs : List Glob} {p q : Path} {directories : Bool}

theorem mass_entry_le (p : Path) (name : Text) :
    Path.mass (entry p name).text ≤ Path.mass p.text + Path.mass name := by
  unfold entry
  split
  · exact Nat.le_add_left _ _
  · exact Path.mass_join_le p ⟨name⟩

theorem mass_pos_of_bracket (h : '[' ∈ t) : 0 < Path.mass t :=
  List.countP_pos_iff.mpr ⟨'[', h, by decide⟩

theorem slash_not_mem_children {l : Location} {name : Text} (hnames : ∀ n ∈ fs.nodes, n.1.IsNamed)
    (h : name ∈ fs.children l) : '/' ∉ name := by
  unfold FileSystem.children at h
  obtain ⟨⟨m, n⟩, hn, hname⟩ := List.mem_filterMap.mp (List.mem_mergeSort.mp h)
  dsimp only at hname
  split at hname
  · exact (hnames (m, n) hn name (List.mem_of_getLast? hname)).2
  · cases hname

theorem fileName?_entry {name : Text} (hname : Path.IsName name) (hslash : '/' ∉ name) (p : Path) :
    (entry p name).fileName? = some name := by
  have hsplit := Path.splitOn_of_not_mem hslash
  unfold entry
  split
  · exact Path.fileName?_of_splitOn (hsplit.trans (List.nil_append _).symm) hname
  · obtain ⟨front, hjoin, -⟩ := Path.splitOn_join p (Path.isAbsolute_of_not_mem hslash)
    exact Path.fileName?_of_splitOn (hjoin.trans (by rw [hsplit])) hname

/-- The path reached along a component has at most its mass more, and less than that if the
component has a set. -/
def Reaches (g : Glob) (p next : Path) : Prop :=
  Path.mass next.text ≤ Path.mass p.text + Path.mass g.text ∧
    ('[' ∈ g.text → Path.mass next.text < Path.mass p.text + Path.mass g.text)

theorem reaches_of_le {next : Path} (h : Path.mass next.text ≤ Path.mass p.text) :
    Reaches g p next :=
  ⟨h.trans (Nat.le_add_right _ _),
    fun hb => h.trans_lt (Nat.lt_add_of_pos_right (mass_pos_of_bracket hb))⟩

theorem reaches_entry {name : Text} (hg : Spells g.text g.tokens) (hslash : '/' ∉ name)
    (h : (entry p name).fileName?.any g.accepts = true) :
    Reaches g p (entry p name) := by
  have hentry := mass_entry_le p name
  rcases Path.segment_cases name with hidle | rfl | hname
  · rw [Path.mass_of_isIdle hidle] at hentry
    exact reaches_of_le hentry
  · exact reaches_of_le hentry
  · rw [fileName?_entry hname hslash] at h
    obtain ⟨hle, hlt⟩ := hg.mass_of_matches h
    exact ⟨hentry.trans (Nat.add_le_add_left hle _),
      fun hb => hentry.trans_lt (Nat.add_lt_add_left (hlt hb) _)⟩

/-- A walk goes on from a path that the first component leads to. -/
theorem walk_cons (hnames : ∀ n ∈ fs.nodes, n.1.IsNamed) (hg : Spells g.text g.tokens)
    (h : q ∈ walk fs directories (g :: globs) p) :
    ∃ next, q ∈ walk fs directories globs next ∧ Reaches g p next := by
  unfold walk at h
  split at h
  · next hliteral =>
    dsimp only at h
    split at h
    · refine ⟨_, h, mass_entry_le p g.text, fun hb => ?_⟩
      exact absurd hb (hg.bracket_not_mem hliteral)
    · cases h
  split at h
  · cases h
  have hrecursive : g.isRecursive = false := hg.not_recursive
  rw [hrecursive, if_neg Bool.false_ne_true] at h
  rcases List.mem_append.mp h with h | h
  · obtain ⟨next, hnext, h⟩ := List.mem_flatMap.mp h
    split at h
    · next haccepts =>
      refine ⟨next, h, ?_⟩
      unfold childPaths at hnext
      split at hnext
      · cases hnext
      obtain ⟨name, hname, rfl⟩ := List.mem_map.mp hnext
      exact reaches_entry hg (slash_not_mem_children hnames hname) haccepts
    · cases h
  · obtain ⟨s, hs, h⟩ := List.mem_flatMap.mp h
    split at h
    · have hmass : Path.mass s = 0 := by
        rcases List.mem_pair.mp hs with rfl | rfl <;> rfl
      have hjoin := Path.mass_join_le p ⟨s⟩
      rw [hmass] at hjoin
      exact ⟨_, h, reaches_of_le hjoin⟩
    · cases h

/-- What a walk reaches has no more mass than the components, and less if there is a set. -/
theorem mass_of_walk (hnames : ∀ n ∈ fs.nodes, n.1.IsNamed)
    (hglobs : ∀ g ∈ globs, Spells g.text g.tokens) (h : q ∈ walk fs directories globs p) :
    Path.mass q.text ≤ Path.mass p.text + (globs.map fun g => Path.mass g.text).sum ∧
      ((∃ g ∈ globs, '[' ∈ g.text) →
        Path.mass q.text < Path.mass p.text + (globs.map fun g => Path.mass g.text).sum) := by
  induction globs generalizing p with
  | nil =>
    rw [walk] at h
    split at h
    · obtain rfl := List.mem_singleton.mp h
      exact ⟨le_rfl, fun ⟨g, hg, _⟩ => absurd hg List.not_mem_nil⟩
    · cases h
  | cons g globs ih =>
    obtain ⟨hg, hrest⟩ := List.forall_mem_cons.mp hglobs
    obtain ⟨next, hnext, hle, hlt⟩ := walk_cons hnames hg h
    obtain ⟨hle', hlt'⟩ := ih hrest hnext
    rw [List.map_cons, List.sum_cons]
    refine ⟨by omega, fun ⟨k, hk, hb⟩ => ?_⟩
    rcases List.mem_cons.mp hk with rfl | hk
    · have := hlt hb
      omega
    · have := hlt' ⟨k, hk, hb⟩
      omega

/-! ## What a pattern finds -/

theorem mapM_read {ts : List Text} (h : ts.mapM read = .ok globs) :
    globs.map (·.text) = ts ∧ ∀ g ∈ globs, tokensOf g.text = .ok g.tokens := by
  induction ts generalizing globs with
  | nil =>
    cases h
    exact ⟨rfl, fun g hg => absurd hg List.not_mem_nil⟩
  | cons t ts ih =>
    obtain ⟨g, rest, hg, hrest, rfl⟩ := mapM_cons_ok h
    obtain ⟨htexts, htokens⟩ := ih hrest
    unfold read at hg
    obtain ⟨tokens, ht, rfl⟩ : ∃ tokens, tokensOf t = .ok tokens ∧ g = ⟨t, tokens⟩ := by
      cases ht : tokensOf t with
      | error e =>
        rw [ht] at hg
        cases hg
      | ok tokens =>
        rw [ht] at hg
        exact ⟨tokens, rfl, (Except.ok.inj hg).symm⟩
    rw [List.map_cons, htexts]
    exact ⟨rfl, List.forall_mem_cons.mpr ⟨ht, htokens⟩⟩

theorem collapse_eq (h : ∀ g ∈ globs, g.isRecursive = false) : collapse globs = globs := by
  induction globs with
  | nil => rfl
  | cons g globs ih =>
    obtain ⟨hg, hrest⟩ := List.forall_mem_cons.mp h
    cases globs with
    | nil => rfl
    | cons k globs =>
      rw [collapse, hg, Bool.false_and, if_neg Bool.false_ne_true, ih hrest]

/-- The components are the segments, but for an empty one at the end. -/
theorem splitOn_eq_components (t : Text) :
    t.splitOn '/' = components t ∨ t.splitOn '/' = components t ++ [[]] := by
  unfold components
  dsimp only
  split
  · next h =>
    have hlast : (t.splitOn '/').getLast? = some [] := by simpa using h
    obtain ⟨before, hbefore⟩ := List.getLast?_eq_some_iff.mp hlast
    rw [hbefore, List.dropLast_concat]
    exact .inr rfl
  · exact .inl rfl

/-- Together the components have the mass of the pattern. -/
theorem components_mass (t : Text) : ((components t).map Path.mass).sum = Path.mass t := by
  rw [← Path.mass_splitOn]
  rcases splitOn_eq_components t with h | h
  · rw [h]
  · rw [h, List.map_append, List.sum_append]
    rfl

theorem mem_components {c : Char} (hc : c ≠ '/') :
    (∃ s ∈ components t, c ∈ s) ↔ c ∈ t := by
  rw [Path.mem_splitOn hc]
  rcases splitOn_eq_components t with h | h
  · rw [h]
  · rw [h]
    simp

/-- What a pattern with a set but without stars finds is reached by a walk along its components, and
one of them has the set. -/
theorem expand_ok {pattern : Text} {found : List Path} (h : fs.expand pattern = .ok found)
    (hbracket : '[' ∈ pattern) (hstar : '*' ∉ pattern) :
    ∃ start globs, Path.mass start.text = 0 ∧ (∀ g ∈ globs, Spells g.text g.tokens) ∧
      (globs.map fun g => Path.mass g.text).sum = Path.mass pattern ∧
      (∃ g ∈ globs, '[' ∈ g.text) ∧
      ∀ q ∈ found, q ∈ walk fs (pattern.getLast? == some '/') globs start := by
  unfold FileSystem.expand at h
  obtain ⟨_, -, h⟩ := exists_of_bind_ok h
  split at h
  next start rest hstart =>
  obtain ⟨hmass, hrest⟩ : Path.mass start.text = 0 ∧ (pattern = rest ∨ pattern = '/' :: rest) := by
    split at hstart
    · cases hstart
      exact ⟨rfl, .inr rfl⟩
    · cases hstart
      exact ⟨rfl, .inl rfl⟩
  have hsame : Path.mass pattern = Path.mass rest := by
    rcases hrest with rfl | rfl <;> rfl
  have hmem {c : Char} (hc : c ≠ '/') : c ∈ pattern ↔ ∃ s ∈ components rest, c ∈ s := by
    rw [mem_components hc]
    rcases hrest with rfl | rfl
    · rfl
    · simp [hc]
  obtain ⟨globs, hglobs, h⟩ := exists_of_bind_ok h
  obtain ⟨htexts, htokens⟩ := mapM_read hglobs
  have hspells : ∀ g ∈ globs, Spells g.text g.tokens := by
    intro g hg
    refine spells_of_tokensOf (htokens g hg) fun hs => hstar ((hmem (by decide)).mpr ?_)
    exact ⟨g.text, htexts ▸ List.mem_map_of_mem hg, hs⟩
  obtain ⟨s, hs, hb⟩ := (hmem (by decide)).mp hbracket
  obtain ⟨g, hg, rfl⟩ := List.mem_map.mp (htexts.symm ▸ hs)
  refine ⟨start, globs, hmass, hspells, ?_, ⟨g, hg, hb⟩, fun q hq => ?_⟩
  · rw [hsame, ← components_mass, ← htexts, List.map_map]
    rfl
  have hne : rest ≠ [] := by
    rintro rfl
    cases hs
  dsimp only at h
  rw [show (if (rest.isEmpty && !pattern.isEmpty) = true then [⟨[], []⟩] else globs) = globs from
    if_neg (by simp [hne]), collapse_eq fun g hg => (hspells g hg).not_recursive] at h
  split at h
  · cases h
    cases hq
  · cases h
    exact List.mem_mergeSort.mp hq

/-- So it is no path that is equal to the pattern. -/
theorem parts_ne_of_expand {pattern : Path} {found : List Path}
    (h : fs.expand pattern.text = .ok found) (hnames : ∀ n ∈ fs.nodes, n.1.IsNamed)
    (hbracket : '[' ∈ pattern.text) (hstar : '*' ∉ pattern.text) (hq : q ∈ found) :
    q.parts ≠ pattern.parts := by
  obtain ⟨start, globs, hstart, hspells, hsum, hset, hwalk⟩ := expand_ok h hbracket hstar
  have hlt := (mass_of_walk hnames hspells (hwalk q hq)).2 hset
  rw [hstart, hsum, Nat.zero_add] at hlt
  exact fun hparts => hlt.ne (Path.mass_of_parts hparts)

end Glob

end ConversationFlow
