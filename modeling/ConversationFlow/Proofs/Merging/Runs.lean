import ConversationFlow.Proofs.Merging.Turn

/-!
# Merging groups maximal runs

`Merges` says without a state machine what merging is: a step that is isolated is put out
alone, with its blocks merged by the same rule; foldable steps that ELIDE and nothing else
holds together are put out as one step, and such a run ends only where it cannot go on.
The merger reads the steps once and keeps the run that is open; `merge_out` relates any
state of it to the rule, so that the rule has exactly one result, the merger's.
-/

namespace ConversationFlow

namespace Step

/-- A step that no turn takes in: it controls the session or owns a block with steps. -/
def Isolated (s : Step) : Prop := s.isControl = true ∨ s.ownsBlocks = true

/-- A stretch of steps in which each two neighbouring members are separated by at least one
ELIDE and by nothing else, and these members. -/
inductive Chain : (stretch members : List Step) → Prop
  | last {s : Step} : s.Foldable → Chain [s] [s]
  | link {s : Step} {stretch members : List Step} (n : Nat) : s.Foldable →
      Chain stretch members →
      Chain (s :: (List.replicate (n + 1) .elide ++ stretch)) (s :: members)

/-- Whether a run that is open takes in a step of those that follow: a foldable step behind
links. With `linked`, a link has been read already. -/
def Joins (linked : Bool) (rest : List Step) : Prop :=
  ∃ (n : Nat) (s : Step) (after : List Step),
    s.Foldable ∧ rest = List.replicate n .elide ++ s :: after ∧ (linked = true ∨ 0 < n)

/-- The step that a run becomes: its only member, or one merged turn. -/
def folded : List Step → Step
  | [s] => s
  | members => .merged (combined members)

/-- The rule of merging. -/
inductive Merges : (steps out : List Step) → Prop
  | nil : Merges [] []
  | link {rest out : List Step} : Merges rest out → Merges (.elide :: rest) out
  | alone {s : Step} {f t rest out : List Step} : s.Isolated →
      Merges s.blocks.1 f → Merges s.blocks.2 t → Merges rest out →
      Merges (s :: rest) (s.withBlocks f t :: out)
  | run {stretch members rest out : List Step} : Chain stretch members →
      ¬ Joins false rest → Merges rest out →
      Merges (stretch ++ rest) (folded members :: out)

mutual

/-- Whether a step is no ELIDE and holds none in its blocks. -/
def linkFree : Step → Bool
  | .elide => false
  | .run _ f t => linkFreeAll f && linkFreeAll t
  | .verify _ f t => linkFreeAll f && linkFreeAll t
  | _ => true

/-- Whether no step of a list is ELIDE or holds one in its blocks. -/
def linkFreeAll : List Step → Bool
  | [] => true
  | s :: rest => linkFree s && linkFreeAll rest

end

theorem Foldable.blocks_eq {s : Step} (h : s.Foldable) : s.blocks = ([], []) := by
  have hb := h.2.2
  simp only [ownsBlocks, Bool.or_eq_false_iff, Bool.not_eq_false', List.isEmpty_iff] at hb
  exact Prod.ext hb.1 hb.2

theorem Isolated.not_elide {s : Step} (h : s.Isolated) : s.isElide = false := by
  cases s with
  | elide => rcases h with h | h <;> simp [isControl, ownsBlocks, blocks] at h
  | _ => rfl

theorem foldable_or_isolated (s : Step) : s = .elide ∨ s.Foldable ∨ s.Isolated := by
  by_cases hc : s.isControl = true
  · exact Or.inr (Or.inr (Or.inl hc))
  · by_cases hb : s.ownsBlocks = true
    · exact Or.inr (Or.inr (Or.inr hb))
    · cases he : s.isElide with
      | false => exact Or.inr (Or.inl ⟨he, by simpa using hc, by simpa using hb⟩)
      | true =>
        cases s with
        | elide => exact Or.inl rfl
        | _ => simp [isElide] at he

/-- The members of a chain are foldable. -/
theorem Chain.foldable {stretch members : List Step} (h : Chain stretch members) :
    ∀ s ∈ members, s.Foldable := by
  induction h with
  | last hs => simpa using hs
  | link n hs _ ih => exact List.forall_mem_cons.mpr ⟨hs, ih⟩

theorem Chain.ne_nil {stretch members : List Step} (h : Chain stretch members) :
    members ≠ [] := by
  cases h <;> simp

/-! ## Pieces -/

open Grouping

theorem piece_of_foldable {s : Step} (h : s.Foldable) : piece s = .part s := by
  have hb := h.blocks_eq
  obtain ⟨notLink, notControl, -⟩ := h
  cases s with
  | run c f t | verify c f t =>
    obtain ⟨rfl, rfl⟩ := Prod.mk.inj hb
    rfl
  | checkpoint | compact | newConversation | pause => simp [isControl] at notControl
  | elide => simp [isElide] at notLink
  | _ => rfl

theorem piece_of_isolated {s : Step} (h : s.Isolated) :
    piece s = .alone (s.withBlocks (merge s.blocks.1) (merge s.blocks.2)) := by
  cases s with
  | run c f t | verify c f t =>
    have hb : (f.isEmpty && t.isEmpty) = false := by
      rcases h with h | h
      · simp [isControl] at h
      · rw [Bool.eq_false_iff]
        intro both
        simp_all [ownsBlocks, blocks]
    simp only [piece, hb, blocks, withBlocks, merge, mergeWithMap]
    rfl
  | checkpoint | compact | newConversation | pause => rfl
  | _ => rcases h with h | h <;> simp [isControl, ownsBlocks, blocks] at h

theorem turn_eq_folded {members : List Step} (h : ∀ s ∈ members, s.Foldable) :
    turn members = folded members := by
  match members with
  | [] => simp only [turn, folded, MergedPrompt.ofSteps_eq_combined h]
  | [s] => rfl
  | s :: t :: rest => simp only [turn, folded, MergedPrompt.ofSteps_eq_combined h]

/-! ## The merger follows the rule -/

@[simp] theorem flush_of_empty {g : Grouping} (h : g.group = []) : g.flush = g := by
  simp [flush, h]

@[simp] theorem flush_group (g : Grouping) : g.flush.group = [] := by
  unfold flush
  split
  · next h => simpa using h
  · rfl

/-- A foldable step begins a new run unless a link leads to it from the run that is open. -/
theorem feed_part_apart {g : Grouping} (s : Step) (h : g.linked = false ∨ g.group = []) :
    (g.feed (.part s)).out = g.flush.out ∧ (g.feed (.part s)).group = [s] ∧
      (g.feed (.part s)).linked = false := by
  have hf : (g.linked && !g.group.isEmpty) = false := by
    rcases h with h | h <;> simp [h]
  simp [feed, hf]

/-- A foldable step behind a link joins the run that is open. -/
theorem feed_part_joined {g : Grouping} (s : Step) (hl : g.linked = true) (hg : g.group ≠ []) :
    (g.feed (.part s)).out = g.out ∧ (g.feed (.part s)).group = g.group ++ [s] ∧
      (g.feed (.part s)).linked = false := by
  have hf : (g.linked && !g.group.isEmpty) = true := by simp [hl, hg]
  simp [feed, hf]

theorem piecesOf_append (a b : List Step) : piecesOf (a ++ b) = piecesOf a ++ piecesOf b := by
  induction a with
  | nil => rfl
  | cons s rest ih => simp [piecesOf, ih]

/-- Links leave the run that is open as it is. -/
theorem feed_links (n : Nat) (g : Grouping) :
    let g' := (piecesOf (List.replicate (n + 1) .elide)).foldl feed g
    g'.out = g.out ∧ g'.group = g.group ∧ g'.linked = true := by
  induction n generalizing g with
  | zero => simp [piecesOf, piece, feed]
  | succ n ih =>
    obtain ⟨ho, hg, hl⟩ := ih (g.feed .link)
    rw [List.replicate_succ]
    exact ⟨ho.trans rfl, hg.trans rfl, hl⟩

/-- Behind an open run, or at its beginning, a chain adds its members to the run. -/
theorem Chain.feed {stretch members : List Step} (h : Chain stretch members) (g : Grouping)
    (hg : g.group = [] ∨ g.linked = true) :
    let g' := (piecesOf stretch).foldl Grouping.feed g
    g'.out = g.out ∧ g'.group = g.group ++ members ∧ g'.linked = false := by
  -- one member: it joins the run, or begins one where none is open
  have member {s : Step} (hs : s.Foldable) (g : Grouping) (hg : g.group = [] ∨ g.linked = true) :
      (g.feed (piece s)).out = g.out ∧ (g.feed (piece s)).group = g.group ++ [s] ∧
        (g.feed (piece s)).linked = false := by
    rw [piece_of_foldable hs]
    by_cases he : g.group = []
    · have hp := feed_part_apart (g := g) s (Or.inr he)
      simpa [he, flush_of_empty he] using hp
    · exact feed_part_joined s (hg.resolve_left he) he
  induction h generalizing g with
  | last hs => exact member hs g hg
  | @link s stretch members n hs _ ih =>
    obtain ⟨ho, hg', _⟩ := member hs g hg
    obtain ⟨lo, lg, ll⟩ := feed_links n (g.feed (piece s))
    simp only [piecesOf, piecesOf_append, List.foldl_cons, List.foldl_append]
    obtain ⟨ro, rg, rl⟩ := ih _ (Or.inr ll)
    refine ⟨ro.trans (lo.trans ho), ?_, rl⟩
    rw [rg, lg, hg', List.append_assoc, List.singleton_append]

/-- A chain that nothing leads to from an open run begins a run of its own. -/
theorem Chain.feed_apart {stretch members : List Step} (h : Chain stretch members)
    (g : Grouping) (hg : g.group = [] ∨ g.linked = false) :
    let g' := (piecesOf stretch).foldl Grouping.feed g
    g'.out = g.flush.out ∧ g'.group = members ∧ g'.linked = false := by
  cases h with
  | last hs =>
    simp only [piecesOf, List.foldl_cons, List.foldl_nil, piece_of_foldable hs]
    exact feed_part_apart _ hg.symm
  | @link s stretch members n hs hc =>
    obtain ⟨ho, hg', _⟩ := feed_part_apart (g := g) s hg.symm
    obtain ⟨lo, lg, ll⟩ := feed_links n (g.feed (.part s))
    simp only [piecesOf, piecesOf_append, List.foldl_cons, List.foldl_append,
      piece_of_foldable hs]
    obtain ⟨ro, rg, rl⟩ := hc.feed _ (Or.inr ll)
    refine ⟨ro.trans (lo.trans ho), ?_, rl⟩
    rw [rg, lg, hg', List.singleton_append]

theorem flush_out {g : Grouping} (h : ∀ s ∈ g.group, s.Foldable) :
    g.flush.out = g.out ++ if g.group = [] then [] else [folded g.group] := by
  by_cases hg : g.group = []
  · simp [hg]
  · simp [flush, hg, turn_eq_folded h]

/-- From any state in which the open run does not go on, the merger puts out that run and
then what the rule gives for the steps that follow. -/
theorem merge_out {steps out : List Step} (h : Merges steps out) (g : Grouping)
    (hg : g.group = [] ∨ ¬ Joins g.linked steps) :
    ((piecesOf steps).foldl feed g).flush.out = g.flush.out ++ out := by
  induction h generalizing g with
  | nil => simp [piecesOf]
  | @link rest out _ ih =>
    have hflush : (g.feed .link).flush.out = g.flush.out := by
      by_cases he : g.group = [] <;> simp [feed, flush, he]
    refine (ih (g.feed .link) ?_).trans (by rw [hflush])
    refine hg.imp id fun hn ⟨n, s, after, hs, hr, _⟩ => hn ?_
    exact ⟨n + 1, s, after, hs, by rw [hr, List.replicate_succ, List.cons_append],
      Or.inr n.succ_pos⟩
  | @alone s f t rest out hs _ _ _ ihf iht ih =>
    have hf : merge s.blocks.1 = f := by
      simpa [merge, mergeWithMap, ofPieces, flush] using ihf {} (Or.inl rfl)
    have ht : merge s.blocks.2 = t := by
      simpa [merge, mergeWithMap, ofPieces, flush] using iht {} (Or.inl rfl)
    have hempty : (g.feed (.alone (s.withBlocks f t))).group = [] := by simp [feed]
    have hfed := ih (g.feed (.alone (s.withBlocks f t))) (Or.inl hempty)
    simp only [piecesOf, List.foldl_cons, piece_of_isolated hs, hf, ht, hfed,
      flush_of_empty hempty]
    simp [feed]
  | @run stretch members rest out hc hr _ ih =>
    have apart : g.group = [] ∨ g.linked = false := by
      refine hg.imp id fun hn => Bool.eq_false_iff.mpr fun hl => hn ?_
      cases hc with
      | last hs => exact ⟨0, _, rest, hs, rfl, Or.inl hl⟩
      | link n hs _ => exact ⟨0, _, _, hs, rfl, Or.inl hl⟩
    obtain ⟨ho, hm, hl⟩ := hc.feed_apart g apart
    have hrest := ih ((piecesOf stretch).foldl feed g) (Or.inr (by rw [hl]; exact hr))
    rw [piecesOf_append, List.foldl_append, hrest, flush_out (by rw [hm]; exact hc.foldable),
      ho, hm, if_neg hc.ne_nil, List.append_assoc, List.singleton_append]

/-- What the rule gives is what the merger puts out. -/
theorem Merges.eq_merge {steps out : List Step} (h : Merges steps out) : merge steps = out := by
  simpa [merge, mergeWithMap, ofPieces, flush] using merge_out h {} (Or.inl rfl)

/-! ## The rule always gives a result -/

/-- From a foldable step on, the longest chain ends where no further step joins it. -/
theorem exists_chain {s : Step} (hs : s.Foldable) (rest : List Step) :
    ∃ tail members after, rest = tail ++ after ∧ Chain (s :: tail) members ∧
      ¬ Joins false after := by
  induction hn : rest.length using Nat.strongRecOn generalizing s rest with
  | ind k ih =>
    by_cases hj : Joins false rest
    · obtain ⟨n, t, after, ht, rfl, hpos⟩ := hj
      obtain ⟨m, rfl⟩ := Nat.exists_eq_succ_of_ne_zero (Nat.ne_of_gt (by simpa using hpos))
      have shorter : after.length < k := by simp at hn; omega
      obtain ⟨tail, members, left, rfl, hc, hl⟩ := ih _ shorter ht after rfl
      exact ⟨List.replicate (m + 1) .elide ++ t :: tail, s :: members, left,
        by simp, .link m hs hc, hl⟩
    · exact ⟨[], [s], rest, rfl, .last hs, hj⟩

theorem sizeOf_le_append (a b : List Step) : sizeOf b ≤ sizeOf (a ++ b) := by
  induction a with
  | nil => exact Nat.le_refl _
  | cons s rest ih =>
    rw [List.cons_append, List.cons.sizeOf_spec]
    omega

theorem sizeOf_blocks_lt (s : Step) (rest : List Step) :
    sizeOf s.blocks.1 < sizeOf (s :: rest) ∧ sizeOf s.blocks.2 < sizeOf (s :: rest) := by
  cases s <;> simp [blocks] <;> omega

/-- Every list of steps has a result under the rule. -/
theorem exists_merges (steps : List Step) : ∃ out, Merges steps out := by
  induction hn : sizeOf steps using Nat.strongRecOn generalizing steps with
  | ind k ih =>
    subst hn
    match steps with
    | [] => exact ⟨[], .nil⟩
    | s :: rest =>
      rcases foldable_or_isolated s with rfl | hs | hs
      · obtain ⟨out, h⟩ := ih _ (by simp) rest rfl
        exact ⟨out, .link h⟩
      · obtain ⟨tail, members, after, rfl, hc, hj⟩ := exists_chain hs rest
        have shorter := sizeOf_le_append tail after
        obtain ⟨out, h⟩ := ih _ (by rw [List.cons.sizeOf_spec]; omega) after rfl
        exact ⟨_, .run hc hj h⟩
      · obtain ⟨f, hf⟩ := ih _ (sizeOf_blocks_lt s rest).1 _ rfl
        obtain ⟨t, ht⟩ := ih _ (sizeOf_blocks_lt s rest).2 _ rfl
        obtain ⟨out, h⟩ := ih _ (by rw [List.cons.sizeOf_spec]; omega) rest rfl
        exact ⟨_, .alone hs hf ht h⟩

/-! ## No link is left -/

theorem linkFree_withBlocks {s : Step} {f t : List Step} (hs : s.Isolated)
    (hf : linkFreeAll f = true) (ht : linkFreeAll t = true) :
    linkFree (s.withBlocks f t) = true := by
  have notLink := hs.not_elide
  cases s with
  | elide => simp [isElide] at notLink
  | run | verify => simp [withBlocks, linkFree, hf, ht]
  | _ => rfl

theorem linkFree_folded {members : List Step} (hm : ∀ s ∈ members, s.Foldable) :
    linkFree (folded members) = true := by
  match members with
  | [] => rfl
  | [s] =>
    have hs := hm s (by simp)
    have hb := hs.blocks_eq
    cases s with
    | elide => simp [Foldable, isElide] at hs
    | run c f t | verify c f t =>
      obtain ⟨rfl, rfl⟩ := Prod.mk.inj hb
      rfl
    | _ => rfl
  | _ :: _ :: _ => rfl

theorem Merges.linkFree {steps out : List Step} (h : Merges steps out) :
    linkFreeAll out = true := by
  induction h with
  | nil => rfl
  | link _ ih => exact ih
  | alone hs _ _ _ ihf iht ih => simp [linkFreeAll, linkFree_withBlocks hs ihf iht, ih]
  | run hc _ _ ih => simp [linkFreeAll, linkFree_folded hc.foldable, ih]

/-- The merger puts out what the rule of merging says, and nothing else is a result of the
rule: isolated steps stand alone with their blocks merged, each maximal run of linked steps
is one step, in the order of the input. No ELIDE is left at any level. -/
theorem merge_eq_iff_merges (steps out : List Step) :
    (merge steps = out ↔ Merges steps out) ∧ linkFreeAll (merge steps) = true := by
  obtain ⟨result, h⟩ := exists_merges steps
  obtain rfl := h.eq_merge
  exact ⟨⟨fun he => he ▸ h, Merges.eq_merge⟩, h.linkFree⟩

end Step

end ConversationFlow
