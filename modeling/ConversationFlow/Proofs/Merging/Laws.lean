import ConversationFlow.Proofs.Merging.Runs
import Mathlib.Data.List.Induction

/-!
# Merging again and merging in pieces

What the merger puts out it leaves as it is, at every level of blocks: there is no ELIDE in it, so
each of its steps is a run of its own. And lists that no ELIDE joins are merged apart. Where
a step other than ELIDE was read and another one follows, the merger ends the run that is open and
goes on as it goes from the beginning, only further on in the output (`Grouping.Continues`). How
ELIDE is placed where no run is open depends on the output so far, but then the later list has put
out a step already.
-/

namespace ConversationFlow.Step

open Grouping

/-! ## Merging again -/

/-- A list of steps that stands in another: the whole, or one in a block of one of its steps. -/
inductive HasList : (steps list : List Step) → Prop
  | self {steps : List Step} : HasList steps steps
  | onFailure {steps list : List Step} {s : Step} : s ∈ steps → HasList s.blocks.1 list →
      HasList steps list
  | onSuccess {steps list : List Step} {s : Step} : s ∈ steps → HasList s.blocks.2 list →
      HasList steps list

theorem merges_of_hasList_nil {list : List Step} (h : HasList [] list) : Merges list list := by
  cases h with
  | self => exact .nil
  | onFailure hs | onSuccess hs => cases hs

theorem hasList_cons {s : Step} {rest list : List Step} (h : HasList (s :: rest) list) :
    list = s :: rest ∨ HasList s.blocks.1 list ∨ HasList s.blocks.2 list ∨ HasList rest list := by
  cases h with
  | self => exact .inl rfl
  | onFailure hs hl =>
    rcases List.mem_cons.mp hs with rfl | hs
    · exact .inr (.inl hl)
    · exact .inr (.inr (.inr (.onFailure hs hl)))
  | onSuccess hs hl =>
    rcases List.mem_cons.mp hs with rfl | hs
    · exact .inr (.inr (.inl hl))
    · exact .inr (.inr (.inr (.onSuccess hs hl)))

theorem withBlocks_blocks (s : Step) : s.withBlocks s.blocks.1 s.blocks.2 = s := by
  cases s <;> rfl

/-- The blocks that a step is given, or none for a step that owns none. -/
theorem blocks_withBlocks (s : Step) (f t : List Step) :
    (s.withBlocks f t).blocks = (f, t) ∨ (s.withBlocks f t).blocks = ([], []) := by
  cases s with
  | run | verify => exact .inl rfl
  | _ => exact .inr rfl

theorem not_joins_of_linkFree {rest : List Step} (h : linkFreeAll rest = true) :
    ¬ Joins false rest := by
  rintro ⟨n, s, after, -, rfl, hn⟩
  obtain ⟨m, rfl⟩ := Nat.exists_eq_succ_of_ne_zero (Nat.ne_of_gt (by simpa using hn))
  rw [List.replicate_succ, List.cons_append] at h
  cases h

/-- A foldable step that nothing joins is a run of its own. -/
theorem Merges.single {s : Step} {rest : List Step} (hs : s.Foldable) (h : Merges rest rest)
    (hl : linkFreeAll rest = true) : Merges (s :: rest) (s :: rest) :=
  .run (.last hs) (not_joins_of_linkFree hl) h

theorem foldable_folded {members : List Step} (h : ∀ s ∈ members, s.Foldable) :
    (folded members).Foldable := by
  match members with
  | [] => exact ⟨rfl, rfl, rfl⟩
  | [s] => exact h s List.mem_cons_self
  | _ :: _ :: _ => exact ⟨rfl, rfl, rfl⟩

/-- What is put out is its own result. -/
theorem Merges.again {steps out : List Step} (h : Merges steps out) : Merges out out := by
  induction h with
  | nil => exact .nil
  | link _ ih => exact ih
  | @alone s f t rest out hs hf ht h ihf iht ih =>
    -- The blocks may be empty now, and the step foldable.
    rcases foldable_or_isolated (s.withBlocks f t) with he | hfold | hiso
    · have hfree := linkFree_withBlocks hs hf.linkFree ht.linkFree
      rw [he] at hfree
      cases hfree
    · exact .single hfold ih h.linkFree
    · have hblocks : Merges (s.withBlocks f t).blocks.1 (s.withBlocks f t).blocks.1 ∧
          Merges (s.withBlocks f t).blocks.2 (s.withBlocks f t).blocks.2 := by
        rcases blocks_withBlocks s f t with hb | hb <;> rw [hb]
        · exact ⟨ihf, iht⟩
        · exact ⟨.nil, .nil⟩
      have halone := Merges.alone hiso hblocks.1 hblocks.2 ih
      rwa [withBlocks_blocks] at halone
  | run hc _ h ih => exact .single (foldable_folded hc.foldable) ih h.linkFree

/-- So is every list in its blocks. -/
theorem Merges.settled {steps out list : List Step} (h : Merges steps out)
    (hl : HasList out list) : Merges list list := by
  induction h generalizing list with
  | nil => exact merges_of_hasList_nil hl
  | link _ ih => exact ih hl
  | @alone s f t rest out hs hf ht h ihf iht ih =>
    rcases hasList_cons hl with rfl | hl | hl | hl
    · exact (Merges.alone hs hf ht h).again
    · rcases blocks_withBlocks s f t with hb | hb <;> rw [hb] at hl
      · exact ihf hl
      · exact merges_of_hasList_nil hl
    · rcases blocks_withBlocks s f t with hb | hb <;> rw [hb] at hl
      · exact iht hl
      · exact merges_of_hasList_nil hl
    · exact ih hl
  | @run stretch members rest out hc hr h ih =>
    have hb := (foldable_folded hc.foldable).blocks_eq
    rcases hasList_cons hl with rfl | hl | hl | hl
    · exact (Merges.run hc hr h).again
    · rw [hb] at hl
      exact merges_of_hasList_nil hl
    · rw [hb] at hl
      exact merges_of_hasList_nil hl
    · exact ih hl

/-! ## Merging in pieces -/

namespace Grouping

/-- The merger has put out what it had before, and goes on as it goes from the beginning; a step
has been read since. -/
structure Continues (base g h : Grouping) : Prop where
  out : g.out = base.out ++ h.out
  places : g.places = base.places ++ h.places.map (base.out.length + ·)
  group : g.group = h.group
  linked : g.linked = h.linked
  begun : h.out ≠ [] ∨ h.group ≠ []

variable {base g h : Grouping}

theorem Continues.flush (hc : Continues base g h) : Continues base g.flush h.flush := by
  have hgroup := hc.group
  by_cases he : h.group = []
  · rwa [flush_of_empty he, flush_of_empty (hgroup.trans he)]
  · have hg : g.flush = { g with out := g.out ++ [turn g.group], group := [] } := by
      rw [Grouping.flush, if_neg (by simpa [hgroup] using he)]
    have hh : h.flush = { h with out := h.out ++ [turn h.group], group := [] } := by
      rw [Grouping.flush, if_neg (by simpa using he)]
    rw [hg, hh]
    exact ⟨by rw [hc.out, hgroup, List.append_assoc], hc.places, rfl, hc.linked, .inl (by simp)⟩

/-- One more place, further on by what was put out before. -/
theorem Continues.places_concat (hc : Continues base g h) {m n : Nat}
    (hn : n = base.out.length + m) :
    g.places ++ [n] = base.places ++ (h.places ++ [m]).map (base.out.length + ·) := by
  rw [hc.places, hn, List.map_append, List.map_singleton, List.append_assoc]

theorem Continues.length_out (hc : Continues base g h) :
    g.out.length = base.out.length + h.out.length := by
  rw [hc.out, List.length_append]

/-- One piece is read alike. -/
theorem Continues.feed (hc : Continues base g h) (p : Piece) :
    Continues base (g.feed p) (h.feed p) := by
  cases p with
  | link =>
    have hempty : g.group.isEmpty = h.group.isEmpty := by rw [hc.group]
    refine ⟨hc.out, hc.places_concat ?_, hc.group, rfl, hc.begun⟩
    rw [hempty, hc.length_out]
    cases hg : h.group with
    | nil =>
      -- A run is not open, so a step was put out: its place is not that of a step before.
      have hpos := List.length_pos_iff.mpr (hc.begun.resolve_right fun hne => hne hg)
      simp only [List.isEmpty_nil, if_true]
      omega
    | cons => rfl
  | alone s =>
    have hf := hc.flush
    refine ⟨?_, hf.places_concat hf.length_out, hf.group, rfl, .inl (by simp [Grouping.feed])⟩
    simp only [Grouping.feed, hf.out, List.append_assoc]
  | part s =>
    have hjoins : (g.linked && !g.group.isEmpty) = (h.linked && !h.group.isEmpty) := by
      rw [hc.linked, hc.group]
    have hopen : Continues base (if g.linked && !g.group.isEmpty then g else g.flush)
        (if h.linked && !h.group.isEmpty then h else h.flush) := by
      rw [hjoins]
      split
      · exact hc
      · exact hc.flush
    exact ⟨hopen.out, hopen.places_concat hopen.length_out, by rw [Grouping.feed, hopen.group]; rfl,
      rfl, .inr (by simp [Grouping.feed])⟩

theorem Continues.feed_all (hc : Continues base g h) (pieces : List Piece) :
    Continues base (pieces.foldl Grouping.feed g) (pieces.foldl Grouping.feed h) := by
  induction pieces generalizing g h with
  | nil => exact hc
  | cons p pieces ih => exact ih (hc.feed p)

/-- A step that no link leads to ends the run that is open and is read as the first one. -/
theorem continues_first (hl : g.linked = false) {s : Step} (hs : s.isElide = false) :
    Continues g.flush (g.feed (piece s)) (feed {} (piece s)) := by
  rcases foldable_or_isolated s with rfl | hfold | hiso
  · cases hs
  · rw [piece_of_foldable hfold]
    have hg : (g.linked && !g.group.isEmpty) = false := by rw [hl]; rfl
    constructor <;> simp [Grouping.feed, hg]
  · rw [piece_of_isolated hiso]
    constructor <;> simp [Grouping.feed]

end Grouping

theorem linked_of_last {steps : List Step} (h : steps.getLast? ≠ some .elide) :
    ((piecesOf steps).foldl feed {}).linked = false := by
  induction steps using List.reverseRecOn with
  | nil => rfl
  | append_singleton before s _ =>
    simp only [piecesOf_append, piecesOf, List.foldl_append, List.foldl_cons, List.foldl_nil]
    rcases foldable_or_isolated s with rfl | hs | hs
    · simp at h
    · rw [piece_of_foldable hs]
      rfl
    · rw [piece_of_isolated hs]
      rfl

/-- Lists that no ELIDE joins are merged apart. -/
theorem mergeWithMap_append {a b : List Step} (ha : a.getLast? ≠ some .elide)
    (hb : b.head? ≠ some .elide) : mergeWithMap (a ++ b) =
      (merge a ++ merge b,
        (mergeWithMap a).2 ++ (mergeWithMap b).2.map ((merge a).length + ·)) := by
  cases b with
  | nil => simp [merge, mergeWithMap, ofPieces, piecesOf, flush]
  | cons s rest =>
    have hs : s.isElide = false := by
      cases s with
      | elide => exact absurd rfl hb
      | _ => rfl
    have hfirst := continues_first (linked_of_last ha) hs
    have hall := (hfirst.feed_all (piecesOf rest)).flush
    unfold merge mergeWithMap ofPieces
    rw [piecesOf_append, List.foldl_append, piecesOf, List.foldl_cons, List.foldl_cons]
    exact Prod.ext hall.out hall.places

/-- Merging changes nothing in what was merged, nor in any list in its blocks; and lists that no
ELIDE joins are merged apart, the places of the second moved behind the first. -/
theorem merge_settles_and_splits :
    (∀ steps, merge (merge steps) = merge steps ∧
      ∀ list, HasList (merge steps) list → merge list = list) ∧
    ∀ a b : List Step, a.getLast? ≠ some .elide → b.head? ≠ some .elide →
      mergeWithMap (a ++ b) =
        (merge a ++ merge b,
          (mergeWithMap a).2 ++ (mergeWithMap b).2.map ((merge a).length + ·)) := by
  refine ⟨fun steps => ?_, fun a b => mergeWithMap_append⟩
  have h := ((merge_eq_iff_merges steps (merge steps)).1).mp rfl
  exact ⟨h.again.eq_merge, fun list hl => (h.settled hl).eq_merge⟩

/-- A command with a linked block, then ELIDE behind a step that stands alone: the block is merged
for good, and the place of that ELIDE is counted from the first list's steps. -/
theorem linked_block_settles :
    let command : RunCommand := { command := "make".toList }
    let a : List Step := [.run command [.prompt "fix".toList, .elide] [], .prompt "one".toList]
    let b : List Step :=
      [.checkpoint none, .elide, .prompt "two".toList, .elide, .prompt "six".toList]
    HasList (merge a) [.prompt "fix".toList] ∧
      merge [.prompt "fix".toList] = [.prompt "fix".toList] ∧
      mergeWithMap (a ++ b) =
        ([.run command [.prompt "fix".toList] [], .prompt "one".toList, .checkpoint none,
          .merged { content := "two\nsix".toList }], [0, 1, 2, 2, 3, 3, 3]) := by
  intro command a b
  have hblock : HasList (merge a) [.prompt "fix".toList] :=
    .onFailure (s := .run command [.prompt "fix".toList] []) List.mem_cons_self .self
  refine ⟨hblock, (merge_settles_and_splits.1 a).2 _ hblock, ?_⟩
  rw [merge_settles_and_splits.2 a b nofun nofun]
  rfl

end ConversationFlow.Step
