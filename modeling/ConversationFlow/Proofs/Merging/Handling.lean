import ConversationFlow.Proofs.Compilation.Lists
import ConversationFlow.Proofs.Merging.Places
import Mathlib.Data.List.Induction

/-!
# What merging does to the handling of failures

A command or a check says what is done when it fails: by its blocks, and a command by its retries.
The merger looks at the blocks only. A step with blocks stands alone and keeps all it says; a
command without blocks that ELIDE links to another step of a turn becomes a line of that turn, and
its retries are gone. Which of the two happens can be read off the steps around it.
-/

namespace ConversationFlow

namespace Step

open Grouping

/-! ## Links from and to a step -/

variable {linked : Bool} {s : Step} {rest : List Step}

theorem not_joins_nil : ¬Joins linked [] := by
  rintro ⟨n, s, after, -, h, -⟩
  exact List.append_ne_nil_of_right_ne_nil _ (List.cons_ne_nil s after) h.symm

theorem joins_elide_iff : Joins linked (.elide :: rest) ↔ Joins true rest := by
  constructor
  · rintro ⟨n, s, after, hs, h, -⟩
    cases n with
    | zero =>
      obtain rfl := (List.cons.inj h).1
      cases hs.1
    | succ n =>
      rw [List.replicate_succ, List.cons_append] at h
      exact ⟨n, s, after, hs, (List.cons.inj h).2, .inl rfl⟩
  · rintro ⟨n, s, after, hs, rfl, -⟩
    exact ⟨n + 1, s, after, hs, by rw [List.replicate_succ, List.cons_append], .inr n.succ_pos⟩

theorem joins_cons_iff (he : s.isElide = false) :
    Joins linked (s :: rest) ↔ linked = true ∧ s.Foldable := by
  constructor
  · rintro ⟨n, t, after, ht, h, hl⟩
    cases n with
    | zero =>
      obtain rfl := (List.cons.inj h).1
      exact ⟨hl.resolve_right (Nat.lt_irrefl 0), ht⟩
    | succ n =>
      rw [List.replicate_succ, List.cons_append] at h
      obtain rfl := (List.cons.inj h).1
      cases he
  · rintro ⟨rfl, hs⟩
    exact ⟨0, s, rest, hs, rfl, .inl rfl⟩

theorem Isolated.not_foldable (h : s.Isolated) : ¬s.Foldable := by
  rintro ⟨-, hc, hb⟩
  rcases h with h | h
  · rw [hc] at h
    cases h
  · rw [hb] at h
    cases h

/-! ## The run that is open -/

theorem feed_alone_group (g : Grouping) (s : Step) :
    (g.feed (.alone s)).group = [] ∧ (g.feed (.alone s)).out = g.flush.out ++ [s] := by
  simp [Grouping.feed]

theorem feed_part_open (g : Grouping) (s : Step) :
    (g.feed (.part s)).group ≠ [] ∧ (g.feed (.part s)).linked = false := by
  simp [Grouping.feed]

/-- A run is open behind some steps if a foldable step with nothing but links behind it is the last
of them, and it is linked if there is such a link. -/
theorem open_iff_joins (before : List Step) :
    let g := (piecesOf before).foldl Grouping.feed {}
    (g.group ≠ [] ↔ Joins true before.reverse) ∧
      (g.linked = true ∧ g.group ≠ [] ↔ Joins false before.reverse) := by
  -- From the end: whether a run is open is decided by the last step that is no link.
  induction before using List.reverseRecOn with
  | nil =>
    exact ⟨⟨fun h => absurd rfl h, fun h => absurd h not_joins_nil⟩,
      fun h => absurd rfl h.2, fun h => absurd h not_joins_nil⟩
  | append_singleton before s ih =>
    simp only [piecesOf_append, piecesOf, List.foldl_append, List.foldl_cons, List.foldl_nil,
      List.reverse_append, List.reverse_singleton, List.singleton_append] at ih ⊢
    generalize (piecesOf before).foldl Grouping.feed {} = g at ih ⊢
    rcases foldable_or_isolated s with rfl | hs | hs
    · rw [joins_elide_iff, joins_elide_iff]
      exact ⟨ih.1, ⟨fun h => ih.1.mp h.2, fun h => ⟨rfl, ih.1.mpr h⟩⟩⟩
    · rw [joins_cons_iff hs.1, joins_cons_iff hs.1, piece_of_foldable hs]
      obtain ⟨hg, hl⟩ := feed_part_open g s
      rw [hl]
      exact ⟨⟨fun _ => ⟨rfl, hs⟩, fun _ => hg⟩, fun h => (by cases h.1), fun h => (by cases h.1)⟩
    · rw [joins_cons_iff hs.not_elide, joins_cons_iff hs.not_elide, piece_of_isolated hs,
        (feed_alone_group g _).1]
      exact ⟨⟨fun h => absurd rfl h, fun h => absurd h.2 hs.not_foldable⟩,
        fun h => absurd rfl h.2, fun h => by cases h.1⟩

/-! ## What is put out stays -/

theorem flush_keeps (g : Grouping) : g.out <+: g.flush.out := by
  unfold flush
  split
  · exact List.prefix_refl _
  · exact List.prefix_append _ _

theorem feed_keeps (g : Grouping) (p : Piece) :
    g.out <+: (g.feed p).out ∧ g.places <+: (g.feed p).places := by
  have hplaces (h : Grouping) (n : Nat) (hh : h.places = g.places) : g.places <+: h.places ++ [n] :=
    hh ▸ List.prefix_append _ _
  cases p with
  | link => exact ⟨List.prefix_refl _, hplaces g _ rfl⟩
  | alone s =>
    exact ⟨(flush_keeps g).trans (List.prefix_append _ _), hplaces g.flush _ (Reading.flush_places g)⟩
  | part s =>
    unfold Grouping.feed
    dsimp only
    split
    · exact ⟨List.prefix_refl _, hplaces g _ rfl⟩
    · exact ⟨flush_keeps g, hplaces g.flush _ (Reading.flush_places g)⟩

theorem final_keeps (g : Grouping) (rest : List Step) :
    g.out <+: ((piecesOf rest).foldl Grouping.feed g).flush.out ∧
      g.places <+: ((piecesOf rest).foldl Grouping.feed g).flush.places := by
  induction rest generalizing g with
  | nil =>
    refine ⟨flush_keeps g, ?_⟩
    rw [Reading.flush_places]
    exact List.prefix_refl _
  | cons s rest ih =>
    obtain ⟨hout, hplaces⟩ := feed_keeps g (piece s)
    obtain ⟨hout', hplaces'⟩ := ih (g.feed (piece s))
    exact ⟨hout.trans hout', hplaces.trans hplaces'⟩

theorem getElem?_of_concat_prefix {α : Type} {out final : List α} {a : α} (h : out ++ [a] <+: final) :
    final[out.length]? = some a := by
  simpa using List.prefix_iff_getElem?.mp h out.length (by simp)

/-- A run that is closed is put out as it is. -/
theorem getElem?_closed {g : Grouping} (hg : g.group ≠ []) (hf : ∀ s ∈ g.group, s.Foldable)
    {final : List Step} (h : g.flush.out <+: final) :
    final[g.out.length]? = some (folded g.group) := by
  rw [flush_out hf, if_neg hg] at h
  exact getElem?_of_concat_prefix h

theorem final_closed {g : Grouping} (hg : g.group ≠ []) (hf : ∀ s ∈ g.group, s.Foldable) {p : Piece}
    (h : g.flush.out <+: (g.feed p).out) (rest : List Step) :
    ((piecesOf rest).foldl Grouping.feed (g.feed p)).flush.out[g.out.length]? =
      some (folded (g.group ++ [])) := by
  rw [List.append_nil]
  exact getElem?_closed hg hf (h.trans (final_keeps (g.feed p) rest).1)

/-- The run that is open is put out with the steps that join it, which are none if none does. -/
theorem final_run (rest : List Step) (g : Grouping) (hg : g.group ≠ [])
    (hf : ∀ s ∈ g.group, s.Foldable) :
    ∃ more, ((piecesOf rest).foldl Grouping.feed g).flush.out[g.out.length]? =
        some (folded (g.group ++ more)) ∧ (more = [] ↔ ¬Joins g.linked rest) := by
  induction rest generalizing g with
  | nil =>
    refine ⟨[], ?_, fun _ => not_joins_nil, fun _ => rfl⟩
    rw [List.append_nil]
    exact getElem?_closed hg hf (List.prefix_refl _)
  | cons s rest ih =>
    rw [piecesOf, List.foldl_cons]
    rcases foldable_or_isolated s with rfl | hs | hs
    · obtain ⟨more, hmore, hiff⟩ := ih (g.feed .link) hg hf
      exact ⟨more, hmore, hiff.trans (not_congr joins_elide_iff.symm)⟩
    · rw [piece_of_foldable hs, joins_cons_iff hs.1]
      cases hl : g.linked with
      | true =>
        obtain ⟨hout, hgroup, -⟩ := feed_part_joined s hl hg
        have hmembers : ∀ t ∈ (g.feed (.part s)).group, t.Foldable := by
          rw [hgroup]
          intro t ht
          rcases List.mem_append.mp ht with ht | ht
          · exact hf t ht
          · rw [List.mem_singleton.mp ht]
            exact hs
        obtain ⟨more, hmore, -⟩ := ih (g.feed (.part s)) (feed_part_open g s).1 hmembers
        rw [hout, hgroup, List.append_assoc] at hmore
        exact ⟨s :: more, hmore, fun h => (by cases h), fun h => absurd ⟨rfl, hs⟩ h⟩
      | false =>
        obtain ⟨hout, -, -⟩ := feed_part_apart s (.inl hl)
        exact ⟨[], final_closed hg hf (hout ▸ List.prefix_refl _) rest, fun _ h => (by cases h.1),
          fun _ => rfl⟩
    · rw [piece_of_isolated hs, joins_cons_iff hs.not_elide]
      refine ⟨[], final_closed hg hf ?_ rest, fun _ h => hs.not_foldable h.2, fun _ => rfl⟩
      rw [(feed_alone_group g _).2]
      exact List.prefix_append _ _

/-! ## Where a step goes -/

/-- Some other step of a turn is linked to the step. -/
def IsLinked (before after : List Step) : Prop := Joins false before.reverse ∨ Joins false after

theorem feed_alone_places (g : Grouping) (s : Step) :
    (g.feed (.alone s)).places = g.places ++ [g.flush.out.length] := by
  rw [← Reading.flush_places g]
  rfl

theorem feed_part_places (g : Grouping) (s : Step) :
    (g.feed (.part s)).places = g.places ++ [(g.feed (.part s)).out.length] := by
  unfold Grouping.feed
  dsimp only
  split
  · rfl
  · rw [Reading.flush_places]

theorem folded_append {members more : List Step} (h : members ≠ []) (hm : more ≠ []) :
    folded (members ++ more) = .merged (combined (members ++ more)) := by
  match members, more with
  | [], _ => exact absurd rfl h
  | _, [] => exact absurd rfl hm
  | [_], _ :: _ => rfl
  | _ :: _ :: _, _ :: _ => rfl

/-- What the run becomes that a step joins or begins: the step itself, if none is linked to it. -/
theorem folded_of_feed_part {before after : List Step} {s : Step} {g : Grouping}
    (hg : g.linked = true ∧ g.group ≠ [] ↔ Joins false before.reverse) {more : List Step}
    (hmore : more = [] ↔ ¬Joins false after) :
    (¬IsLinked before after → folded ((g.feed (.part s)).group ++ more) = s) ∧
      (IsLinked before after → ∃ members, s ∈ members ∧
        folded ((g.feed (.part s)).group ++ more) = .merged (combined members)) := by
  by_cases hbefore : Joins false before.reverse
  · obtain ⟨hl, hne⟩ := hg.mpr hbefore
    refine ⟨fun h => absurd (.inl hbefore) h, fun _ => ⟨g.group ++ ([s] ++ more), by simp, ?_⟩⟩
    rw [(feed_part_joined s hl hne).2.1, List.append_assoc]
    exact folded_append hne (List.cons_ne_nil s more)
  · have hapart : g.linked = false ∨ g.group = [] := by
      by_contra h
      rw [not_or, Bool.not_eq_false] at h
      exact hbefore (hg.mp h)
    rw [(feed_part_apart s hapart).2.1]
    refine ⟨fun h => ?_, fun h => ⟨[s] ++ more, List.mem_cons_self, ?_⟩⟩
    · rw [hmore.mpr fun ha => h (.inr ha)]
      rfl
    · have hne : more ≠ [] := fun he => hmore.mp he (h.resolve_left hbefore)
      exact folded_append (List.cons_ne_nil s []) hne

/-- What a step other than ELIDE is merged to: the step itself with its blocks merged, or, if no block
keeps it apart and another step is linked to it, one turn with that step. -/
theorem mergeWithMap_at (before : List Step) {s : Step} (hs : s.isElide = false)
    (after : List Step) :
    ∃ j t, (mergeWithMap (before ++ s :: after)).2[before.length]? = some j ∧
      (merge (before ++ s :: after))[j]? = some t ∧
      (s.Isolated ∨ ¬IsLinked before after →
        t = s.withBlocks (merge s.blocks.1) (merge s.blocks.2)) ∧
      (¬s.Isolated → IsLinked before after →
        ∃ members, s ∈ members ∧ t = .merged (combined members)) := by
  obtain ⟨-, hjoins⟩ := open_iff_joins before
  have hreading := reading_start.feed_all before
  rw [List.nil_append] at hreading
  unfold merge mergeWithMap ofPieces
  rw [piecesOf_append, List.foldl_append, piecesOf, List.foldl_cons]
  generalize (piecesOf before).foldl Grouping.feed {} = g at hjoins hreading ⊢
  -- What follows the step adds to the output and to the places, and changes nothing of them.
  obtain ⟨hout, hplaces⟩ := final_keeps (g.feed (piece s)) after
  rw [← hreading.length_eq]
  rcases foldable_or_isolated s with rfl | hfold | hiso
  · cases hs
  · rw [piece_of_foldable hfold] at hout hplaces ⊢
    rw [feed_part_places] at hplaces
    obtain ⟨hopen, hlinked⟩ := feed_part_open g s
    have hmembers := (hreading.feed s).foldable
    rw [piece_of_foldable hfold] at hmembers
    obtain ⟨more, hat, hmore⟩ := final_run after (g.feed (.part s)) hopen hmembers
    rw [hlinked] at hmore
    obtain ⟨hself, hturn⟩ := folded_of_feed_part hjoins hmore
    refine ⟨_, _, getElem?_of_concat_prefix hplaces, hat, ?_, ?_⟩
    · rintro (hiso | hapart)
      · exact absurd hfold hiso.not_foldable
      · rw [hself hapart]
        have hemitted : emitted [s] = folded [s] := emitted_of_foldable (by simpa using hfold)
        exact hemitted.symm
    · exact fun _ h => hturn h
  · rw [piece_of_isolated hiso] at hout hplaces ⊢
    rw [(feed_alone_group g _).2] at hout
    rw [feed_alone_places] at hplaces
    exact ⟨_, _, getElem?_of_concat_prefix hplaces, getElem?_of_concat_prefix hout, fun _ => rfl,
      fun h => absurd hiso h⟩

/-- Nothing is put out for ELIDE alone, and something for every other step. -/
theorem merge_eq_nil_iff {steps : List Step} : merge steps = [] ↔ ∀ s ∈ steps, s = .elide := by
  have hplaced := placed_mergeWithMap steps
  constructor
  · intro h s hs
    obtain ⟨i, hi⟩ := List.mem_iff_getElem?.mp hs
    cases he : s.isElide with
    | true =>
      cases s <;> first | rfl | cases he
    | false =>
      obtain ⟨j, -, hj⟩ := hplaced.inside i s hi he
      rw [show (mergeWithMap steps).1 = [] from h] at hj
      exact absurd hj (Nat.not_lt_zero j)
  · intro h
    by_contra hne
    obtain ⟨s, hs⟩ := List.exists_mem_of_ne_nil _ (hplaced.made 0 (List.length_pos_iff.mpr hne)).1
    obtain ⟨e, he, rfl⟩ := List.mem_map.mp hs
    obtain ⟨hz, hkept⟩ := List.mem_filter.mp he
    rw [h e.1 (List.of_mem_zip hz).1] at hkept
    cases hkept

/-! ## What a turn keeps of its members -/

theorem listing_bare (s : Step) : s.bare.listing? = s.listing? := by
  cases s <;> rfl

theorem ownText_bare (s : Step) : s.bare.ownText = s.ownText := by
  cases s <;> rfl

theorem added_bare (s : Step) : s.bare.added? = s.added? := by
  cases s <;> rfl

theorem listed_bare (k : CommandKind) (members : List Step) :
    listed k (members.map bare) = listed k members := by
  unfold listed
  rw [List.filterMap_map]
  congr 1
  funext s
  simp only [Function.comp_apply, listing_bare]

theorem parts_bare (before members : List Step) :
    parts (before.map bare) (members.map bare) = parts before members := by
  induction members generalizing before with
  | nil => rfl
  | cons s rest ih =>
    have hpart : part (before.map bare) s.bare = part before s := by
      unfold part
      rw [listing_bare, ownText_bare]
      split
      · rw [listed_bare]
      · rfl
    rw [List.map_cons, parts, parts, hpart, ← ih, List.map_append]
    rfl

/-- A turn does not know the retries of its members. -/
theorem combined_bare (members : List Step) : combined (members.map bare) = combined members := by
  have hparts : parts [] (members.map bare) = parts [] members := parts_bare [] members
  have hadded : (members.map bare).filterMap added? = members.filterMap added? := by
    rw [List.filterMap_map]
    congr 1
    funext s
    exact s.added_bare
  unfold combined
  simp only [hparts, hadded, listed_bare]

/-! ## What a step says of its failure -/

open Draft

/-- The command of a step, with its retries. -/
def runCommand? : Step → Option RunCommand
  | .run c _ _ => some c
  | _ => none

/-- The step is a command that says how often it is tried again, or after which prompt. -/
def Retried (s : Step) : Prop := ∃ c f g, s = .run c f g ∧ c ≠ { command := c.command }

/-- What `s` says of its failure is still said by `t`. -/
structure KeepsHandling (s t : Step) : Prop where
  retries : s.Retried → t.runCommand? = s.runCommand?
  /-- A block is with the same command or check, and holds a step. -/
  blocks : ∀ kind, blockOf kind s ≠ [] → t.bare = s.bare ∧ blockOf kind t ≠ []

theorem runCommand_withBlocks {f g : List Step} : (s.withBlocks f g).runCommand? = s.runCommand? := by
  cases s <;> rfl

theorem bare_withBlocks {f g : List Step} : (s.withBlocks f g).bare = s.bare := by
  cases s <;> rfl

theorem blockOf_withBlocks (h : s.canOwnBlocks = true) (kind : BlockKind) :
    blockOf kind (s.withBlocks (merge s.blocks.1) (merge s.blocks.2)) = merge (blockOf kind s) := by
  cases s with
  | run c f t | verify c f t => cases kind <;> rfl
  | _ => cases h

theorem ownsBlocks_of_blockOf {kind : BlockKind} (h : blockOf kind s ≠ []) :
    s.ownsBlocks = true := by
  rw [ownsBlocks, Bool.or_eq_true, Bool.not_eq_true', Bool.not_eq_true', List.isEmpty_eq_false_iff,
    List.isEmpty_eq_false_iff]
  cases kind with
  | onFailure => exact .inl h
  | onSuccess => exact .inr h

theorem isolated_iff_of_canOwnBlocks (h : s.canOwnBlocks = true) :
    s.Isolated ↔ s.ownsBlocks = true := by
  cases s with
  | run c f t | verify c f t => exact ⟨fun hi => hi.resolve_left nofun, .inr⟩
  | _ => cases h

end Step

namespace StepList

open Step

/-- The list that the steps of a list are merged to. -/
def merged (steps : List Step) : StepList → StepList
  | .top => .top
  | .block owner kind => .block (((mergeWithMap steps).2[owner]?).getD owner) kind

theorem exists_split {steps : List Step} {i : Nat} {s : Step} (h : steps[i]? = some s) :
    ∃ before after, steps = before ++ s :: after ∧ before.length = i := by
  obtain ⟨hi, rfl⟩ := List.getElem?_eq_some_iff.mp h
  refine ⟨steps.take i, steps.drop (i + 1), ?_, List.length_take_of_le (Nat.le_of_lt hi)⟩
  rw [← List.drop_eq_getElem_cons hi, List.take_append_drop]

/-- The blocks go with their owner, and are merged by themselves. -/
theorem of_merged {steps : List Step} {l : StepList} (h : l.of steps ≠ []) :
    (l.merged steps).of (merge steps) = merge (l.of steps) := by
  cases l with
  | top => rfl
  | block owner kind =>
    unfold StepList.of at h ⊢
    dsimp only [merged] at h ⊢
    cases hs : steps[owner]? with
    | none =>
      rw [hs] at h
      exact absurd rfl h
    | some s =>
      rw [hs] at h
      have howns : s.ownsBlocks = true := ownsBlocks_of_blockOf h
      obtain ⟨before, after, rfl, rfl⟩ := exists_split hs
      obtain ⟨j, t, hj, ht, hself, -⟩ := mergeWithMap_at before (Isolated.not_elide (.inr howns)) after
      rw [hj, Option.getD_some, ht, hself (.inl (.inr howns))]
      exact blockOf_withBlocks (canOwnBlocks_of_ownsBlocks howns) kind

end StepList

namespace Conversation

open Step Draft

/-- No turn takes in the command or the check: it owns blocks, or no other step is linked to it. -/
def StandsApart (before : List Step) (s : Step) (after : List Step) : Prop :=
  s.ownsBlocks = true ∨ ¬IsLinked before after

/-- What merging makes of the command or the check `s` between others of its list: `t`. -/
structure Treated (before : List Step) (s : Step) (after : List Step) (t : Step) : Prop where
  apart : StandsApart before s after → t = s.withBlocks (merge s.blocks.1) (merge s.blocks.2)
  /-- A line of a turn, which is the same whatever the retries of its members. -/
  line : ¬StandsApart before s after → ∃ members, s ∈ members ∧ t = .merged (combined members) ∧
    combined (members.map bare) = combined members
  /-- The retries are lost in a turn, and a block if there is nothing in it but ELIDE. -/
  kept : KeepsHandling s t ↔ (s.Retried → StandsApart before s after) ∧
    ∀ kind, blockOf kind s ≠ [] → ∃ u ∈ blockOf kind s, u ≠ .elide

variable {before after : List Step} {s : Step}

theorem treated_of_apart (hs : s.canOwnBlocks = true) (h : StandsApart before s after) :
    Treated before s after (s.withBlocks (merge s.blocks.1) (merge s.blocks.2)) where
  apart _ := rfl
  line hturn := absurd h hturn
  kept := by
    have hkept (kind : BlockKind) :
        blockOf kind (s.withBlocks (merge s.blocks.1) (merge s.blocks.2)) ≠ [] ↔
          ∃ u ∈ blockOf kind s, u ≠ .elide := by
      rw [blockOf_withBlocks hs, Ne, merge_eq_nil_iff]
      push Not
      rfl
    constructor
    · exact fun hk => ⟨fun _ => h, fun kind hb => (hkept kind).mp (hk.blocks kind hb).2⟩
    · exact fun hk => ⟨fun _ => runCommand_withBlocks, fun kind hb =>
        ⟨bare_withBlocks, (hkept kind).mpr (hk.2 kind hb)⟩⟩

theorem treated_of_turn (h : ¬StandsApart before s after) {members : List Step}
    (hs : s ∈ members) : Treated before s after (.merged (combined members)) where
  apart hapart := absurd hapart h
  line _ := ⟨members, hs, rfl, combined_bare members⟩
  kept := by
    have hblocks (kind : BlockKind) (hb : blockOf kind s ≠ []) : False :=
      h (.inl (ownsBlocks_of_blockOf hb))
    constructor
    · intro hk
      refine ⟨fun hr => ?_, fun kind hb => (hblocks kind hb).elim⟩
      have hlost : none = s.runCommand? := hk.retries hr
      obtain ⟨c, f, g, rfl, -⟩ := hr
      cases hlost
    · exact fun hk => ⟨fun hr => absurd (hk.1 hr) h, fun kind hb => (hblocks kind hb).elim⟩

/-- Merging keeps the failure handling of a command or a check, outside blocks and in a block, just
if the step is no command with retries that becomes a line of a turn, and no block of it holds only
ELIDE. -/
theorem handling_kept_iff (c : Compiled) {l : StepList}
    (hl : l.of c.steps = before ++ s :: after) (hs : s.canOwnBlocks = true) :
    ∃ j t, (mergeWithMap (l.of c.steps)).2[before.length]? = some j ∧
      ((l.merged c.steps).of (ofCompiled c).steps)[j]? = some t ∧ Treated before s after t := by
  have hne : l.of c.steps ≠ [] := by
    rw [hl]
    exact List.append_ne_nil_of_right_ne_nil _ (List.cons_ne_nil s after)
  have hsteps : (l.merged c.steps).of (ofCompiled c).steps = merge (before ++ s :: after) :=
    (StepList.of_merged hne).trans (congrArg merge hl)
  obtain ⟨j, t, hj, ht, hapart, hturn⟩ := mergeWithMap_at before (not_elide_of_canOwnBlocks hs) after
  have hiff : s.Isolated ↔ s.ownsBlocks = true := isolated_iff_of_canOwnBlocks hs
  refine ⟨j, t, (by rwa [hl]), (by rwa [hsteps]), ?_⟩
  by_cases h : StandsApart before s after
  · rw [hapart (h.imp_left hiff.mpr)]
    exact treated_of_apart hs h
  · have hlinked : IsLinked before after := Classical.not_not.mp fun hn => h (.inr hn)
    obtain ⟨members, hmem, rfl⟩ := hturn (fun hi => h (.inl (hiff.mp hi))) hlinked
    exact treated_of_turn h hmem

/-- A command with retries. -/
def retriedCommand : Step :=
  .run ⟨"make".toList, 3, some RunCommand.defaultRetryPrompt⟩ [] []

/-- The command, linked to a prompt. -/
def linkedCommand : Compiled := ⟨{}, [retriedCommand, .elide, .prompt "hi".toList], none⟩

theorem ofText_linkedCommand : Compiled.ofText FileSystem.empty .empty
    "RUN make\nRUN-RETRY 3\nELIDE\nPROMPT hi".toList = .ok linkedCommand := by
  have hds : Directive.ofDocument .empty "RUN make\nRUN-RETRY 3\nELIDE\nPROMPT hi".toList =
      [⟨.builtin .run, "make".toList, 1⟩, ⟨.builtin .runRetry, "3".toList, 2⟩,
        ⟨.builtin .elide, [], 3⟩, ⟨.builtin .prompt, "hi".toList, 4⟩] := rfl
  unfold Compiled.ofText
  rw [hds]
  iterate 4 rw [Event.ofDirectives_plain rfl fun _ => Instruction.noConfusion]
  rw [Event.ofDirectives]
  rfl

/-- The retries are nowhere in the conversation, which is one turn. -/
theorem linked_command_is_not_retried :
    Compiled.ofText FileSystem.empty .empty
      "RUN make\nRUN-RETRY 3\nELIDE\nPROMPT hi".toList = .ok linkedCommand ∧
    StepList.top.of linkedCommand.steps = [] ++ retriedCommand :: [.elide, .prompt "hi".toList] ∧
    retriedCommand.canOwnBlocks = true ∧
    ∃ t, (ofCompiled linkedCommand).steps = [t] ∧
      Treated [] retriedCommand [.elide, .prompt "hi".toList] t ∧
      ¬KeepsHandling retriedCommand t := by
  have hsplit : StepList.top.of linkedCommand.steps =
      [] ++ retriedCommand :: [.elide, .prompt "hi".toList] := rfl
  obtain ⟨j, t, hj, ht, htreated⟩ := handling_kept_iff linkedCommand hsplit rfl
  obtain rfl : 0 = j := Option.some.inj hj
  obtain rfl := Option.some.inj ht
  refine ⟨ofText_linkedCommand, hsplit, rfl, _, rfl, htreated, fun hk => ?_⟩
  have hlinked : IsLinked [] [.elide, .prompt "hi".toList] :=
    .inr ⟨1, _, _, ⟨rfl, rfl, rfl⟩, rfl, .inr Nat.one_pos⟩
  rcases (htreated.kept.mp hk).1 ⟨_, _, _, rfl, by decide⟩ with h | h
  · cases h
  · exact h hlinked

end Conversation

end ConversationFlow
