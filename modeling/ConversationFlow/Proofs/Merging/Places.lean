import ConversationFlow.Proofs.Merging.Runs

/-!
# Where merging puts the steps

The second result of `mergeWithMap` gives a place to every step that was read. `Placed`
says what the places are worth: they do not decrease, each output step is made of exactly
the steps sent to its place, and ELIDE goes where the step before it went. While the steps
are read, the place of the run that is open is the number of steps put out so far; the
invariant `Reading` states this for every state of the merger. Filling the places in when the
run is put out comes to the same (`LateGrouping.ofPieces_eq`).
-/

namespace ConversationFlow.Step

open Grouping

/-- The steps other than ELIDE that a list of places sends to one place, in order. -/
def sentTo (steps : List Step) (places : List Nat) (j : Nat) : List Step :=
  ((steps.zip places).filter fun e => !e.1.isElide && e.2 == j).map (·.1)

/-- The step that is put out for its members: one with its blocks merged, or a merged turn. -/
def emitted : List Step → Step
  | [s] => s.withBlocks (merge s.blocks.1) (merge s.blocks.2)
  | members => .merged (combined members)

/-- What the places of steps say about the steps they were merged to. -/
structure Placed (steps out : List Step) (places : List Nat) : Prop where
  length_eq : places.length = steps.length
  nondecreasing : places.Pairwise (· ≤ ·)
  /-- A step other than ELIDE has a place in the output. -/
  inside : ∀ (i : Nat) (s : Step), steps[i]? = some s → s.isElide = false →
    ∃ j, places[i]? = some j ∧ j < out.length
  /-- An output step is made of the steps sent to it, of which there is at least one. -/
  made : ∀ j : Nat, j < out.length →
    sentTo steps places j ≠ [] ∧ out[j]? = some (emitted (sentTo steps places j))
  /-- ELIDE goes where the nearest other step before it goes. -/
  link : ∀ k i : Nat, k < i → (∀ m, k < m → m ≤ i → steps[m]? = some .elide) →
    places[i]? = places[k]?
  /-- ELIDE without a step before it goes to the first place. -/
  lead : ∀ i : Nat, (∀ m, m ≤ i → steps[m]? = some .elide) → places[i]? = some 0

theorem sentTo_append {steps : List Step} {places : List Nat}
    (h : places.length = steps.length) (s : Step) (p j : Nat) :
    sentTo (steps ++ [s]) (places ++ [p]) j =
      sentTo steps places j ++ if s.isElide = false ∧ p = j then [s] else [] := by
  rw [sentTo, List.zip_append h.symm, List.filter_append, List.map_append]
  by_cases hc : s.isElide = false ∧ p = j
  · simp [sentTo, hc]
  · rw [if_neg hc]
    cases he : s.isElide <;> simp_all [sentTo]

theorem mem_sentTo {steps : List Step} {places : List Nat} {i j : Nat} {s : Step}
    (hs : steps[i]? = some s) (he : s.isElide = false) (hp : places[i]? = some j) :
    s ∈ sentTo steps places j := by
  refine List.mem_map.mpr ⟨(s, j), List.mem_filter.mpr ⟨?_, by simp [he]⟩, rfl⟩
  exact List.mem_of_getElem? (i := i) (by rw [List.getElem?_zip_eq_some]; exact ⟨hs, hp⟩)

theorem emitted_of_foldable {members : List Step} (h : ∀ s ∈ members, s.Foldable) :
    emitted members = folded members := by
  match members with
  | [] => rfl
  | [s] =>
    have hb := (h s (by simp)).blocks_eq
    cases s with
    | run c f t | verify c f t =>
      obtain ⟨rfl, rfl⟩ := Prod.mk.inj hb
      rfl
    | _ => rfl
  | _ :: _ :: _ => rfl

/-! ## Reading one step -/

/-- The place at which the run that is open will stand, or that of the last step put out. -/
def Grouping.current (g : Grouping) : Nat :=
  if g.group = [] then g.out.length - 1 else g.out.length

/-- What holds of the merger's state after reading steps. -/
structure Reading (steps : List Step) (g : Grouping) : Prop where
  length_eq : g.places.length = steps.length
  nondecreasing : g.places.Pairwise (· ≤ ·)
  made : ∀ j, j < g.out.length →
    sentTo steps g.places j ≠ [] ∧ g.out[j]? = some (emitted (sentTo steps g.places j))
  group_eq : sentTo steps g.places g.out.length = g.group
  beyond : ∀ j, g.out.length < j → sentTo steps g.places j = []
  foldable : ∀ s ∈ g.group, s.Foldable
  /-- The last step read went to the current place. -/
  last : ∀ p, g.places.getLast? = some p → p = g.current
  fresh : steps = [] → g.out = [] ∧ g.group = []
  link : ∀ i, steps[i + 1]? = some .elide → g.places[i + 1]? = g.places[i]?
  lead : steps[0]? = some .elide → g.places[0]? = some 0

theorem reading_start : Reading [] {} := by
  constructor <;> simp [sentTo]

theorem le_of_last {places : List Nat} (h : places.Pairwise (· ≤ ·)) {p : Nat}
    (hl : ∀ q, places.getLast? = some q → q ≤ p) : (places ++ [p]).Pairwise (· ≤ ·) := by
  rw [List.pairwise_append]
  refine ⟨h, by simp, fun q hq r hr => ?_⟩
  obtain rfl := List.mem_singleton.mp hr
  obtain ⟨before, z, rfl⟩ : ∃ before z, places = before ++ [z] :=
    ⟨places.dropLast, places.getLast (List.ne_nil_of_mem hq),
      (List.dropLast_concat_getLast _).symm⟩
  have hz : z ≤ r := hl z (by simp)
  rcases List.mem_append.mp hq with hq | hq
  · exact Nat.le_trans ((List.pairwise_append.mp h).2.2 q hq z (by simp)) hz
  · exact (List.mem_singleton.mp hq) ▸ hz

namespace Reading

variable {steps : List Step} {g : Grouping}

theorem flush_places (g : Grouping) : g.flush.places = g.places := by
  unfold flush
  split <;> rfl

theorem length_flush (g : Grouping) :
    g.flush.out.length = g.out.length + if g.group = [] then 0 else 1 := by
  by_cases hg : g.group = [] <;> simp [flush, hg]

theorem current_le_flush (g : Grouping) : g.current ≤ g.flush.out.length := by
  rw [length_flush, current]
  split <;> omega

/-- Ending the run that is open puts it at the place its members were sent to. -/
theorem flush (h : Reading steps g) : Reading steps g.flush := by
  by_cases hg : g.group = []
  · rwa [flush_of_empty hg]
  · have hout : g.flush.out = g.out ++ [folded g.group] := by
      rw [flush_out h.foldable, if_neg hg]
    constructor
    · rw [flush_places]; exact h.length_eq
    · rw [flush_places]; exact h.nondecreasing
    · intro j hj
      rw [flush_places, hout]
      rw [hout, List.length_append, List.length_singleton] at hj
      by_cases hlt : j < g.out.length
      · rw [List.getElem?_append_left hlt]
        exact h.made j hlt
      · obtain rfl : j = g.out.length := by omega
        rw [h.group_eq, List.getElem?_concat_length, emitted_of_foldable h.foldable]
        exact ⟨hg, rfl⟩
    · rw [flush_places, flush_group, hout]
      exact h.beyond _ (by simp)
    · intro j hj
      rw [flush_places]
      exact h.beyond j (by simp [hout] at hj; omega)
    · simp
    · intro p hp
      rw [flush_places] at hp
      rw [h.last p hp]
      simp [current, hg, hout]
    · intro he
      exact absurd (h.fresh he).2 hg
    · rw [flush_places]; exact h.link
    · rw [flush_places]; exact h.lead

/-- How the lists of places grow: ELIDE goes to the place of the step before it. -/
theorem link_append (h : Reading steps g) {s : Step} {p : Nat}
    (hp : s = .elide → p = g.current) :
    (∀ i, (steps ++ [s])[i + 1]? = some .elide →
      (g.places ++ [p])[i + 1]? = (g.places ++ [p])[i]?) ∧
    ((steps ++ [s])[0]? = some .elide → (g.places ++ [p])[0]? = some 0) := by
  have hlen := h.length_eq
  constructor
  · intro i hi
    by_cases hlt : i + 1 < steps.length
    · rw [List.getElem?_append_left hlt] at hi
      rw [List.getElem?_append_left (by omega), List.getElem?_append_left (by omega)]
      exact h.link i hi
    · by_cases heq : i + 1 = steps.length
      · have hs : s = .elide := by
          rw [heq, List.getElem?_concat_length] at hi
          exact Option.some.inj hi
        rw [heq, ← hlen, List.getElem?_concat_length,
          List.getElem?_append_left (by omega), hp hs]
        have hl : g.places.getLast? = g.places[i]? := by
          rw [List.getLast?_eq_getElem?]
          congr 1
          omega
        obtain ⟨q, hq⟩ : ∃ q, g.places[i]? = some q := ⟨_, List.getElem?_eq_getElem (by omega)⟩
        rw [hq, h.last q (hl.trans hq)]
      · have hnone : (steps ++ [s])[i + 1]? = none :=
          List.getElem?_eq_none (by simp; omega)
        rw [hnone] at hi
        cases hi
  · intro h0
    by_cases hs : steps = []
    · subst hs
      have hnil : g.places = [] := List.eq_nil_of_length_eq_zero hlen
      simp only [List.nil_append, List.getElem?_cons_zero, Option.some.injEq] at h0
      obtain ⟨ho, hg⟩ := h.fresh rfl
      rw [hnil, hp h0]
      simp [current, ho, hg]
    · have hpos : 0 < steps.length := List.length_pos_iff.mpr hs
      rw [List.getElem?_append_left hpos] at h0
      rw [List.getElem?_append_left (by omega)]
      exact h.lead h0

theorem feed_elide (h : Reading steps g) : Reading (steps ++ [.elide]) (g.feed .link) := by
  have hplaces : (g.feed .link).places = g.places ++ [g.current] := by
    simp [Grouping.feed, current]
  have sent (j : Nat) :
      sentTo (steps ++ [.elide]) (g.places ++ [g.current]) j = sentTo steps g.places j := by
    rw [sentTo_append h.length_eq]
    simp [isElide]
  obtain ⟨hlink, hlead⟩ := h.link_append (s := .elide) (p := g.current) fun _ => rfl
  constructor
  · simp [hplaces, h.length_eq]
  · rw [hplaces]
    exact le_of_last h.nondecreasing fun q hq => Nat.le_of_eq (h.last q hq)
  · intro j hj
    rw [hplaces, sent]
    exact h.made j hj
  · rw [hplaces, sent]; exact h.group_eq
  · intro j hj
    rw [hplaces, sent]
    exact h.beyond j hj
  · exact h.foldable
  · intro p hp
    rw [hplaces, List.getLast?_concat] at hp
    exact (Option.some.inj hp).symm
  · simp
  · rw [hplaces]; exact hlink
  · rw [hplaces]; exact hlead

/-- A step that stands alone goes behind the run that was open. -/
theorem feed_alone (h : Reading steps g) {s : Step} (hs : s.isElide = false) :
    Reading (steps ++ [s])
      (g.feed (.alone (s.withBlocks (merge s.blocks.1) (merge s.blocks.2)))) := by
  have hf := h.flush
  have hplaces (t : Step) :
      (g.feed (.alone t)).places = g.places ++ [g.flush.out.length] := by
    simp [Grouping.feed, flush_places]
  have hout (t : Step) : (g.feed (.alone t)).out = g.flush.out ++ [t] := by simp [Grouping.feed]
  have hgroup (t : Step) : (g.feed (.alone t)).group = [] := by simp [Grouping.feed]
  have sent (j : Nat) := sentTo_append h.length_eq s g.flush.out.length j
  have notHere := hf.group_eq
  rw [flush_places, flush_group] at notHere
  obtain ⟨hlink, hlead⟩ :=
    h.link_append (s := s) (p := g.flush.out.length) fun he => by simp [he, isElide] at hs
  constructor
  · simp [hplaces, h.length_eq]
  · rw [hplaces]
    exact le_of_last h.nondecreasing fun q hq => h.last q hq ▸ current_le_flush g
  · intro j hj
    rw [hplaces, hout, sent]
    rw [hout, List.length_append, List.length_singleton] at hj
    by_cases hlt : j < g.flush.out.length
    · have hmade := hf.made j hlt
      rw [flush_places] at hmade
      rw [if_neg (by omega), List.append_nil, List.getElem?_append_left hlt]
      exact hmade
    · obtain rfl : j = g.flush.out.length := by omega
      rw [notHere, if_pos ⟨hs, rfl⟩, List.getElem?_concat_length]
      exact ⟨by simp, rfl⟩
  · rw [hplaces, hout, hgroup, sent]
    have hb := hf.beyond (g.flush.out.length + 1) (by omega)
    rw [flush_places] at hb
    rw [List.length_append, List.length_singleton, hb, if_neg (by omega), List.append_nil]
  · intro j hj
    rw [hout, List.length_append, List.length_singleton] at hj
    have hb := hf.beyond j (by omega)
    rw [flush_places] at hb
    rw [hplaces, sent, hb, if_neg (by omega), List.append_nil]
  · rw [hgroup]; simp
  · intro p hp
    rw [hplaces, List.getLast?_concat] at hp
    obtain rfl := Option.some.inj hp
    simp [current, hgroup, hout]
  · simp
  · rw [hplaces]; exact hlink
  · rw [hplaces]; exact hlead

/-- A step taken into a run: `g` is the state in which the run is open or about to begin. -/
theorem take (h : Reading steps g) {s : Step} (hs : s.Foldable) (linked : Bool) :
    Reading (steps ++ [s])
      { g with places := g.places ++ [g.out.length], group := g.group ++ [s], linked } := by
  have sent (j : Nat) := sentTo_append h.length_eq s g.out.length j
  obtain ⟨hlink, hlead⟩ :=
    h.link_append (s := s) (p := g.out.length) fun he => by simp [he, Foldable, isElide] at hs
  constructor
  · simp [h.length_eq]
  · refine le_of_last h.nondecreasing fun q hq => h.last q hq ▸ ?_
    unfold current
    split <;> omega
  · intro j hj
    have hmade := h.made j hj
    rw [sent, if_neg (by simp at hj; omega), List.append_nil]
    exact hmade
  · rw [sent, if_pos ⟨hs.1, rfl⟩, h.group_eq]
  · intro j hj
    rw [sent, h.beyond j hj, if_neg (by simp at hj; omega), List.append_nil]
  · intro t ht
    rcases List.mem_append.mp ht with ht | ht
    · exact h.foldable t ht
    · exact List.mem_singleton.mp ht ▸ hs
  · intro p hp
    rw [List.getLast?_concat] at hp
    obtain rfl := Option.some.inj hp
    simp [current]
  · simp
  · exact hlink
  · exact hlead

theorem feed_part (h : Reading steps g) {s : Step} (hs : s.Foldable) :
    Reading (steps ++ [s]) (g.feed (.part s)) := by
  cases hj : g.linked && !g.group.isEmpty with
  | true =>
    have hfed : g.feed (.part s) =
        { g with places := g.places ++ [g.out.length], group := g.group ++ [s], linked := false } := by
      simp [Grouping.feed, hj]
    rw [hfed]
    exact h.take hs false
  | false =>
    have hfed : g.feed (.part s) =
        { g.flush with
          places := g.flush.places ++ [g.flush.out.length]
          group := g.flush.group ++ [s]
          linked := false } := by
      simp [Grouping.feed, hj]
    rw [hfed]
    exact h.flush.take hs false

/-- One step keeps the invariant. -/
theorem feed (h : Reading steps g) (s : Step) : Reading (steps ++ [s]) (g.feed (piece s)) := by
  rcases foldable_or_isolated s with rfl | hs | hs
  · exact h.feed_elide
  · rw [piece_of_foldable hs]
    exact h.feed_part hs
  · rw [piece_of_isolated hs]
    exact h.feed_alone hs.not_elide

/-- All steps keep it. -/
theorem feed_all (h : Reading steps g) (rest : List Step) :
    Reading (steps ++ rest) ((piecesOf rest).foldl Grouping.feed g) := by
  induction rest generalizing steps g with
  | nil => simpa [piecesOf] using h
  | cons s rest ih =>
    have hrest := ih (h.feed s)
    rwa [List.append_assoc, List.singleton_append] at hrest

/-- A run of ELIDE goes where the step before it goes. -/
theorem links_follow (h : Reading steps g) {k i : Nat} (hki : k < i)
    (hl : ∀ m, k < m → m ≤ i → steps[m]? = some .elide) : g.places[i]? = g.places[k]? := by
  induction i with
  | zero => omega
  | succ i ih =>
    rw [h.link i (hl (i + 1) hki (Nat.le_refl _))]
    by_cases heq : k = i
    · rw [heq]
    · exact ih (by omega) fun m hm hmi => hl m hm (by omega)

/-- Nothing is placed beyond the output once no run is open. -/
theorem inside (h : Reading steps g) (hg : g.group = []) {i : Nat} {s : Step}
    (hs : steps[i]? = some s) (he : s.isElide = false) :
    ∃ j, g.places[i]? = some j ∧ j < g.out.length := by
  have hi : i < g.places.length := by
    rw [h.length_eq]
    exact (List.getElem?_eq_some_iff.mp hs).1
  refine ⟨g.places[i], List.getElem?_eq_getElem hi, ?_⟩
  have hm := mem_sentTo hs he (List.getElem?_eq_getElem hi)
  by_cases hlt : g.places[i] < g.out.length
  · exact hlt
  · by_cases heq : g.places[i] = g.out.length
    · rw [heq, h.group_eq, hg] at hm
      cases hm
    · rw [h.beyond _ (by omega)] at hm
      cases hm

end Reading

/-- Merging places every step. -/
theorem placed_mergeWithMap (steps : List Step) :
    Placed steps (mergeWithMap steps).1 (mergeWithMap steps).2 := by
  have h := (reading_start.feed_all steps).flush
  rw [List.nil_append] at h
  have hg := flush_group ((piecesOf steps).foldl feed {})
  exact
    { length_eq := h.length_eq
      nondecreasing := h.nondecreasing
      inside := fun i s hs he => h.inside hg hs he
      made := h.made
      link := fun k i hki hl => h.links_follow hki hl
      lead := by
        intro i hl
        have h0 := h.lead (hl 0 (Nat.zero_le _))
        by_cases hi : i = 0
        · rw [hi]; exact h0
        · rw [← h0]
          exact h.links_follow (Nat.pos_of_ne_zero hi) fun m _ hmi => hl m hmi }

/-! ## Places that are filled in later

The places of the members of a run can also be left open until the run is put out. They are then
filled in with what `Grouping.feed` writes at once. -/

/-- A merger that leaves places open: `pending` holds which. -/
structure LateGrouping where
  out : List Step := []
  places : List Nat := []
  pending : List Nat := []
  group : List Step := []
  linked : Bool := false

namespace LateGrouping

/-- Writes the place of a run where places were left open. -/
def fillIn (places pending : List Nat) (place : Nat) : List Nat :=
  pending.foldl (fun places i => places.set i place) places

/-- Puts the run out, if one is open. -/
def flush (l : LateGrouping) : LateGrouping :=
  if l.group.isEmpty then l
  else { l with
    out := l.out ++ [turn l.group]
    places := fillIn l.places l.pending l.out.length
    pending := []
    group := [] }

/-- Leaves the place of the next piece open, at 0. -/
def openPlace (l : LateGrouping) : LateGrouping := { l with places := l.places ++ [0] }

def feed (l : LateGrouping) : Piece → LateGrouping
  | .link =>
    if l.group.isEmpty then
      { l with places := l.openPlace.places.set l.places.length (l.out.length - 1), linked := true }
    else { l.openPlace with pending := l.pending ++ [l.places.length], linked := true }
  | .alone s =>
    let f := l.openPlace.flush
    { f with
      places := f.places.set l.places.length f.out.length, out := f.out ++ [s], linked := false }
  | .part s =>
    let f := if l.linked && !l.group.isEmpty then l.openPlace else l.openPlace.flush
    { f with group := f.group ++ [s], pending := f.pending ++ [l.places.length], linked := false }

/-- Filled in now, the places are those of the other merger. -/
structure Agrees (l : LateGrouping) (g : Grouping) : Prop where
  out : l.out = g.out
  group : l.group = g.group
  linked : l.linked = g.linked
  places : fillIn l.places l.pending l.out.length = g.places
  pending : ∀ i ∈ l.pending, i < l.places.length
  idle : l.group = [] → l.pending = []

variable {l : LateGrouping} {g : Grouping}

theorem length_fillIn (places pending : List Nat) (place : Nat) :
    (fillIn places pending place).length = places.length := by
  unfold fillIn
  induction pending generalizing places with
  | nil => rfl
  | cons i pending ih =>
    rw [List.foldl_cons, ih, List.length_set]

theorem fillIn_concat {places pending : List Nat} (h : ∀ i ∈ pending, i < places.length)
    (last place : Nat) :
    fillIn (places ++ [last]) pending place = fillIn places pending place ++ [last] := by
  unfold fillIn
  induction pending generalizing places with
  | nil => rfl
  | cons i pending ih =>
    obtain ⟨hi, hrest⟩ := List.forall_mem_cons.mp h
    rw [List.foldl_cons, List.foldl_cons, List.set_append_left _ _ hi]
    exact ih fun j hj => by rw [List.length_set]; exact hrest j hj

theorem set_concat (places : List Nat) (last place : Nat) :
    (places ++ [last]).set places.length place = places ++ [place] := by
  rw [List.set_append_right _ _ (Nat.le_refl _), Nat.sub_self, List.set_cons_zero]

/-- A place that was just left open is filled in last. -/
theorem fillIn_open {places pending : List Nat} (h : ∀ i ∈ pending, i < places.length)
    (place : Nat) : fillIn (places ++ [0]) (pending ++ [places.length]) place =
      fillIn places pending place ++ [place] := by
  have hlast : fillIn (places ++ [0]) (pending ++ [places.length]) place =
      (fillIn (places ++ [0]) pending place).set places.length place := List.foldl_append
  rw [hlast, fillIn_concat h, ← length_fillIn places pending place, set_concat]

namespace Agrees

/-- Where no run is open, all places are filled in. -/
theorem filled (h : Agrees l g) (hg : l.group = []) : l.places = g.places := by
  rw [← h.places, h.idle hg]
  rfl

theorem flush (h : Agrees l g) : Agrees l.flush g.flush := by
  unfold LateGrouping.flush Grouping.flush
  rw [← h.group]
  cases hg : l.group.isEmpty with
  | true => exact h
  | false => exact ⟨by rw [h.out]; rfl, rfl, h.linked, h.places, nofun, fun _ => rfl⟩

/-- The place that was left open stays so where a run is put out. -/
theorem flush_openPlace (h : Agrees l g) : l.openPlace.flush = l.flush.openPlace := by
  by_cases hg : l.group.isEmpty = true
  · have hopen : l.openPlace.group.isEmpty = true := hg
    rw [LateGrouping.flush, if_pos hopen, LateGrouping.flush, if_pos hg]
  · have hopen : ¬l.openPlace.group.isEmpty = true := hg
    have hplaces : fillIn l.openPlace.places l.pending l.out.length =
        fillIn l.places l.pending l.out.length ++ [0] := fillIn_concat h.pending 0 _
    rw [LateGrouping.flush, if_neg hopen, LateGrouping.flush, if_neg hg]
    exact congrArg (fun places => (⟨l.out ++ [turn l.group], places, [], [], l.linked⟩ : LateGrouping))
      hplaces

theorem length_flush (l : LateGrouping) : l.flush.places.length = l.places.length := by
  unfold LateGrouping.flush
  split
  · rfl
  · exact length_fillIn _ _ _

/-- A piece of a run, whose place is left open. -/
theorem take (h : Agrees l g) {group : List Step} (hgroup : group ≠ []) (linked : Bool) :
    Agrees { l.openPlace with group, pending := l.pending ++ [l.places.length], linked }
      { g with places := g.places ++ [g.out.length], group, linked } where
  out := h.out
  group := rfl
  linked := rfl
  places := by
    rw [← h.places, ← h.out]
    exact fillIn_open h.pending l.out.length
  pending i hi := by
    unfold openPlace
    rw [List.length_append, List.length_singleton]
    rcases List.mem_append.mp hi with hi | hi
    · exact Nat.lt_succ_of_lt (h.pending i hi)
    · rw [List.mem_singleton.mp hi]
      exact Nat.lt_succ_self _
  idle hnil := absurd hnil hgroup

/-- A piece that no run waits for has its place at once. -/
theorem put (h : Agrees l g) (hg : l.group = []) {out : List Step} (place : Nat) (linked : Bool) :
    Agrees { l with places := l.places ++ [place], out, linked }
      { g with places := g.places ++ [place], out, linked } where
  out := rfl
  group := h.group
  linked := rfl
  places := by
    rw [h.idle hg, ← h.filled hg]
    rfl
  pending i hi := by
    rw [h.idle hg] at hi
    cases hi
  idle := h.idle

theorem group_flush (l : LateGrouping) : l.flush.group = [] := by
  unfold LateGrouping.flush
  split
  · next hg => exact List.isEmpty_iff.mp hg
  · rfl

/-- One piece is read alike. -/
theorem feed (h : Agrees l g) (p : Piece) : Agrees (l.feed p) (g.feed p) := by
  have hf := h.flush
  cases p with
  | link =>
    by_cases hg : l.group = []
    · have hlate : l.feed .link =
          { l with places := l.places ++ [l.out.length - 1], out := l.out, linked := true } := by
        rw [LateGrouping.feed, if_pos (List.isEmpty_iff.mpr hg), openPlace, set_concat]
      have hnow : g.feed .link =
          { g with places := g.places ++ [l.out.length - 1], out := l.out, linked := true } := by
        rw [Grouping.feed, if_pos (List.isEmpty_iff.mpr (h.group ▸ hg)), h.out]
      rw [hlate, hnow]
      exact h.put hg _ true
    · have hlate : l.feed .link =
          { l.openPlace with
            group := l.group, pending := l.pending ++ [l.places.length], linked := true } := by
        rw [LateGrouping.feed, if_neg (mt List.isEmpty_iff.mp hg)]
        rfl
      have hnow : g.feed .link =
          { g with places := g.places ++ [g.out.length], group := l.group, linked := true } := by
        rw [Grouping.feed, if_neg (mt List.isEmpty_iff.mp (h.group ▸ hg)), h.group]
      rw [hlate, hnow]
      exact h.take hg true
  | alone s =>
    have hlate : l.feed (.alone s) =
        { l.flush with
          places := l.flush.places ++ [l.flush.out.length], out := l.flush.out ++ [s]
          linked := false } := by
      rw [LateGrouping.feed, h.flush_openPlace, ← length_flush l]
      dsimp only [openPlace]
      rw [set_concat]
    have hnow : g.feed (.alone s) =
        { g.flush with
          places := g.flush.places ++ [l.flush.out.length], out := l.flush.out ++ [s]
          linked := false } := by
      rw [hf.out]
      rfl
    rw [hlate, hnow]
    exact hf.put (group_flush l) _ false
  | part s =>
    have hne (group : List Step) : group ++ [s] ≠ [] :=
      List.append_ne_nil_of_right_ne_nil _ (List.cons_ne_nil s [])
    cases hj : l.linked && !l.group.isEmpty with
    | true =>
      have hlate : l.feed (.part s) =
          { l.openPlace with
            group := l.group ++ [s], pending := l.pending ++ [l.places.length], linked := false } := by
        rw [LateGrouping.feed, hj]
        rfl
      have hnow : g.feed (.part s) =
          { g with
            places := g.places ++ [g.out.length], group := l.group ++ [s], linked := false } := by
        rw [Grouping.feed, ← h.linked, ← h.group, hj, if_pos rfl, h.group]
      rw [hlate, hnow]
      exact h.take (hne _) false
    | false =>
      have hlate : l.feed (.part s) =
          { l.flush.openPlace with
            group := l.flush.group ++ [s]
            pending := l.flush.pending ++ [l.flush.places.length]
            linked := false } := by
        rw [LateGrouping.feed, hj, if_neg Bool.false_ne_true, h.flush_openPlace, length_flush]
        rfl
      have hnow : g.feed (.part s) =
          { g.flush with
            places := g.flush.places ++ [g.flush.out.length]
            group := l.flush.group ++ [s]
            linked := false } := by
        rw [Grouping.feed, ← h.linked, ← h.group, hj, if_neg Bool.false_ne_true, hf.group]
      rw [hlate, hnow]
      exact hf.take (hne _) false

theorem feed_all (h : Agrees l g) (pieces : List Piece) :
    Agrees (pieces.foldl LateGrouping.feed l) (pieces.foldl Grouping.feed g) := by
  induction pieces generalizing l g with
  | nil => exact h
  | cons p pieces ih => exact ih (h.feed p)

end Agrees

/-- The steps that pieces are merged to, and the place of each piece. -/
def ofPieces (pieces : List Piece) : List Step × List Nat :=
  let l := (pieces.foldl feed {}).flush
  (l.out, l.places)

/-- Both mergers give the same. -/
theorem ofPieces_eq (pieces : List Piece) : ofPieces pieces = Grouping.ofPieces pieces := by
  have hstart : Agrees {} {} := ⟨rfl, rfl, rfl, rfl, nofun, fun _ => rfl⟩
  have h := (hstart.feed_all pieces).flush
  exact Prod.ext h.out (h.filled (Agrees.group_flush _))

end LateGrouping

end ConversationFlow.Step
