import ConversationFlow.Detector.Basic
import ConversationFlow.Proofs.Detection.Phrases
import Mathlib.Data.List.Induction

/-!
# The detector and the history of responses

A detector keeps no more than the last fingerprints, as many as make a series. Its verdicts are
nevertheless those that the whole history since it was made or reset calls for: what it keeps is
the end of that history (`LoopDetector.Remembers`), whatever it answered in between. Two responses
count as equal when they agree on their fingerprints themselves; how these would be hashed does
not matter here.
-/

namespace ConversationFlow

/-- A response as it comes to be checked. -/
structure Observation where
  files : FileSystem
  reasoning : Option Text
  response : Text
  cycle : Nat
  tools : Nat

/-- What is done with a detector. -/
inductive DetectorUse where
  | check (o : Observation)
  | reset

namespace LoopDetector

/-- A detector that has seen nothing. -/
def create (s : DetectorSettings) (dir : Path) (nonce : Text) : LoopDetector :=
  { settings := s.effective, stopDir := dir, nonce }

def observe (d : LoopDetector) (o : Observation) : LoopDetector × Option Verdict :=
  d.check o.files o.reasoning o.response o.cycle o.tools

def use (d : LoopDetector) : DetectorUse → LoopDetector
  | .check o => (d.observe o).1
  | .reset => d.reset

/-- The answers of a detector, in order. -/
def answers : LoopDetector → List DetectorUse → List (Option Verdict)
  | _, [] => []
  | d, .check o :: uses => (d.observe o).2 :: answers (d.observe o).1 uses
  | d, .reset :: uses => answers d.reset uses

end LoopDetector

namespace DetectorUse

/-- The history after one more use. -/
def extend (seen : List Observation) : DetectorUse → List Observation
  | .check o => seen ++ [o]
  | .reset => []

/-- The responses that were checked since the last reset. -/
def sinceReset (uses : List DetectorUse) : List Observation := uses.foldl extend []

end DetectorUse

/-! ## The signs -/

/-- Two responses count as equal: they have one length in bytes, and one opening, blanks and case
aside. -/
def CountsAsEqual (a b : Text) : Prop :=
  (Text.lower (Text.join [' '] (Text.words a))).take 200 =
      (Text.lower (Text.join [' '] (Text.words b))).take 200 ∧
    Text.byteLength a = Text.byteLength b

/-- The last `n` responses count as equal. -/
def EndsInSeries (n : Nat) (responses : List Text) : Prop :=
  ∃ earlier last, responses = earlier ++ last ∧ last.length = n ∧
    ∀ a ∈ last, ∀ b ∈ last, CountsAsEqual a b

/-- The signs that a response shows after others. -/
def Observation.Shows (s : DetectorSettings) (stopPath : Path) (earlier : List Observation)
    (o : Observation) : LoopReason → Prop
  | .reasoningPattern => ∃ text, o.reasoning = some text ∧ Text.allBlank text = false ∧
      ∃ l ∈ LoopPattern.all, l.FoundIn text
  | .identicalResponses => 1 < s.identicalThreshold ∧
      EndsInSeries s.identicalThreshold ((earlier ++ [o]).map (·.response))
  | .minimalResponse => 0 < o.cycle ∧ o.tools = 0 ∧
      (Text.trim o.response).length < s.minResponseLength
  | .stopFile => o.files.pathExists stopPath = true

namespace LoopReason

/-- The order in which the signs count. -/
def rank : LoopReason → Nat
  | .reasoningPattern => 0
  | .identicalResponses => 1
  | .minimalResponse => 2
  | .stopFile => 3

theorem rank_injective {r q : LoopReason} (h : r.rank = q.rank) : r = q := by
  cases r <;> cases q <;> simp_all [rank]

/-- The sign that counts among those shown, if there are any. -/
def IsFirst (shown : LoopReason → Prop) : Option LoopReason → Prop
  | none => ∀ r, ¬ shown r
  | some r => shown r ∧ ∀ q, q.rank < r.rank → ¬ shown q

variable {shown : LoopReason → Prop}

theorem IsFirst.unique {a b : Option LoopReason} (ha : IsFirst shown a) (hb : IsFirst shown b) :
    a = b := by
  cases a with
  | none =>
    cases b with
    | none => rfl
    | some q => exact absurd hb.1 (ha q)
  | some r =>
    cases b with
    | none => exact absurd ha.1 (hb r)
    | some q =>
      rcases Nat.lt_trichotomy r.rank q.rank with h | h | h
      · exact absurd ha.1 (hb.2 r h)
      · rw [rank_injective h]
      · exact absurd hb.1 (ha.2 q h)

/-- Looking for the signs one after the other finds the one that counts. -/
theorem isFirst_of_search {pattern repeats brief stop : Bool}
    (h0 : pattern = true ↔ shown .reasoningPattern)
    (h1 : repeats = true ↔ shown .identicalResponses)
    (h2 : brief = true ↔ shown .minimalResponse) (h3 : stop = true ↔ shown .stopFile) :
    IsFirst shown (if pattern then some .reasoningPattern
      else if repeats then some .identicalResponses
      else if brief then some .minimalResponse
      else if stop then some .stopFile else none) := by
  split
  · next h =>
    exact ⟨h0.mp h, fun q hq => absurd hq (Nat.not_lt_zero _)⟩
  next n0 =>
  have n0 := mt h0.mpr n0
  split
  · next h =>
    refine ⟨h1.mp h, fun q hq => ?_⟩
    cases q with
    | reasoningPattern => exact n0
    | _ => exact absurd hq (by decide)
  next n1 =>
  have n1 := mt h1.mpr n1
  split
  · next h =>
    refine ⟨h2.mp h, fun q hq => ?_⟩
    cases q with
    | reasoningPattern => exact n0
    | identicalResponses => exact n1
    | _ => exact absurd hq (by decide)
  next n2 =>
  have n2 := mt h2.mpr n2
  split
  · next h =>
    refine ⟨h3.mp h, fun q hq => ?_⟩
    cases q with
    | reasoningPattern => exact n0
    | identicalResponses => exact n1
    | minimalResponse => exact n2
    | stopFile => exact absurd hq (by decide)
  next n3 =>
  intro q
  cases q with
  | reasoningPattern => exact n0
  | identicalResponses => exact n1
  | minimalResponse => exact n2
  | stopFile => exact mt h3.mpr n3

end LoopReason

/-! ## What a detector remembers -/

theorem Fingerprint.ofResponse_eq_iff {a b : Text} :
    Fingerprint.ofResponse a = Fingerprint.ofResponse b ↔ CountsAsEqual a b := by
  rw [ofResponse, ofResponse, Fingerprint.mk.injEq, CountsAsEqual]

/-- The end of what a list ends with is its end, however much was dropped before. -/
theorem drop_end_append {α : Type} (n : Nat) (xs : List α) (x : α) :
    (xs.drop (xs.length - n) ++ [x]).drop ((xs.drop (xs.length - n) ++ [x]).length - n) =
      (xs ++ [x]).drop ((xs ++ [x]).length - n) := by
  rcases Nat.lt_or_ge xs.length n with h | h
  · rw [Nat.sub_eq_zero_of_le (Nat.le_of_lt h), List.drop_zero]
  · have hdropped : xs.drop (xs.length - n) ++ [x] = (xs ++ [x]).drop (xs.length - n) :=
      (List.drop_append_of_le_length (Nat.sub_le _ _)).symm
    rw [hdropped, List.drop_drop, List.length_drop]
    congr 1
    rw [List.length_append, List.length_singleton]
    omega

namespace LoopDetector

/-- What a detector knows of the responses since it was made or reset. -/
structure Remembers (d : LoopDetector) (seen : List Observation) : Prop where
  recent : d.recent = ((seen.map fun o => Fingerprint.ofResponse o.response).drop
    (seen.length - d.settings.identicalThreshold))
  lengths : d.lengths = seen.map fun o => o.response.length
  lastReasoning : d.lastReasoning =
    (seen.getLast?.bind (·.reasoning)).filter fun text => !Text.allBlank text

variable {d : LoopDetector} {seen : List Observation}

theorem Remembers.reset : d.reset.Remembers [] := ⟨List.drop_nil.symm, rfl, rfl⟩

theorem Remembers.observe (h : d.Remembers seen) (o : Observation) :
    (d.observe o).1.Remembers (seen ++ [o]) where
  recent := by
    have hrecent : (d.observe o).1.recent = (d.recent ++ [Fingerprint.ofResponse o.response]).drop
        ((d.recent ++ [Fingerprint.ofResponse o.response]).length -
          d.settings.identicalThreshold) := rfl
    have hkept := drop_end_append d.settings.identicalThreshold
      (seen.map fun o => Fingerprint.ofResponse o.response) (Fingerprint.ofResponse o.response)
    rw [List.length_map, ← h.recent] at hkept
    rw [hrecent, hkept, List.map_append, List.length_append, List.length_append, List.length_map]
    rfl
  lengths := by
    have hlengths : (d.observe o).1.lengths = d.lengths ++ [o.response.length] := rfl
    rw [hlengths, h.lengths, List.map_append]
    rfl
  lastReasoning := by
    rw [List.getLast?_concat]
    rfl

theorem settings_use (use : DetectorUse) : (d.use use).settings = d.settings ∧
    (d.use use).stopDir = d.stopDir ∧ (d.use use).nonce = d.nonce := by
  cases use <;> exact ⟨rfl, rfl, rfl⟩

/-- A detector remembers what it has seen since the last reset, and keeps its settings. -/
theorem remembers_uses (s : DetectorSettings) (dir : Path) (nonce : Text)
    (uses : List DetectorUse) :
    (uses.foldl use (create s dir nonce)).Remembers (DetectorUse.sinceReset uses) ∧
      (uses.foldl use (create s dir nonce)).settings = s.effective ∧
      (uses.foldl use (create s dir nonce)).stopDir = dir ∧
      (uses.foldl use (create s dir nonce)).nonce = nonce := by
  induction uses using List.reverseRecOn with
  | nil => exact ⟨⟨List.drop_nil.symm, rfl, rfl⟩, rfl, rfl, rfl⟩
  | append_singleton uses use ih =>
    obtain ⟨hseen, hsettings, hdir, hnonce⟩ := ih
    unfold DetectorUse.sinceReset at hseen ⊢
    rw [List.foldl_concat, List.foldl_concat]
    obtain ⟨hs, hd, hn⟩ := settings_use (d := uses.foldl LoopDetector.use (create s dir nonce)) use
    refine ⟨?_, hs.trans hsettings, hd.trans hdir, hn.trans hnonce⟩
    cases use with
    | check o => exact hseen.observe o
    | reset => exact .reset

/-! ## The verdicts -/

theorem allEqual_iff {α : Type} [DecidableEq α] {xs : List α} :
    (xs.all fun x => xs.head? == some x) = true ↔ ∀ a ∈ xs, ∀ b ∈ xs, a = b := by
  rw [List.all_eq_true]
  cases xs with
  | nil => exact ⟨fun _ a ha => absurd ha List.not_mem_nil, fun _ a ha => absurd ha List.not_mem_nil⟩
  | cons x xs =>
    have hhead (y : α) : ((x :: xs).head? == some y) = true ↔ x = y := by
      rw [List.head?_cons, beq_iff_eq, Option.some.injEq]
    constructor
    · intro h a ha b hb
      exact ((hhead a).mp (h a ha)).symm.trans ((hhead b).mp (h b hb))
    · intro h a ha
      exact (hhead a).mpr (h x List.mem_cons_self a ha)

theorem repeats_iff (h : d.Remembers seen) :
    d.repeats = true ↔ 1 < d.settings.identicalThreshold ∧
      EndsInSeries d.settings.identicalThreshold (seen.map (·.response)) := by
  rw [repeats, Bool.and_eq_true, Bool.and_eq_true, decide_eq_true_eq, decide_eq_true_eq,
    allEqual_iff, and_assoc, h.recent, List.length_drop, List.length_map]
  refine and_congr_right fun hmany => ?_
  constructor
  · rintro ⟨hlong, hequal⟩
    refine ⟨_, _, (List.take_append_drop (seen.length - d.settings.identicalThreshold) _).symm,
      ?_, ?_⟩
    · rw [List.length_drop, List.length_map]
      omega
    · intro a ha b hb
      have hof {c : Text} (hc : c ∈ (seen.map (·.response)).drop
          (seen.length - d.settings.identicalThreshold)) : Fingerprint.ofResponse c ∈
          (seen.map fun o => Fingerprint.ofResponse o.response).drop
            (seen.length - d.settings.identicalThreshold) := by
        rw [← List.map_drop] at hc ⊢
        obtain ⟨o, ho, rfl⟩ := List.mem_map.mp hc
        exact List.mem_map_of_mem ho
      exact Fingerprint.ofResponse_eq_iff.mp (hequal _ (hof ha) _ (hof hb))
  · rintro ⟨earlier, last, heq, hlast, hequal⟩
    have hlength : seen.length = earlier.length + d.settings.identicalThreshold := by
      rw [← hlast, ← List.length_append, ← heq, List.length_map]
    refine ⟨by omega, ?_⟩
    have hprints : (seen.map fun o => Fingerprint.ofResponse o.response).drop
        (seen.length - d.settings.identicalThreshold) = last.map Fingerprint.ofResponse := by
      have hmap : (seen.map fun o => Fingerprint.ofResponse o.response) =
          (earlier ++ last).map Fingerprint.ofResponse := by
        rw [← heq, List.map_map]
        rfl
      rw [hmap, List.map_append, hlength, Nat.add_sub_cancel]
      exact List.drop_left' (List.length_map _)
    rw [hprints]
    intro f hf g hg
    obtain ⟨a, ha, rfl⟩ := List.mem_map.mp hf
    obtain ⟨b, hb, rfl⟩ := List.mem_map.mp hg
    exact Fingerprint.ofResponse_eq_iff.mpr (hequal a ha b hb)

theorem pattern?_isSome_iff {o : Observation} (h : d.Remembers (seen ++ [o])) :
    d.pattern?.isSome = true ↔ ∃ text, o.reasoning = some text ∧ Text.allBlank text = false ∧
      ∃ l ∈ LoopPattern.all, l.FoundIn text := by
  rw [pattern?, h.lastReasoning, List.getLast?_concat, Option.bind_some, Option.isSome_iff_exists]
  simp only [Option.bind_eq_some_iff, Option.filter_eq_some_iff, LoopPattern.find?]
  constructor
  · rintro ⟨l, text, ⟨htext, hblank⟩, hl⟩
    refine ⟨text, htext, by simpa using hblank, l, List.mem_of_find?_eq_some hl, ?_⟩
    exact LoopPattern.occursIn_iff.mp (by simpa using List.find?_some hl)
  · rintro ⟨text, htext, hblank, l, hl, hfound⟩
    have hsome : (LoopPattern.all.find? fun l => l.occursIn text).isSome = true :=
      List.find?_isSome.mpr ⟨l, hl, LoopPattern.occursIn_iff.mpr hfound⟩
    obtain ⟨first, hfirst⟩ := Option.isSome_iff_exists.mp hsome
    exact ⟨first, text, ⟨htext, by simpa using hblank⟩, hfirst⟩

end LoopDetector

theorem StopFile.read_isSome {fs : FileSystem} {dir : Path} {nonce : Text} :
    (StopFile.read fs dir nonce).isSome = fs.pathExists (StopFile.path dir nonce) := by
  unfold StopFile.read
  dsimp only
  cases fs.pathExists (StopFile.path dir nonce) with
  | false => rfl
  | true =>
    rw [Bool.not_true, if_neg Bool.false_ne_true]
    split <;> rfl

namespace LoopDetector

variable {d : LoopDetector} {seen : List Observation}

/-- The signs are looked for one after the other. -/
theorem verdict_reason (fs : FileSystem) (response : Text) (cycle tools : Nat) :
    (d.verdict fs response cycle tools).map (·.reason) =
      if d.pattern?.isSome then some .reasoningPattern
      else if d.repeats then some .identicalResponses
      else if d.saysTooLittle response cycle tools then some .minimalResponse
      else if fs.pathExists d.stopPath then some .stopFile else none := by
  unfold verdict
  cases d.pattern? with
  | some l => rfl
  | none =>
    rw [Option.isSome_none, if_neg Bool.false_ne_true]
    dsimp only
    split
    · rfl
    split
    · rfl
    have hread : (d.stopRequest fs).isSome = fs.pathExists d.stopPath := StopFile.read_isSome
    rw [← hread]
    cases d.stopRequest fs <;> rfl

theorem verdict_cycle {fs : FileSystem} {response : Text} {cycle tools : Nat} {v : Verdict}
    (h : d.verdict fs response cycle tools = some v) :
    v.cycle = cycle + 1 ∧
      v.stopRequest = if v.reason = .stopFile then d.stopRequest fs else none := by
  unfold verdict at h
  split at h
  · cases h
    exact ⟨rfl, rfl⟩
  split at h
  · cases h
    exact ⟨rfl, rfl⟩
  split at h
  · cases h
    exact ⟨rfl, rfl⟩
  obtain ⟨request, hrequest, rfl⟩ := Option.map_eq_some_iff.mp h
  exact ⟨rfl, (if_pos rfl).trans hrequest |>.symm⟩

/-- The verdict on a response is the first sign that it shows after those it follows. -/
theorem observe_isFirst (h : d.Remembers seen) (o : Observation) :
    LoopReason.IsFirst (o.Shows d.settings d.stopPath seen)
      ((d.observe o).2.map (·.reason)) := by
  have hnew := h.observe o
  have hverdict : (d.observe o).2 =
      (d.observe o).1.verdict o.files o.response o.cycle o.tools := rfl
  rw [hverdict, verdict_reason]
  refine LoopReason.isFirst_of_search (pattern?_isSome_iff hnew) (repeats_iff hnew) ?_ Iff.rfl
  rw [saysTooLittle, Bool.and_eq_true, Bool.and_eq_true, decide_eq_true_eq, decide_eq_true_eq,
    beq_iff_eq, and_assoc]
  rfl

/-- A detector that is reset is a new one, whatever it has seen. -/
theorem reset_uses (s : DetectorSettings) (dir : Path) (nonce : Text) (uses : List DetectorUse) :
    (uses.foldl use (create s dir nonce)).reset = create s dir nonce := by
  obtain ⟨-, hsettings, hdir, hnonce⟩ := remembers_uses s dir nonce uses
  unfold reset
  rw [hsettings, hdir, hnonce]
  rfl

/-- Whatever was done with a detector, its next verdict is the first sign shown by the responses
since the last reset, and once reset it answers as a new one does. -/
theorem answers_by_history (s : DetectorSettings) (dir : Path) (nonce : Text)
    (uses : List DetectorUse) (o : Observation) (later : List DetectorUse) :
    let d := uses.foldl use (create s dir nonce)
    (∀ sign, (d.observe o).2.map (·.reason) = sign ↔
      LoopReason.IsFirst (o.Shows s.effective (StopFile.path dir nonce)
        (DetectorUse.sinceReset uses)) sign) ∧
    (∀ v, (d.observe o).2 = some v → v.cycle = o.cycle + 1 ∧
      v.stopRequest = if v.reason = .stopFile then StopFile.read o.files dir nonce else none) ∧
    answers d.reset later = answers (create s dir nonce) later := by
  intro d
  obtain ⟨hseen, hsettings, hdir, hnonce⟩ := remembers_uses s dir nonce uses
  have hpath : d.stopPath = StopFile.path dir nonce := by
    rw [stopPath, hdir, hnonce]
  have hfirst := observe_isFirst hseen o
  rw [hsettings, hpath] at hfirst
  refine ⟨fun sign => ⟨fun h => h ▸ hfirst, hfirst.unique⟩, fun v hv => ?_, ?_⟩
  · have hrequest : (d.observe o).1.stopRequest o.files = StopFile.read o.files dir nonce := by
      change StopFile.read o.files d.stopDir d.nonce = _
      rw [hdir, hnonce]
    rw [← hrequest]
    exact verdict_cycle hv
  · rw [reset_uses]

/-- Two responses that differ in case make a series, which a response before a reset does not. -/
theorem series_counts_from_reset :
    let o (text : String) : Observation := ⟨⟨[], [], [], []⟩, none, text.toList, 0, 1⟩
    let shown (seen : List Observation) : LoopReason → Prop :=
      (o "NOTHING to do").Shows {} (StopFile.path "w" "n".toList) seen
    LoopReason.IsFirst (shown [o "Nothing to do"]) (some .identicalResponses) ∧
      LoopReason.IsFirst (shown []) none := by
  intro o shown
  have answered (uses : List DetectorUse) :=
    (answers_by_history {} "w" "n".toList uses (o "NOTHING to do") []).1
  exact ⟨(answered [.check (o "Nothing to do")] _).mp (by decide +kernel),
    (answered [.check (o "Nothing to do"), .reset] _).mp (by decide +kernel)⟩

end LoopDetector

end ConversationFlow
