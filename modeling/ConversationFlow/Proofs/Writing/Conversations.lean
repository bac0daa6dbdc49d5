import ConversationFlow.Proofs.Writing.Blocks

/-!
# Conversations that are written and read again

The points for humans are written behind the steps that they follow, so that reading puts the points
that follow one step behind those that follow the steps before it. Since the compiler lists them in
this order, the lists come back whole.
-/

namespace ConversationFlow

/-! ## Points in the order of their places -/

namespace HumanPoint

variable {points : List HumanPoint}

/-- The points with so many steps before them. -/
def placed (points : List HumanPoint) (n : Nat) : List HumanPoint :=
  points.filter fun p => p.place == n

/-- Sorted points are those of the first places and those of the next place. -/
theorem filter_append_placed (h : points.Pairwise fun p q => p.place ≤ q.place) (n : Nat) :
    (points.filter fun p => p.place ≤ n) ++ placed points (n + 1) =
      points.filter fun p => p.place ≤ n + 1 := by
  unfold placed
  induction points with
  | nil => rfl
  | cons p points ih =>
    obtain ⟨hp, hrest⟩ := List.pairwise_cons.mp h
    have hi := ih hrest
    by_cases hle : p.place ≤ n
    · rw [List.filter_cons_of_pos (by simpa using hle),
        List.filter_cons_of_neg (by simp; omega), List.filter_cons_of_pos (by simp; omega),
        List.cons_append, hi]
    · have hnone : (points.filter fun p => p.place ≤ n) = [] := by
        rw [List.filter_eq_nil_iff]
        intro q hq
        have := hp q hq
        simp
        omega
      rw [hnone, List.nil_append] at hi
      rw [List.filter_cons_of_neg (by simpa using hle), hnone, List.nil_append]
      by_cases he : p.place = n + 1
      · rw [List.filter_cons_of_pos (by simpa using he), List.filter_cons_of_pos (by simp; omega), hi]
      · rw [List.filter_cons_of_neg (by simpa using he), List.filter_cons_of_neg (by simp; omega), hi]

/-- Sorted points are the points of all places, place by place. -/
theorem flatMap_placed {n : Nat} (h : Ordered points n) :
    (List.range (n + 1)).flatMap (placed points) = points := by
  have hall (m : Nat) : (List.range (m + 1)).flatMap (placed points) =
      points.filter fun p => p.place ≤ m := by
    induction m with
    | zero =>
      rw [List.range_one, List.flatMap_singleton]
      exact List.filter_congr fun p _ => Bool.eq_iff_iff.mpr (by simp)
    | succ m ih =>
      rw [List.range_succ, List.flatMap_append, ih, List.flatMap_singleton,
        filter_append_placed h.sorted]
  rw [hall, List.filter_eq_self]
  intro p hp
  simpa using h.bound p hp

theorem afterStep_of_place {p : HumanPoint} {i : Nat} (h : p.place = i + 1) :
    p.afterStep = some i := by
  unfold place at h
  cases ha : p.afterStep with
  | none =>
    rw [ha] at h
    cases h
  | some j =>
    rw [ha] at h
    exact congrArg some (Nat.succ.inj h)

theorem filter_afterStep (points : List HumanPoint) (step : Option Nat) :
    (points.filter fun p => p.afterStep == step) = placed points (step.elim 0 (· + 1)) := by
  refine List.filter_congr fun p _ => ?_
  unfold place
  cases hp : p.afterStep <;> cases step <;> simp

/-- The point that is read where a point is written. -/
def reread (p : HumanPoint) : HumanPoint := { p with message := Directive.reread p.message }

end HumanPoint

/-! ## Drafts with further steps and points -/

namespace Draft

/-- The draft with further steps outside blocks, what they list, and further points. -/
def gain (d : Draft) (steps : List Step) (pauses consults : List HumanPoint) : Draft :=
  { d with
    settings := Step.listing (steps.flatMap Step.family) { d.settings with
      pausePoints := d.settings.pausePoints ++ pauses
      consultPoints := d.settings.consultPoints ++ consults }
    steps := d.steps ++ steps }

theorem gain_nil (d : Draft) : d.gain [] [] [] = d := by
  unfold gain
  rw [List.flatMap_nil, Step.listing_nil, List.append_nil, List.append_nil, List.append_nil]

theorem gain_gain (d : Draft) (a b : List Step) (p q c e : List HumanPoint) :
    (d.gain a p c).gain b q e = d.gain (a ++ b) (p ++ q) (c ++ e) := by
  unfold gain Step.listing
  simp only [List.flatMap_append, List.append_assoc]

theorem steps_gain (d : Draft) (steps : List Step) (pauses consults : List HumanPoint) :
    (d.gain steps pauses consults).steps = d.steps ++ steps := rfl

theorem add_eq_gain (d : Draft) (s : Step) : d.add s = d.gain [s] [] [] := by
  unfold add gain
  rw [List.flatMap_singleton, List.append_nil, List.append_nil]

/-- The place of a point that is read next: behind the last step. -/
def Stands (d : Draft) (points : List HumanPoint) : Prop :=
  d.block = none ∧ (points ≠ [] → d.steps.getLast?.any Step.isElide = false) ∧
    ∀ p ∈ points, p.place = d.steps.length

theorem Stands.gain {d : Draft} {points pauses consults : List HumanPoint} (h : d.Stands points) :
    (d.gain [] pauses consults).Stands points := by
  unfold Stands
  rw [steps_gain, List.append_nil]
  exact h

theorem Stands.subset {d : Draft} {points more : List HumanPoint} (h : d.Stands more)
    (hs : points ⊆ more) : d.Stands points :=
  ⟨h.1, fun hne => h.2.1 fun he => hne (List.subset_nil.mp (he ▸ hs)), fun p hp => h.2.2 p (hs hp)⟩

/-- A point that does not stand behind ELIDE is listed behind the last step. -/
theorem human_eq_gain {d : Draft} {p : HumanPoint} (h : d.Stands [p]) (consult : Bool)
    (message : Text) : d.human consult message =
      d.gain [] (if consult then [] else [{ p with message }])
        (if consult then [{ p with message }] else []) := by
  obtain ⟨hb, he, hp⟩ := h
  have hplace := hp p List.mem_cons_self
  have hstep : (if d.steps.isEmpty then none else some (d.steps.length - 1)) = p.afterStep := by
    unfold HumanPoint.place at hplace
    cases ha : p.afterStep with
    | none =>
      rw [ha] at hplace
      rw [if_pos (List.isEmpty_iff.mpr (List.length_eq_zero_iff.mp hplace.symm))]
    | some i =>
      rw [ha] at hplace
      have hlen : d.steps.length = i + 1 := hplace.symm
      rw [if_neg fun hnil => ?_, hlen]
      · rfl
      · rw [List.isEmpty_iff.mp hnil] at hlen
        cases hlen
  have htarget : d.target = d.steps := by
    unfold target
    rw [hb]
  unfold human gain
  rw [htarget, if_neg (by rw [he (List.cons_ne_nil p [])]; exact nofun), hstep, List.flatMap_nil,
    Step.listing_nil, List.append_nil]
  cases consult with
  | true =>
    rw [if_pos rfl, if_pos rfl, if_pos rfl, List.append_nil]
  | false =>
    rw [if_neg nofun, if_neg nofun, if_neg nofun, List.append_nil]

end Draft

namespace Settings

variable {registry : Registry} {points : List HumanPoint}

/-- Points with one place are listed behind the last step. -/
theorem compiles_points {k : Keyword} {consult : Bool} (hk : k ≠ .includeFile)
    (ht : k.takesText = true) (hx : ∀ v, Instruction.ofKeyword k v = .ok (.human consult v))
    (hb : ∀ p ∈ points, Directive.IsBlock p.message) :
    ConversationFlow.Compiles registry (fun d => d.Stands points)
      (points.flatMap fun p => entry k.spelling p.message) fun d =>
        some (d.gain [] (if consult then [] else points.map HumanPoint.reread)
          (if consult then points.map HumanPoint.reread else [])) := by
  induction points with
  | nil =>
    refine ConversationFlow.Compiles.nil.congr fun d _ => ?_
    cases consult <;> exact congrArg some d.gain_nil.symm
  | cons p points ih =>
    have hone : ConversationFlow.Compiles registry (fun d => d.Stands (p :: points))
        (entry k.spelling p.message) fun d =>
          some (d.gain [] (if consult then [] else [p.reread])
            (if consult then [p.reread] else [])) := by
      refine ConversationFlow.Compiles.single (Directive.Lays.text (Directive.isName_builtin k) ht
        (hb p List.mem_cons_self)) (fun h => hk (DirectiveName.builtin.inj h)) fun d hd => ?_
      rw [Draft.carry_builtin, hx]
      exact congrArg some (Draft.human_eq_gain (hd.subset (by simp)) _ _)
    have hrest := ih fun q hq => hb q (List.mem_cons_of_mem p hq)
    rw [List.flatMap_cons]
    refine (hone.append hrest fun d hd d' hr => ?_).congr fun d hd => ?_
    · cases hr
      exact (hd.subset (List.subset_cons_self p points)).gain
    · rw [Option.bind_some, Draft.gain_gain]
      cases consult <;> rfl

/-- A draft at a place, with no points for the place if it is behind ELIDE. -/
structure At (s : Settings) (n : Nat) (d : Draft) : Prop where
  closed : d.block = none
  place : d.steps.length = n
  unlinked : d.steps.getLast?.any Step.isElide = true →
    HumanPoint.placed s.pausePoints n = [] ∧ HumanPoint.placed s.consultPoints n = []

theorem At.stands {s : Settings} {n : Nat} {d : Draft} (h : s.At n d) :
    d.Stands (HumanPoint.placed s.pausePoints n) ∧
      d.Stands (HumanPoint.placed s.consultPoints n) := by
  have hplace {points : List HumanPoint} (p : HumanPoint) (hp : p ∈ HumanPoint.placed points n) :
      p.place = d.steps.length := by
    rw [h.place]
    simpa using (List.mem_filter.mp hp).2
  refine ⟨⟨h.closed, fun hne => ?_, hplace⟩, h.closed, fun hne => ?_, hplace⟩
  · exact Bool.eq_false_iff.mpr fun he => hne (h.unlinked he).1
  · exact Bool.eq_false_iff.mpr fun he => hne (h.unlinked he).2

/-- The points of one place are listed behind the last step. -/
theorem compiles_writtenPoints {s : Settings} {step : Option Nat} {n : Nat}
    (hn : step.elim 0 (· + 1) = n) (hp : ∀ p ∈ s.pausePoints, Directive.IsBlock p.message)
    (hc : ∀ p ∈ s.consultPoints, Directive.IsBlock p.message) :
    ConversationFlow.Compiles registry (s.At n) (s.writtenPoints step) fun d =>
      some (d.gain [] ((HumanPoint.placed s.pausePoints n).map HumanPoint.reread)
        ((HumanPoint.placed s.consultPoints n).map HumanPoint.reread)) := by
  unfold writtenPoints pointsOf
  rw [HumanPoint.filter_afterStep, HumanPoint.filter_afterStep, hn]
  have hpauses : ConversationFlow.Compiles registry (s.At n)
      ((HumanPoint.placed s.pausePoints n).flatMap fun p => entry "PAUSE" p.message) fun d =>
        some (d.gain [] ((HumanPoint.placed s.pausePoints n).map HumanPoint.reread) []) :=
    (compiles_points (k := .pause) nofun rfl (fun _ => rfl)
      fun p hm => hp p (List.mem_of_mem_filter hm)).weaken fun d hd => hd.stands.1
  have hconsults : ConversationFlow.Compiles registry
      (fun d => d.Stands (HumanPoint.placed s.consultPoints n))
      ((HumanPoint.placed s.consultPoints n).flatMap fun p => entry "CONSULT" p.message) fun d =>
        some (d.gain [] [] ((HumanPoint.placed s.consultPoints n).map HumanPoint.reread)) :=
    compiles_points (k := .consult) nofun rfl (fun _ => rfl)
      fun p hm => hc p (List.mem_of_mem_filter hm)
  refine (hpauses.append hconsults fun d hd d' hr => ?_).congr fun d _ => ?_
  · cases hr
    exact hd.stands.2.gain
  · simp only [Option.bind_some, Draft.gain_gain, List.append_nil, List.nil_append]

/-! ## Steps with the points behind them -/

/-- The points behind `n` steps from the step `i` on. -/
def pointsFrom (points : List HumanPoint) (i n : Nat) : List HumanPoint :=
  (List.range' (i + 1) n).flatMap (HumanPoint.placed points)

theorem pointsFrom_succ (points : List HumanPoint) (i n : Nat) :
    pointsFrom points i (n + 1) =
      HumanPoint.placed points (i + 1) ++ pointsFrom points (i + 1) n := rfl

/-- The points of a conversation are those before its steps and those behind them. -/
theorem placed_append_pointsFrom {points : List HumanPoint} {n : Nat}
    (h : HumanPoint.Ordered points n) :
    HumanPoint.placed points 0 ++ pointsFrom points 0 n = points := by
  have hall := HumanPoint.flatMap_placed h
  rwa [List.range_eq_range', List.range'_succ, List.flatMap_cons] at hall

/-- The settings have no point behind an ELIDE among the steps, the first of which is step `i`. -/
def PointsClear (s : Settings) (i : Nat) (steps : List Step) : Prop :=
  ∀ (j : Nat) (t : Step), steps[j]? = some t → t.isElide = true →
    HumanPoint.placed s.pausePoints (i + j + 1) = [] ∧
      HumanPoint.placed s.consultPoints (i + j + 1) = []

/-- Written steps and points add the steps and points that are read there. -/
theorem compiles_stepsFrom {s : Settings} {i : Nat} {linked : Bool} {steps : List Step}
    (hs : ∀ t ∈ steps, t.WellFormed registry) (hl : Step.Linked linked steps)
    (hp : ∀ p ∈ s.pausePoints, Directive.IsBlock p.message)
    (hc : ∀ p ∈ s.consultPoints, Directive.IsBlock p.message) (hclear : s.PointsClear i steps) :
    ConversationFlow.Compiles registry
      (fun d => d.block = none ∧ d.steps.length = i ∧
        (linked = true → d.steps.getLast?.any Step.isElide = true))
      (stepsFrom s i steps) fun d => (steps.mapM Step.reread).map fun ss => d.gain ss
        ((pointsFrom s.pausePoints i steps.length).map HumanPoint.reread)
        ((pointsFrom s.consultPoints i steps.length).map HumanPoint.reread) := by
  induction steps generalizing i linked with
  | nil => exact ConversationFlow.Compiles.nil.congr fun d _ => congrArg some d.gain_nil.symm
  | cons t rest ih =>
    have ht := hs t List.mem_cons_self
    have hstep : ConversationFlow.Compiles registry
        (fun d => d.block = none ∧ d.steps.length = i ∧
          (linked = true → d.steps.getLast?.any Step.isElide = true))
        t.written fun d => t.reread.map d.add := by
      refine (Step.compiles_written ht).weaken fun d hd => ⟨hd.1, fun hh => ?_⟩
      rw [Draft.target_none hd.1]
      exact hd.2.2 (hl.1 hh)
    have hrest := ih (i := i + 1) (fun u hu => hs u (List.mem_cons_of_mem t hu)) hl.2
      fun j u hu he => by
        have h := hclear (j + 1) u hu he
        rwa [show i + (j + 1) + 1 = i + 1 + j + 1 by omega] at h
    have hpoints : ConversationFlow.Compiles registry (s.At (i + 1)) (s.writtenPoints (some i))
        fun d => some (d.gain []
          ((HumanPoint.placed s.pausePoints (i + 1)).map HumanPoint.reread)
          ((HumanPoint.placed s.consultPoints (i + 1)).map HumanPoint.reread)) :=
      compiles_writtenPoints rfl hp hc
    rw [stepsFrom]
    refine ((hstep.append hpoints fun d hd d' hr => ?_).append hrest
      fun d hd d' hr => ?_).congr fun d _ => ?_
    · obtain ⟨t', ht', rfl⟩ := Option.map_eq_some_iff.mp hr
      refine ⟨hd.1, ?_, fun he => ?_⟩
      · rw [Draft.add_eq_gain, Draft.steps_gain, List.length_append, hd.2.1]
        rfl
      · rw [Draft.add_eq_gain, Draft.steps_gain, List.getLast?_concat] at he
        exact hclear 0 t rfl ((Step.isElide_reread ht').symm.trans he)
    · obtain ⟨e, he, hr⟩ := Option.bind_eq_some_iff.mp hr
      obtain ⟨t', ht', rfl⟩ := Option.map_eq_some_iff.mp he
      cases hr
      rw [Draft.add_eq_gain, Draft.gain_gain, Draft.steps_gain, List.append_nil]
      refine ⟨hd.1, ?_, fun he => ?_⟩
      · rw [List.length_append, hd.2.1]
        rfl
      · rw [List.getLast?_concat]
        exact (Step.isElide_reread ht').trans he
    · rw [List.mapM_cons, List.length_cons, pointsFrom_succ, pointsFrom_succ]
      cases t.reread with
      | none => rfl
      | some t' =>
        cases rest.mapM Step.reread with
        | none => rfl
        | some rest' =>
          refine congrArg some ?_
          simp only [Draft.add_eq_gain, Draft.gain_gain, List.map_append, List.nil_append,
            List.append_nil, List.singleton_append]

end Settings

/-! ## Conversations -/

namespace Compiled

/-- The conversation that is read where a conversation is written. -/
def reread (c : Compiled) : Option Compiled := do
  let settings ← c.settings.reread
  let steps ← c.steps.mapM Step.reread
  return {
    settings := Step.listing (steps.flatMap Step.family) { settings with
      pausePoints := c.settings.pausePoints.map HumanPoint.reread
      consultPoints := c.settings.consultPoints.map HumanPoint.reread }
    steps
    source := none }

variable {registry : Registry} {c : Compiled}

/-- No point of a compiled conversation stands behind ELIDE. -/
theorem pointsClear (h : c.IsResult) : c.settings.PointsClear 0 c.steps := by
  obtain ⟨hpauses, hconsults⟩ := points_follow h
  have hnone {points : List HumanPoint} (hp : ∀ p ∈ points, p.Follows c.steps) (j : Nat) (t : Step)
      (ht : c.steps[j]? = some t) (he : t.isElide = true) :
      HumanPoint.placed points (0 + j + 1) = [] := by
    rw [HumanPoint.placed, List.filter_eq_nil_iff]
    intro p hm hplace
    have hj : p.place = j + 1 := by
      rw [Nat.zero_add] at hplace
      exact eq_of_beq hplace
    obtain ⟨u, hu, hne⟩ := hp p hm j (HumanPoint.afterStep_of_place hj)
    rw [ht] at hu
    cases hu
    rw [he] at hne
    cases hne
  exact fun j t ht he => ⟨hnone hpauses j t ht he, hnone hconsults j t ht he⟩

/-- A written conversation compiles to what is read of it. -/
theorem compiles_written (h : c.WellFormed registry) (hr : c.IsResult) :
    Compiles registry (fun d => d = {}) c.written fun _ => do
      let settings ← c.settings.reread
      let steps ← c.steps.mapM Step.reread
      return ({ settings } : Draft).gain steps (c.settings.pausePoints.map HumanPoint.reread)
        (c.settings.consultPoints.map HumanPoint.reread) := by
  have hsettings : Compiles registry (fun d => d = {})
      (c.settings.written ++
        if c.settings.written.isEmpty || c.steps.isEmpty then [] else ['\n'])
      fun _ => c.settings.reread.map fun settings => { settings } := by
    have hwritten : Compiles registry _ c.settings.written _ :=
      Settings.compiles_written h.settings
    have hblank := hwritten.blank
    cases he : c.settings.written.isEmpty with
    | true =>
      rw [Bool.true_or, if_pos rfl, List.append_nil]
      exact hwritten
    | false =>
      rw [he, if_neg nofun] at hblank
      rw [Bool.false_or]
      split
      · rw [List.append_nil]
        exact hwritten
      · exact hblank
  have hpoints : Compiles registry (c.settings.At 0) (c.settings.writtenPoints none) fun d =>
      some (d.gain [] ((HumanPoint.placed c.settings.pausePoints 0).map HumanPoint.reread)
        ((HumanPoint.placed c.settings.consultPoints 0).map HumanPoint.reread)) :=
    Settings.compiles_writtenPoints rfl h.pauses.message h.consults.message
  have hsteps := Settings.compiles_stepsFrom h.steps.each h.steps.linked h.pauses.message
    h.consults.message (pointsClear hr)
  refine (((hsettings.append hpoints fun d hd d' hr => ?_).append hsteps
    fun d hd d' hr => ?_).congr fun d _ => ?_)
  · obtain ⟨settings, -, rfl⟩ := Option.map_eq_some_iff.mp hr
    exact ⟨rfl, rfl, nofun⟩
  · obtain ⟨e, he, hr⟩ := Option.bind_eq_some_iff.mp hr
    obtain ⟨settings, -, rfl⟩ := Option.map_eq_some_iff.mp he
    cases hr
    exact ⟨rfl, rfl, nofun⟩
  · cases c.settings.reread with
    | none => rfl
    | some settings =>
      cases c.steps.mapM Step.reread with
      | none => rfl
      | some steps =>
        refine congrArg some ?_
        simp only [Draft.gain_gain, List.nil_append, ← List.map_append,
          Settings.placed_append_pointsFrom h.pauses, Settings.placed_append_pointsFrom h.consults]

/-- What a written conversation compiles to, if it compiles. -/
theorem toOption_ofText_written {fs : FileSystem} (h : c.WellFormed registry) (hr : c.IsResult) :
    (ofText fs registry c.written).toOption = c.reread := by
  obtain ⟨cs, hl, hi, hf⟩ := compiles_written h hr
  rw [toOption_ofText hl hi, hf {} rfl]
  unfold reread
  cases hs : c.settings.reread with
  | none => rfl
  | some settings =>
    have hrest := (Settings.reread_eq_some_iff.mp hs).rest
    have hpauses : settings.pausePoints = [] := by rw [hrest]
    have hconsults : settings.consultPoints = [] := by rw [hrest]
    cases c.steps.mapM Step.reread with
    | none => rfl
    | some steps =>
      refine congrArg some ?_
      unfold Draft.gain
      rw [hpauses, hconsults]
      rfl

end Compiled

end ConversationFlow
