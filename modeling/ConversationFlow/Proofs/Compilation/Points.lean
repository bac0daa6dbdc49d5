import ConversationFlow.Proofs.Compilation.Instructions

/-!
# Points for humans in compiled conversations

A pause or a consultation is kept apart from the steps, under the index of the step that it
follows. No directive but PAUSE and CONSULT touches the points, and a step that has a point
is never ELIDE: the compiler makes a step of a pause that follows ELIDE, and it rewrites only
the last step, and never to another kind. Nothing is said about the order in which points of
the two kinds were written.
-/

namespace ConversationFlow

/-! ## The directives that leave the points alone -/

/-- What an instruction changes in the settings by itself leaves the points as they are. -/
def Instruction.SparesPoints : Instruction → Prop
  | .configure change | .step _ change => Settings.SparesPoints change
  | _ => True

theorem Instruction.SaidBy.spares {n : DirectiveName} {i : Instruction} (h : i.SaidBy n) :
    i.SparesPoints := by
  cases i with
  | configure change => exact h
  | step s change => exact h.2
  | _ => trivial

/-- No instruction of the expanded stream has to do with the points but a pause or a
consultation. -/
theorem Event.spares_of_mem {src : Sources} {registry : Registry} {stack : List Location}
    {file : Option Path} {ds : List Directive} {line : SourceLine} {i : Instruction}
    (h : .instruction line i ∈ ofDirectives src registry stack file ds) : i.SparesPoints := by
  obtain ⟨_, d, hd, -⟩ := instruction_of_mem h
  exact (Directive.instruction_saidBy hd).spares

/-! ## The compiler keeps every point at a step -/

/-- A point stands before the first step or follows a step other than ELIDE. -/
def HumanPoint.Follows (steps : List Step) (p : HumanPoint) : Prop :=
  ∀ i, p.afterStep = some i → ∃ s, steps[i]? = some s ∧ s.isElide = false

/-- Steps may be replaced and added, but none becomes ELIDE. -/
def Step.Covers (old new : List Step) : Prop :=
  ∀ (i : Nat) (s : Step), old[i]? = some s → s.isElide = false →
    ∃ t : Step, new[i]? = some t ∧ t.isElide = false

theorem HumanPoint.Follows.mono {old new : List Step} {p : HumanPoint} (h : p.Follows old)
    (hc : Step.Covers old new) : p.Follows new := by
  intro i hi
  obtain ⟨s, hs, he⟩ := h i hi
  exact hc i s hs he

theorem Step.covers_append (steps more : List Step) : Covers steps (steps ++ more) := by
  intro i s hs he
  have hi := (List.getElem?_eq_some_iff.mp hs).1
  exact ⟨s, by rw [List.getElem?_append_left hi]; exact hs, he⟩

theorem Step.covers_replaceLast {before : List Step} {s t : Step}
    (ht : s.isElide = false → t.isElide = false) : Covers (before ++ [s]) (before ++ [t]) := by
  intro i u hu he
  by_cases hi : i < before.length
  · rw [List.getElem?_append_left hi] at hu ⊢
    exact ⟨u, hu, he⟩
  · have hlt := (List.getElem?_eq_some_iff.mp hu).1
    obtain rfl : i = before.length := by
      rw [List.length_append, List.length_singleton] at hlt
      omega
    rw [List.getElem?_concat_length] at hu ⊢
    obtain rfl := Option.some.inj hu
    exact ⟨t, rfl, ht he⟩

theorem Step.not_elide_of_canOwnBlocks {s : Step} (h : s.canOwnBlocks = true) :
    s.isElide = false := by
  cases s <;> first | rfl | cases h

theorem Draft.attach_keeps_kind (kind : BlockKind) (block : List Step) (s : Step) :
    (attach kind block s).isElide = s.isElide := by
  cases s with
  | run c f t | verify c f t => cases kind <;> rfl
  | _ => rfl

namespace Draft

/-- Every point is at a step, and a block that is open belongs to the last step. -/
structure PointsKept (d : Draft) : Prop where
  pauses : ∀ p ∈ d.settings.pausePoints, p.Follows d.steps
  consults : ∀ p ∈ d.settings.consultPoints, p.Follows d.steps
  owner : d.block.isSome = true → ∃ s, d.steps.getLast? = some s ∧ s.canOwnBlocks = true

theorem pointsKept_start : PointsKept {} := by
  constructor <;> simp

namespace PointsKept

variable {d : Draft}

theorem change_settings (h : d.PointsKept) {change : Settings → Settings}
    (hc : Settings.SparesPoints change) : PointsKept { d with settings := change d.settings } := by
  obtain ⟨hp, hq⟩ := hc d.settings
  constructor
  · rw [hp]; exact h.pauses
  · rw [hq]; exact h.consults
  · exact h.owner

/-- The steps that the next step goes after, with another end. -/
theorem withTarget (h : d.PointsKept) {steps : List Step} (hc : Step.Covers d.target steps) :
    (d.withTarget steps).PointsKept := by
  cases hb : d.block with
  | some b =>
    rw [withTarget_some hb]
    exact ⟨h.pauses, h.consults, fun _ => h.owner (by rw [hb]; rfl)⟩
  | none =>
    rw [target_none hb] at hc
    rw [withTarget_none hb]
    refine ⟨fun p hp => (h.pauses p hp).mono hc, fun p hp => (h.consults p hp).mono hc,
      fun ho => ?_⟩
    cases (congrArg Option.isSome hb).symm.trans ho

theorem push (h : d.PointsKept) (s : Step) : (d.push s).PointsKept :=
  h.withTarget (Step.covers_append _ _)

/-- A point goes to the last step outside a block, which is not ELIDE then. -/
theorem follows_last (h : d.PointsKept) (hl : d.target.getLast?.any Step.isElide = false)
    (message : Text) :
    HumanPoint.Follows d.steps
      ⟨if d.steps.isEmpty then none else some (d.steps.length - 1), message⟩ := by
  intro i hi
  by_cases hempty : d.steps = []
  · simp [hempty] at hi
  · obtain ⟨before, last, hsteps⟩ : ∃ before last, d.steps = before ++ [last] :=
      ⟨_, _, (List.dropLast_concat_getLast hempty).symm⟩
    obtain rfl : before.length = i := by simpa [hsteps] using hi
    have he : last.isElide = false := by
      cases hb : d.block with
      | none => simpa [Draft.target, hb, hsteps] using hl
      | some b =>
        obtain ⟨s, hs, ho⟩ := h.owner (by rw [hb]; rfl)
        rw [hsteps, List.getLast?_concat] at hs
        exact Option.some.inj hs ▸ Step.not_elide_of_canOwnBlocks ho
    exact ⟨last, by rw [hsteps, List.getElem?_concat_length], he⟩

theorem human (h : d.PointsKept) (consult : Bool) (message : Text) :
    (d.human consult message).PointsKept := by
  unfold Draft.human
  split
  · exact h.push _
  · next hl =>
    have hf := h.follows_last (Bool.not_eq_true _ ▸ hl) message
    cases consult with
    | true =>
      refine ⟨h.pauses, fun p hp => ?_, h.owner⟩
      rcases List.mem_append.mp hp with hp | hp
      · exact h.consults p hp
      · exact List.mem_singleton.mp hp ▸ hf
    | false =>
      refine ⟨fun p hp => ?_, h.consults, h.owner⟩
      rcases List.mem_append.mp hp with hp | hp
      · exact h.pauses p hp
      · exact List.mem_singleton.mp hp ▸ hf

theorem retry {d' : Draft} (h : d.PointsKept) {line : SourceLine} {count : Nat}
    {prompt : Option Text} (hr : d.retry line count prompt = .ok d') : d'.PointsKept := by
  obtain ⟨before, c, onFailure, onSuccess, ht, rfl⟩ := retry_ok hr
  refine h.withTarget ?_
  rw [ht]
  exact Step.covers_replaceLast fun _ => rfl

theorem openBlock {d' : Draft} (h : d.PointsKept) {line : SourceLine} {kind : BlockKind}
    (ho : d.openBlock line kind = .ok d') : d'.PointsKept := by
  obtain ⟨-, rfl, before, owner, hs, hown, -⟩ := openBlock_ok ho
  refine ⟨h.pauses, h.consults, fun _ => ⟨owner, ?_, hown⟩⟩
  rw [hs, List.getLast?_concat]

theorem closeBlock {d' : Draft} (h : d.PointsKept) {line : SourceLine}
    (hc : d.closeBlock line = .ok d') : d'.PointsKept := by
  obtain ⟨b, -, ⟨before, owner, hs, rfl⟩ | ⟨-, rfl⟩⟩ := closeBlock_ok hc
  · have hcov : Step.Covers d.steps (before ++ [attach b.kind b.steps owner]) := by
      rw [hs]
      exact Step.covers_replaceLast fun he => (attach_keeps_kind b.kind b.steps owner).trans he
    exact ⟨fun p hp => (h.pauses p hp).mono hcov, fun p hp => (h.consults p hp).mono hcov,
      fun ho => by cases ho⟩
  · exact ⟨h.pauses, h.consults, fun ho => by cases ho⟩

theorem apply {d' : Draft} (h : d.PointsKept) {line : SourceLine} {i : Instruction}
    (hi : i.SparesPoints) (ha : d.apply line i = .ok d') : d'.PointsKept := by
  cases i with
  | configure change =>
    cases ha
    exact h.change_settings hi
  | prologue text | epilogue text =>
    simp only [Draft.apply] at ha
    split at ha <;> cases ha <;> exact ⟨h.pauses, h.consults, h.owner⟩
  | step s change =>
    cases ha
    exact (h.change_settings hi).push s
  | retry count prompt => exact h.retry ha
  | human consult message =>
    cases ha
    exact h.human consult message
  | openBlock kind => exact h.openBlock ha
  | closeBlock => exact h.closeBlock ha
  | includeFile target =>
    cases ha
    exact h

end PointsKept

end Draft

namespace Compiled

/-- Every point of a compiled conversation is at a step of it. -/
theorem points_follow {c : Compiled} (h : c.IsResult) :
    (∀ p ∈ c.settings.pausePoints, p.Follows c.steps) ∧
      ∀ p ∈ c.settings.consultPoints, p.Follows c.steps := by
  obtain ⟨src, registry, stack, file, text, source, hc⟩ := events_of_isResult h
  obtain ⟨d, hr, hf⟩ := ofEvents_ok hc
  have hk : d.PointsKept := Draft.run_keeps (fun _ _ h => ⟨h.pauses, h.consults, h.owner⟩)
    (fun _ _ _ _ hm h ha => h.apply (Event.spares_of_mem hm) ha) Draft.pointsKept_start hr
  obtain ⟨-, rfl⟩ := Draft.finish_ok hf
  exact ⟨hk.pauses, hk.consults⟩

end Compiled

end ConversationFlow
