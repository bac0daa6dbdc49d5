import ConversationFlow.Proofs.Compilation.Contents

/-!
# The form of compiled conversations

What single instructions add keeps its form in the draft, and the points for humans stand in the
order of the steps that they follow. The lists of links and references are not looked at: they
stand in the order in which their directives were met, which need not be that of the steps.
-/

namespace ConversationFlow

/-! ## The order of points -/

namespace HumanPoint

/-- The number of steps before a point. -/
def place (p : HumanPoint) : Nat := p.afterStep.elim 0 (· + 1)

/-- Points in the order of their places, none of them behind so many steps. -/
structure Ordered (points : List HumanPoint) (steps : Nat) : Prop where
  bound : ∀ p ∈ points, p.place ≤ steps
  sorted : points.Pairwise fun p q => p.place ≤ q.place
  message : ∀ p ∈ points, Directive.IsBlock p.message

theorem ordered_nil (steps : Nat) : Ordered [] steps :=
  ⟨(fun _ h => by cases h), .nil, fun _ h => by cases h⟩

theorem Ordered.mono {points : List HumanPoint} {m n : Nat} (h : Ordered points m) (hn : m ≤ n) :
    Ordered points n :=
  ⟨fun p hp => (h.bound p hp).trans hn, h.sorted, h.message⟩

/-- A point behind all steps goes to the end. -/
theorem Ordered.push {points : List HumanPoint} {steps : Nat} {p : HumanPoint}
    (h : Ordered points steps) (hp : p.place = steps) (hm : Directive.IsBlock p.message) :
    Ordered (points ++ [p]) steps := by
  constructor
  · intro q hq
    rcases List.mem_append.mp hq with hq | hq
    · exact h.bound q hq
    · rw [List.mem_singleton.mp hq, hp]
  · rw [List.pairwise_append]
    refine ⟨h.sorted, List.pairwise_singleton _ p, fun q hq r hr => ?_⟩
    rw [List.mem_singleton.mp hr, hp]
    exact h.bound q hq
  · intro q hq
    rcases List.mem_append.mp hq with hq | hq
    · exact h.message q hq
    · rw [List.mem_singleton.mp hq]
      exact hm

end HumanPoint

/-! ## Drafts -/

/-- What the draft holds has the form that directives give it. -/
structure Draft.WellFormed (registry : Registry) (d : Draft) : Prop where
  settings : d.settings.WellFormed
  prologues : ∀ v ∈ d.includedPrologues, Directive.IsPassage v
  epilogues : ∀ v ∈ d.includedEpilogues, Directive.IsPassage v
  steps : Step.Formed (Step.WellFormed registry) d.steps
  block : ∀ b ∈ d.block, Step.Formed (Step.InBlock registry) b.steps
  pauses : HumanPoint.Ordered d.settings.pausePoints d.steps.length
  consults : HumanPoint.Ordered d.settings.consultPoints d.steps.length

namespace Draft

variable {registry : Registry} {d : Draft}

theorem wellFormed_start : WellFormed registry {} where
  settings := Settings.wellFormed_default
  prologues := fun _ h => by cases h
  epilogues := fun _ h => by cases h
  steps := Step.formed_nil
  block := fun _ h => by cases h
  pauses := HumanPoint.ordered_nil 0
  consults := HumanPoint.ordered_nil 0

theorem attach_head (kind : BlockKind) (block : List Step) (s : Step) :
    (attach kind block s).HeadWellFormed registry ↔ s.HeadWellFormed registry := by
  cases s with
  | run c f t | verify c f t => cases kind <;> rfl
  | _ => rfl

theorem attach_isHuman (kind : BlockKind) (block : List Step) (s : Step) :
    (attach kind block s).isHuman = s.isHuman := by
  cases s with
  | run c f t | verify c f t => cases kind <;> rfl
  | _ => rfl

theorem attach_wellFormed {kind : BlockKind} {block : List Step} {s : Step}
    (hs : s.WellFormed registry) (hb : Step.Formed (Step.InBlock registry) block) :
    (attach kind block s).WellFormed registry := by
  refine ⟨(attach_head kind block s).mpr hs.head, ?_, ?_⟩
  · cases s with
    | run c f t | verify c f t =>
      cases kind with
      | onFailure => exact hb
      | onSuccess => exact hs.onFailure
    | _ => exact hs.onFailure
  · cases s with
    | run c f t | verify c f t =>
      cases kind with
      | onFailure => exact hs.onSuccess
      | onSuccess => exact hb
    | _ => exact hs.onSuccess

namespace WellFormed

theorem change_settings (h : d.WellFormed registry) {settings : Settings}
    (hs : settings.WellFormed) (hp : settings.pausePoints = d.settings.pausePoints)
    (hc : settings.consultPoints = d.settings.consultPoints) :
    WellFormed registry { d with settings } where
  settings := hs
  prologues := h.prologues
  epilogues := h.epilogues
  steps := h.steps
  block := h.block
  pauses := hp ▸ h.pauses
  consults := hc ▸ h.consults

/-- Other steps in the place where the next step goes. -/
theorem withTarget (h : d.WellFormed registry) {steps : List Step}
    (ht : d.block = none → Step.Formed (Step.WellFormed registry) steps ∧
      d.steps.length ≤ steps.length)
    (hb : d.block.isSome = true → Step.Formed (Step.InBlock registry) steps) :
    (d.withTarget steps).WellFormed registry := by
  cases hblock : d.block with
  | none =>
    obtain ⟨hformed, hlen⟩ := ht hblock
    rw [withTarget_none hblock]
    exact { h with
      steps := hformed, pauses := h.pauses.mono hlen, consults := h.consults.mono hlen }
  | some b =>
    rw [withTarget_some hblock]
    refine { h with block := fun c hc => ?_ }
    cases hc
    exact hb (by rw [hblock]; rfl)

theorem push (h : d.WellFormed registry) {s : Step} (hs : s.InBlock registry)
    (hl : s.isHuman = true → d.target.getLast?.any Step.isElide = true) :
    (d.push s).WellFormed registry := by
  refine h.withTarget (fun hb => ?_) fun hb => ?_
  · rw [target_none hb] at hl ⊢
    refine ⟨h.steps.push hs.wellFormed hl, ?_⟩
    rw [List.length_append]
    omega
  · obtain ⟨b, hb⟩ := Option.isSome_iff_exists.mp hb
    rw [target_some hb] at hl ⊢
    exact (h.block b hb).push hs hl

theorem human (h : d.WellFormed registry) {consult : Bool} {message : Text}
    (hm : Directive.IsBlock message) : (d.human consult message).WellFormed registry := by
  unfold Draft.human
  split
  · next hl =>
    refine h.push ?_ fun _ => hl
    cases consult <;> exact ⟨hm, rfl⟩
  · have hplace : HumanPoint.place
        ⟨if d.steps.isEmpty then none else some (d.steps.length - 1), message⟩ =
          d.steps.length := by
      unfold HumanPoint.place
      cases d.steps with
      | nil => rfl
      | cons s steps =>
        rw [if_neg nofun]
        change steps.length + 1 - 1 + 1 = steps.length + 1
        omega
    cases consult with
    | true =>
      exact { h with
        settings := { h.settings with }, consults := h.consults.push hplace hm }
    | false =>
      exact { h with
        settings := { h.settings with }, pauses := h.pauses.push hplace hm }

theorem retry {d' : Draft} (h : d.WellFormed registry) {line : SourceLine} {count : Nat}
    {prompt : Option Text} (hn : count < wordSize 32) (hp : ∀ p ∈ prompt, '\n' ∉ p)
    (hr : d.retry line count prompt = .ok d') : d'.WellFormed registry := by
  obtain ⟨before, c, onFailure, onSuccess, hlast, rfl⟩ := retry_ok hr
  have hin : .run c onFailure onSuccess ∈ before ++ [.run c onFailure onSuccess] :=
    List.mem_append_right before List.mem_cons_self
  have hdefault : '\n' ∉ RunCommand.defaultRetryPrompt := by decide
  have hcommand (hc : c.WellFormed) : RunCommand.WellFormed { c with
      retries := count, retryPrompt := some (prompt.getD RunCommand.defaultRetryPrompt) } := by
    refine ⟨hc.command, hn, fun _ => rfl, fun p hpm => ?_⟩
    cases hpm
    cases prompt with
    | none => exact hdefault
    | some p => exact hp p rfl
  refine h.withTarget (fun hb => ?_) fun hb => ?_
  · rw [target_none hb] at hlast
    have hsteps := h.steps
    rw [hlast] at hsteps ⊢
    have hs := hsteps.each _ hin
    refine ⟨hsteps.replaceLast ⟨hcommand hs.head, hs.onFailure, hs.onSuccess⟩ nofun, ?_⟩
    rw [List.length_append, List.length_append]
    exact Nat.le_refl _
  · obtain ⟨b, hb⟩ := Option.isSome_iff_exists.mp hb
    rw [target_some hb] at hlast
    have hblock := h.block b hb
    rw [hlast] at hblock
    have hs := hblock.each _ hin
    exact hblock.replaceLast ⟨hcommand hs.head, hs.bare⟩ nofun

theorem openBlock {d' : Draft} (h : d.WellFormed registry) {line : SourceLine} {kind : BlockKind}
    (ho : d.openBlock line kind = .ok d') : d'.WellFormed registry := by
  obtain ⟨-, rfl, -⟩ := openBlock_ok ho
  refine { h with block := fun b hb => ?_ }
  cases hb
  exact Step.formed_nil

theorem closeBlock {d' : Draft} (h : d.WellFormed registry) {line : SourceLine}
    (hc : d.closeBlock line = .ok d') : d'.WellFormed registry := by
  obtain ⟨b, hb, ⟨before, owner, hs, rfl⟩ | ⟨-, rfl⟩⟩ := closeBlock_ok hc
  · have hformed := h.steps
    rw [hs] at hformed
    have howner := hformed.each owner (List.mem_append_right before List.mem_cons_self)
    have hsteps : Step.Formed (Step.WellFormed registry)
        (before ++ [attach b.kind b.steps owner]) := by
      refine hformed.replaceLast (attach_wellFormed howner (h.block b hb)) fun hh => ?_
      rwa [attach_isHuman] at hh
    have hlen : d.steps.length ≤ (before ++ [attach b.kind b.steps owner]).length := by
      rw [hs, List.length_append, List.length_append]
      exact Nat.le_refl _
    exact { h with
      steps := hsteps, block := fun b hb => by cases hb
      pauses := h.pauses.mono hlen, consults := h.consults.mono hlen }
  · exact { h with block := fun b hb => by cases hb }

/-- One instruction keeps the form of the draft. -/
theorem apply {d' : Draft} (h : d.WellFormed registry) {line : SourceLine} {i : Instruction}
    (hi : i.WellFormed registry) (hp : i.SparesPoints) (ha : d.apply line i = .ok d') :
    d'.WellFormed registry := by
  have more {as : List Text} {b : Text} (ha : ∀ a ∈ as, Directive.IsPassage a)
      (hb : Directive.IsPassage b) : ∀ a ∈ as ++ [b], Directive.IsPassage a :=
    List.forall_mem_append.mpr ⟨ha, List.forall_mem_singleton.mpr hb⟩
  cases i with
  | configure change =>
    cases ha
    obtain ⟨hpauses, hconsults⟩ := hp d.settings
    exact h.change_settings (hi _ h.settings) hpauses hconsults
  | prologue text =>
    simp only [Draft.apply] at ha
    split at ha
    · cases ha
      exact { h with settings := { h.settings with prologues := more h.settings.prologues hi } }
    · cases ha
      exact { h with prologues := more h.prologues hi }
  | epilogue text =>
    simp only [Draft.apply] at ha
    split at ha
    · cases ha
      exact { h with settings := { h.settings with epilogues := more h.settings.epilogues hi } }
    · cases ha
      exact { h with epilogues := more h.epilogues hi }
  | step s change =>
    cases ha
    obtain ⟨hs, hhuman, hchange⟩ := hi
    obtain ⟨hpauses, hconsults⟩ := hp d.settings
    refine (h.change_settings (hchange _ h.settings) hpauses hconsults).push hs fun hh => ?_
    rw [hhuman] at hh
    cases hh
  | retry count prompt => exact h.retry hi.1 hi.2 ha
  | human consult message =>
    cases ha
    exact h.human hi
  | openBlock kind => exact h.openBlock ha
  | closeBlock => exact h.closeBlock ha
  | includeFile target =>
    cases ha
    exact h

end WellFormed

end Draft

/-! ## Compiled conversations -/

/-- What a compiled conversation holds has the form that directives give it. -/
structure Compiled.WellFormed (registry : Registry) (c : Compiled) : Prop where
  settings : c.settings.WellFormed
  steps : Step.Formed (Step.WellFormed registry) c.steps
  pauses : HumanPoint.Ordered c.settings.pausePoints c.steps.length
  consults : HumanPoint.Ordered c.settings.consultPoints c.steps.length

/-- Every document compiles to a conversation of this form, if it compiles. -/
theorem Compiled.wellFormed_ofEvents {src : Sources} {registry : Registry}
    {stack : List Location} {file source : Option Path} {text : Text} {c : Compiled}
    (h : ofEvents source (Event.ofDirectives src registry stack file
      (Directive.ofDocument registry text)) = .ok c) : c.WellFormed registry := by
  obtain ⟨d, hr, hf⟩ := ofEvents_ok h
  have hd : d.WellFormed registry := Draft.run_keeps (fun _ _ h => { h with })
    (fun _ _ _ _ hm h ha => h.apply (Event.wellFormed_of_mem hm) (Event.spares_of_mem hm) ha)
    Draft.wellFormed_start hr
  obtain ⟨-, rfl⟩ := Draft.finish_ok hf
  exact {
    settings := { hd.settings with
      prologues := List.forall_mem_append.mpr ⟨hd.prologues, hd.settings.prologues⟩
      epilogues := List.forall_mem_append.mpr ⟨hd.epilogues, hd.settings.epilogues⟩ }
    steps := hd.steps
    pauses := hd.pauses
    consults := hd.consults }

theorem Compiled.wellFormed_ofText {src : Sources} {registry : Registry} {text : Text}
    {c : Compiled} (h : ofText src registry text = .ok c) : c.WellFormed registry :=
  wellFormed_ofEvents h

end ConversationFlow
