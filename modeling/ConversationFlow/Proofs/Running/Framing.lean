import ConversationFlow.Proofs.Running.Delivery

/-!
# Framing over a cycle

In a cycle that runs to its end every turn is composed once, in the order of the turns, among the
prompts of blocks, of which there may be any number, and what is composed is what is sent. The parts
that open a cycle are parts of the first turn and of no other prompt, and those that close it are
parts of the last turn only.
-/

namespace ConversationFlow

/-! ## Parts of prompts -/

/-- The parts of a prompt. -/
structure PromptParts where
  continuation : List Text
  context : List Text
  prologues : List Text
  help : List Text
  pending : List Text
  headers : List Text
  body : Text
  footers : List Text
  epilogues : List Text

/-- The parts in order, with blank lines between them. -/
def PromptParts.text (p : PromptParts) : Text :=
  Text.join "\n\n" (p.continuation ++ p.context ++ p.prologues ++ p.help ++ p.pending ++
    p.headers ++ [p.body] ++ p.footers ++ p.epilogues)

/-- The parts are those of a prompt at the place, if `total` turns make up the cycle. Only the first
turn opens the cycle, and only the last one closes it. -/
structure PromptParts.AreFramed (p : PromptParts) (f : PromptFrame) (total : Nat)
    (place : TurnPlace) : Prop where
  continuation : p.continuation =
    if place = .among 0 total ∧ 0 < f.cycle ∧ f.settings.sessionMode = .accumulate then
      (f.settings.continuationPrompt.map f.vars.substitute).toList
    else []
  context : p.context = if place = .among 0 total ∧ f.context ≠ [] then [f.context] else []
  prologues : p.prologues =
    if place = .among 0 total then f.settings.prologues.map f.vars.substitute else []
  help : p.help =
    if place = .among 0 total ∧ Help.render f.settings.helpTopics ≠ [] then
      [Help.render f.settings.helpTopics]
    else []
  headers : p.headers = f.settings.headers.map f.vars.substitute
  footers : p.footers = f.settings.footers.map f.vars.substitute
  epilogues : p.epilogues =
    if place = .among (total - 1) total then f.settings.epilogues.map f.vars.substitute else []

/-- The place is in a block, or that of a turn among so many. -/
def TurnPlace.IsWithin (total : Nat) (place : TurnPlace) : Prop :=
  ∀ k n, place = .among k n → n = total ∧ k < total

namespace TurnPlace

variable {total : Nat} {place : TurnPlace}

theorem isFirst_iff (h : place.IsWithin total) : place.isFirst = true ↔ place = .among 0 total := by
  cases place with
  | inBlock => exact iff_of_false Bool.false_ne_true TurnPlace.noConfusion
  | among k n =>
    obtain ⟨rfl, -⟩ := h k n rfl
    rw [among.injEq]
    exact beq_iff_eq.trans (and_iff_left rfl).symm

theorem isLast_iff (h : place.IsWithin total) :
    place.isLast = true ↔ place = .among (total - 1) total := by
  cases place with
  | inBlock => exact iff_of_false Bool.false_ne_true TurnPlace.noConfusion
  | among k n =>
    obtain ⟨rfl, hk⟩ := h k n rfl
    rw [among.injEq]
    refine beq_iff_eq.trans ?_
    omega

end TurnPlace

namespace PromptFrame

variable (f : PromptFrame) (pending : List Text) (body : Text) (place : TurnPlace)

/-- The parts of a prompt in the frame. -/
def partsAt : PromptParts where
  continuation := if place.isFirst then f.continuation else []
  context := if place.isFirst && !f.context.isEmpty then [f.context] else []
  prologues := if place.isFirst then f.settings.prologues.map f.vars.substitute else []
  help :=
    if place.isFirst && !(Help.render f.settings.helpTopics).isEmpty then
      [Help.render f.settings.helpTopics]
    else []
  pending
  headers := f.settings.headers.map f.vars.substitute
  body
  footers := f.settings.footers.map f.vars.substitute
  epilogues := if place.isLast then f.settings.epilogues.map f.vars.substitute else []

theorem text_partsAt :
    (f.partsAt pending body place).text = f.composeResolved pending body place := by
  unfold PromptParts.text partsAt composeResolved parts opening
  cases place.isFirst <;> cases f.context.isEmpty <;>
    cases (Help.render f.settings.helpTopics).isEmpty <;> simp

variable {place} {total : Nat}

theorem partsAt_areFramed (h : place.IsWithin total) :
    (f.partsAt pending body place).AreFramed f total place where
  continuation := by
    simp only [partsAt, PromptFrame.continuation, TurnPlace.isFirst_iff h, Bool.and_eq_true,
      decide_eq_true_eq, beq_iff_eq, ite_and]
  context := by
    simp only [partsAt, Bool.and_eq_true, TurnPlace.isFirst_iff h, Bool.not_eq_true',
      List.isEmpty_eq_false_iff]
  prologues := by simp only [partsAt, TurnPlace.isFirst_iff h]
  help := by
    simp only [partsAt, Bool.and_eq_true, TurnPlace.isFirst_iff h, Bool.not_eq_true',
      List.isEmpty_eq_false_iff]
  headers := rfl
  footers := rfl
  epilogues := by simp only [partsAt, TurnPlace.isLast_iff h]

end PromptFrame

/-! ## Turns of a cycle -/

/-- The place at which a prompt was composed. -/
def Exchange.composedPlace? : Exchange → Option TurnPlace
  | ⟨.note (.composed place _ _), _⟩ => some place
  | _ => none

/-- The places of the prompts, in the order of the prompts. -/
def composedPlaces (xs : List Exchange) : List TurnPlace := xs.filterMap (·.composedPlace?)

/-- The places of the turns among them. -/
def turnPlaces (xs : List Exchange) : List TurnPlace :=
  (composedPlaces xs).filter (· ≠ .inBlock)

/-- What is composed and sent in a cycle, after the exchanges `us` and its beginning. -/
structure FramesCycle (r : Run) (us : List Exchange) (cycle : Nat) (ys : List Exchange) : Prop where
  /-- Every turn is composed once, in order. -/
  turns : turnPlaces ys = (List.range r.turns.length).map (.among · r.turns.length)
  /-- One prompt opens the cycle, and one closes it. -/
  first : (composedPlaces ys).count (.among 0 r.turns.length) = 1
  last : (composedPlaces ys).count (.among (r.turns.length - 1) r.turns.length) = 1
  /-- Every prompt is its parts, with the values and the context of the cycle. -/
  prompts : ∀ vs place pending prompt ws,
    ys = vs ++ ⟨.note (.composed place pending prompt), ()⟩ :: ws →
    ∃ f step p, r.IsFrame (us ++ ⟨.note (.cycleBegan cycle), ()⟩ :: vs) f ∧
      f.settings = r.settings ∧ f.cycle = cycle ∧
      lastStep? (us ++ ⟨.note (.cycleBegan cycle), ()⟩ :: vs) = some step ∧
      (∀ k total, place = .among k total → r.turns[k]? = some step) ∧
      PromptParts.AreFramed p f r.turns.length place ∧
      p.pending = helpWaiting (us ++ ⟨.note (.cycleBegan cycle), ()⟩ :: vs) ∧
      step.HasBody f.vars p.body ∧ prompt = p.text
  /-- No turn is without a prompt, and every prompt is sent in the cycle as it was composed. -/
  sends : r.SendsTurns False ys

namespace Run

variable {r : Run} {past us xs ys : List Exchange}

/-- The frame is that of the cycle that goes on. -/
theorem IsFrame.of_cycle {f : PromptFrame} {cycle : Nat}
    (h : r.IsFrame (us ++ ⟨.note (.cycleBegan cycle), ()⟩ :: ys) f) (hys : begunCycles ys = []) :
    f.settings = r.settings ∧ f.cycle = cycle := by
  obtain ⟨fs, now, files, loaded, last, -, -, -, hlast, -, rfl⟩ := h
  have hbegun : begunCycles (us ++ ⟨.note (.cycleBegan cycle), ()⟩ :: ys) =
      begunCycles us ++ [cycle] := by
    rw [begunCycles_append]
    exact congrArg (fun rest => begunCycles us ++ cycle :: rest) hys
  rw [hbegun, List.getLast?_concat] at hlast
  exact ⟨rfl, (Option.some.inj hlast).symm⟩

/-- Turns are composed one after the other within a cycle. -/
theorem exists_range_of_frames (h : Along r.Frames past ys) (hys : begunCycles ys = []) :
    ∃ n, turnsComposed (past ++ ys) = turnsComposed past + n ∧
      turnPlaces ys = (List.range' (turnsComposed past) n).map (.among · r.turns.length) := by
  induction ys generalizing past with
  | nil => exact ⟨0, by rw [List.append_nil, Nat.add_zero], rfl⟩
  | cons x ys ih =>
    obtain ⟨hx, hys⟩ := List.append_eq_nil_iff.mp ((begunCycles_append [x] ys).symm.trans hys)
    obtain ⟨n, hn, hplaces⟩ := ih h.2 hys
    rw [List.append_assoc, turnsComposed_snoc] at hn
    rw [turnsComposed_snoc] at hplaces
    have hframes := h.1
    obtain ⟨request, answer⟩ := x
    cases request with
    | note n =>
      cases n with
      | cycleBegan => cases hx
      | stepBegan | sending => exact ⟨n, hn, hplaces⟩
      | composed place pending prompt =>
        cases place with
        | inBlock => exact ⟨n, hn, hplaces⟩
        | among k total =>
          obtain ⟨-, f, step, body, -, -, -, -, hplace⟩ := hframes
          obtain ⟨rfl, rfl, -⟩ := hplace k total rfl
          refine ⟨n + 1, ?_, congrArg (List.cons _) hplaces⟩
          exact hn.trans (Nat.add_right_comm _ 1 n)
    | _ => exact ⟨n, hn, hplaces⟩

/-- Among the places of the turns each is counted once. -/
theorem count_composedPlaces {total k : Nat} (hk : k < total)
    (h : turnPlaces ys = (List.range total).map (.among · total)) :
    (composedPlaces ys).count (.among k total) = 1 := by
  have hcount : (turnPlaces ys).count (.among k total) = (composedPlaces ys).count _ :=
    List.count_filter (decide_eq_true TurnPlace.noConfusion)
  rw [← hcount, h]
  refine List.count_eq_one_of_mem (List.nodup_range.map fun i j hij => ?_) ?_
  · exact (TurnPlace.among.inj hij).1
  · exact List.mem_map_of_mem (List.mem_range.mpr hk)

/-- In a cycle that ran to its end every prompt was sent before the next cycle began. -/
theorem SendsTurns.of_whole {result : Except RunFailure RunReport} {cycle : Nat}
    (h : r.SendsTurns (Run.completes result = false) xs)
    (hwhole : IsWholeCycle xs result us cycle ys) : r.SendsTurns False ys := by
  obtain ⟨-, ⟨next, zs, rfl⟩ | ⟨rfl, hcompletes⟩⟩ := hwhole
  · have split (vs : List Exchange) (x : Exchange) (ws : List Exchange) :
        us ++ ⟨.note (.cycleBegan cycle), ()⟩ ::
          (vs ++ x :: ws ++ ⟨.note (.cycleBegan next), ()⟩ :: zs) =
        us ++ ⟨.note (.cycleBegan cycle), ()⟩ :: vs ++
          x :: (ws ++ ⟨.note (.cycleBegan next), ()⟩ :: zs) := by
      simp only [List.append_assoc, List.cons_append]
    refine ⟨?_, ?_⟩
    · rintro vs place step ws rfl hstep
      rcases h.composes _ place step _ (split ..) hstep with hnext | ⟨-, hway⟩
      · exact .inl hnext.in_cycle
      · exact absurd hway MakesWay.no_cycle
    · rintro vs turn pending prompt ws rfl
      rcases h.sends _ turn pending prompt _ (split ..) with ⟨sent, hnext, hsent⟩ | ⟨-, hway⟩
      · exact .inl ⟨sent, hnext.in_cycle, hsent⟩
      · exact absurd hway MakesWay.no_cycle
  · have early {p : Prop} : Run.completes result = false ∧ p → False ∧ p :=
      And.imp_left fun hfalse => Bool.noConfusion (hcompletes.symm.trans hfalse)
    have split (vs : List Exchange) (x : Exchange) (ws : List Exchange) :
        us ++ ⟨.note (.cycleBegan cycle), ()⟩ :: (vs ++ x :: ws) =
        us ++ ⟨.note (.cycleBegan cycle), ()⟩ :: vs ++ x :: ws :=
      (List.append_assoc us (_ :: vs) _).symm
    refine ⟨?_, ?_⟩
    · rintro vs place step ws rfl hstep
      exact (h.composes _ place step ws (split ..) hstep).imp_right early
    · rintro vs turn pending prompt ws rfl
      exact (h.sends _ turn pending prompt ws (split ..)).imp_right early

/-- In a cycle that ran to its end all turns were composed. -/
theorem turnsComposed_of_whole {result : Except RunFailure RunReport} {cycle : Nat}
    (hframes : Along r.Frames [] xs)
    (hdone : Run.completes result = true → turnsComposed xs = r.turns.length)
    (hbegun : ∃ n, begunCycles xs = List.range n) (hwhole : IsWholeCycle xs result us cycle ys) :
    turnsComposed (us ++ ⟨.note (.cycleBegan cycle), ()⟩ :: ys) = r.turns.length := by
  obtain ⟨hys, ⟨next, zs, rfl⟩ | ⟨rfl, hcompletes⟩⟩ := hwhole
  · -- The cycle that begins next is not the first one.
    have hnext : 0 < next := by
      obtain ⟨n, hn⟩ := hbegun
      have hlt := List.pairwise_lt_range (n := n)
      rw [← hn, begunCycles_append] at hlt
      have hafter := (List.pairwise_cons.mp (List.pairwise_append.mp hlt).2.1).1 next
      refine Nat.zero_lt_of_lt (hafter ?_)
      rw [← begunCycles, begunCycles_append]
      exact List.mem_append_right _ List.mem_cons_self
    rw [← List.cons_append, ← List.append_assoc] at hframes
    exact hframes.of_split hnext
  · exact hdone hcompletes

end Run

namespace Conversation

/-- In every cycle of a run that runs to its end, all turns are composed once and in order. The
first one has the continuation, the context, the prologues and the help, the last one the epilogues,
and no other prompt of the cycle has these parts, be it of a turn or in a block. Each prompt is sent
as it was composed, but for the instruction on the stop file. -/
theorem frames_whole_cycles {c : Conversation} {o : RunOptions} {r : Run} {s : RunState}
    (hready : Run.prepare c o = .ok (r, s)) {xs : List Exchange}
    {result : Except RunFailure RunReport} (hr : (r.dialogue s).Reaches xs result)
    (hturns : 0 < c.promptCount) {us ys : List Exchange} {cycle : Nat}
    (hwhole : IsWholeCycle xs result us cycle ys) : FramesCycle r us cycle ys := by
  obtain ⟨-, hunloaded, hhelp⟩ := Run.prepare_isUnloaded hready
  obtain rfl := prepare_conversation hready
  obtain ⟨hframes, hdone⟩ := Run.frames_along hunloaded hhelp hr
  obtain ⟨n, -, hbegun⟩ := r.dialogue_begunCycles hr
  have htotal := Run.turnsComposed_of_whole hframes hdone ⟨n, hbegun⟩ hwhole
  have hsends := (sendsTurns hready hr).of_whole hwhole
  obtain ⟨hys, hxs⟩ := hwhole
  have hall : Along r.Frames us (⟨.note (.cycleBegan cycle), ()⟩ :: ys) := by
    obtain ⟨next, zs, rfl⟩ | ⟨rfl, -⟩ := hxs
    · rw [← List.cons_append] at hframes
      exact hframes.of_append.2.of_append.1
    · exact hframes.of_append.2
  obtain ⟨m, hm, hplaces⟩ := Run.exists_range_of_frames hall.2 hys
  have hzero : turnsComposed (us ++ [⟨.note (.cycleBegan cycle), ()⟩]) = 0 :=
    turnsComposed_snoc us _
  rw [hzero, List.append_assoc] at hm
  rw [hzero, ← List.range_eq_range'] at hplaces
  obtain rfl : r.turns.length = m := htotal.symm.trans (hm.trans (Nat.zero_add m))
  refine ⟨hplaces, Run.count_composedPlaces hturns hplaces,
    Run.count_composedPlaces (Nat.sub_lt hturns Nat.one_pos) hplaces, ?_, hsends⟩
  rintro vs place pending prompt ws rfl
  have hbegun : begunCycles vs = [] :=
    (List.append_eq_nil_iff.mp ((begunCycles_append vs _).symm.trans hys)).1
  have hprompt := hall.2.of_split
  rw [List.append_assoc] at hprompt
  obtain ⟨hpending, f, step, body, hframe, hlast, hbody, hprompt, hplace⟩ := hprompt
  have hwithin : place.IsWithin r.turns.length := fun k total heq => by
    obtain ⟨-, rfl, hstep⟩ := hplace k total heq
    exact ⟨rfl, (List.getElem?_eq_some_iff.mp hstep).1⟩
  obtain ⟨hsettings, hnumber⟩ := hframe.of_cycle hbegun
  refine ⟨f, step, f.partsAt pending body place, hframe, hsettings, hnumber, hlast,
    fun k total heq => (hplace k total heq).2.2, f.partsAt_areFramed pending body hwithin,
    hpending, hbody, ?_⟩
  rw [f.text_partsAt, hprompt]

/-- Two turns in two cycles, beside a prompt in the block of a check. -/
def promptsBesideBlock : Compiled :=
  ⟨{ maxCycles := some 2, prologues := ["first".toList], epilogues := ["last".toList],
      continuationPrompt := some "go on".toList },
    [.prompt "one".toList, .verify (.named "refs".toList .empty) [] [.prompt "inner".toList],
      .prompt "two".toList], none⟩

/-- Checks pass. -/
def passingAnswer : (request : Request) → request.Answer
  | .host .. => .ok ⟨true, []⟩
  | request => stillAnswer { cwd := [], nodes := [] } request

/-- What a run shows: the places of its prompts, its cycles, and whether it completed. -/
def outline (run : Except RunFailure RunReport × List Exchange × Unit) :
    List TurnPlace × List Nat × Bool :=
  (composedPlaces run.2.1, begunCycles run.2.1, Run.completes run.1)

theorem exists_of_begunCycles {xs : List Exchange} {cycle : Nat} {before : List Nat}
    (h : begunCycles xs = before ++ [cycle]) :
    ∃ us ys, xs = us ++ ⟨.note (.cycleBegan cycle), ()⟩ :: ys ∧ begunCycles ys = [] := by
  obtain ⟨us, vs, rfl, -, hvs⟩ := List.filterMap_eq_append_iff.mp h
  obtain ⟨ws, x, ys, rfl, -, hx, hys⟩ := List.filterMap_eq_cons_iff.mp hvs
  obtain ⟨request, answer⟩ := x
  cases request with
  | note n =>
    cases n with
    | cycleBegan =>
      cases hx
      exact ⟨us ++ ws, ys, (List.append_assoc ..).symm, hys⟩
    | _ => cases hx
  | _ => cases hx

/-- The last cycle of a run with a prompt in a block is framed. -/
theorem last_cycle_is_framed :
    ∃ r s xs result us ys,
      Run.prepare (ofCompiled promptsBesideBlock) patientOptions = .ok (r, s) ∧
      (r.dialogue s).Reaches xs result ∧
      composedPlaces xs = [.among 0 2, .inBlock, .among 1 2, .among 0 2, .inBlock, .among 1 2] ∧
      0 < (ofCompiled promptsBesideBlock).promptCount ∧ IsWholeCycle xs result us 1 ys ∧
      FramesCycle r us 1 ys := by
  let answering : Dialogue.Answering Unit := fun request _ => (passingAnswer request, ())
  have hrun : (Run.prepare (ofCompiled promptsBesideBlock) patientOptions).toOption.map
      (fun p => outline ((p.1.dialogue p.2).run answering ())) =
      some ([.among 0 2, .inBlock, .among 1 2, .among 0 2, .inBlock, .among 1 2], [0] ++ [1],
        true) := by decide +kernel
  obtain ⟨p, hready⟩ :
      ∃ p, Run.prepare (ofCompiled promptsBesideBlock) patientOptions = .ok p := ⟨_, rfl⟩
  rw [hready] at hrun
  obtain ⟨hplaces, hrest⟩ := Prod.mk.inj (Option.some.inj hrun)
  obtain ⟨hbegun, hcompletes⟩ := Prod.mk.inj hrest
  obtain ⟨us, ys, hxs, hys⟩ := exists_of_begunCycles hbegun
  have hr := Dialogue.reaches_of_run answering (p.1.dialogue p.2) ()
  have hwhole : IsWholeCycle _ _ us 1 ys := ⟨hys, .inr ⟨hxs, hcompletes⟩⟩
  have hcount : 0 < (ofCompiled promptsBesideBlock).promptCount := by decide
  exact ⟨p.1, p.2, _, _, us, ys, hready, hr, hplaces, hcount, hwhole,
    frames_whole_cycles hready hr hcount hwhole⟩

end Conversation

end ConversationFlow
