import ConversationFlow.Proofs.Running.Histories
import ConversationFlow.Proofs.Running.Lifecycle

/-!
# The instruction on the stop file

The agent is told of the stop file in the first prompt of each session and in no other, whichever
step sends it and whichever way the session was opened. A prompt as its step has it is let known
right before it is sent; what is sent is that, with the instruction behind it or without.
-/

namespace ConversationFlow

/-- The prompt that was sent, whether it was answered or not. -/
def Exchange.sentPrompt? : Exchange → Option Text
  | ⟨.send _ prompt _, _⟩ => some prompt
  | _ => none

/-- The prompts that were sent, in order. -/
def sentPrompts (xs : List Exchange) : List Text := xs.filterMap (·.sentPrompt?)

/-- The session was opened by the last of the exchanges that opened one; the others came since. -/
def IsLastSession (past : List Exchange) (session : Text) (since : List Exchange) : Prop :=
  createdSessions since = [] ∧ ∃ earlier options,
    past = earlier ++ ⟨.create options, .ok session⟩ :: since

/-- A prompt goes to the session that was opened last, and the instruction is behind it if it is the
first one there. -/
def InstructsFirst (instruction : Text) (past : List Exchange) : Exchange → Prop
  | ⟨.send session sent _, _⟩ => ∃ before place prompt since,
      past = before ++ [⟨.note (.sending place prompt), ()⟩] ∧
      IsLastSession before session since ∧
      sent = if sentPrompts since = [] then prompt ++ "\n\n" ++ instruction else prompt
  | _ => True

/-- Each prompt goes to the session that was opened last, and the instruction is behind it if and
only if no other prompt was sent since the opening. -/
def InstructsSessions (instruction : Text) (xs : List Exchange) : Prop :=
  ∀ us session sent streams answer ws, xs = us ++ ⟨.send session sent streams, answer⟩ :: ws →
    ∃ earlier options since place prompt,
      us = earlier ++ ⟨.create options, .ok session⟩ :: since ++
        [⟨.note (.sending place prompt), ()⟩] ∧
      createdSessions since = [] ∧
      sent = if sentPrompts since = [] then prompt ++ "\n\n" ++ instruction else prompt

/-- The live session was opened last, and the instruction is owed in it until a prompt was sent. -/
structure OwesUntilSent (instruction : Text) (past : List Exchange) (s : RunState) : Prop where
  instruction_eq : s.detector.instruction = instruction
  owes : ∀ session, s.session = some session → ∃ since, IsLastSession past session since ∧
    (s.owesInstruction = true ↔ sentPrompts since = [])

namespace Exchange

variable {x : Exchange}

theorem sentPrompt?_of_aside (h : x.request.isAside = true) : x.sentPrompt? = none := by
  obtain ⟨request, answer⟩ := x
  cases request with
  | create | send => cases h
  | _ => rfl

end Exchange

theorem sentPrompts_snoc {xs : List Exchange} {x : Exchange} (hx : x.sentPrompt? = none) :
    sentPrompts (xs ++ [x]) = sentPrompts xs := by
  unfold sentPrompts
  rw [List.filterMap_append, List.filterMap_cons_none hx]
  exact List.append_nil _

theorem IsLastSession.snoc {past since : List Exchange} {session : Text} {x : Exchange}
    (h : IsLastSession past session since) (hx : x.createdSession? = none) :
    IsLastSession (past ++ [x]) session (since ++ [x]) := by
  obtain ⟨hsince, earlier, options, rfl⟩ := h
  refine ⟨(createdSessions_snoc hx).trans hsince, earlier, options, ?_⟩
  rw [List.append_assoc]
  rfl

namespace OwesUntilSent

variable {instruction : Text} {past : List Exchange} {s t : RunState} {x : Exchange}

/-- An exchange that neither opens a session nor sends a prompt. -/
theorem snoc (h : OwesUntilSent instruction past s) (hc : x.createdSession? = none)
    (hs : x.sentPrompt? = none) : OwesUntilSent instruction (past ++ [x]) s where
  instruction_eq := h.instruction_eq
  owes session hlive := by
    obtain ⟨since, hlast, howes⟩ := h.owes session hlive
    refine ⟨since ++ [x], hlast.snoc hc, ?_⟩
    rw [sentPrompts_snoc hs]
    exact howes

theorem same (h : OwesUntilSent instruction past s) (ht : s.SameSession t) :
    OwesUntilSent instruction past t where
  instruction_eq := ht.instruction.trans h.instruction_eq
  owes session hlive := by
    obtain ⟨since, hlast, howes⟩ := h.owes session (ht.session.symm.trans hlive)
    refine ⟨since, hlast, ?_⟩
    rw [ht.owesInstruction]
    exact howes

/-- Without a session nothing is owed yet. -/
theorem of_none (hi : s.detector.instruction = instruction) (hs : s.session = none) :
    OwesUntilSent instruction past s where
  instruction_eq := hi
  owes session hlive := by
    rw [hs] at hlive
    cases hlive

theorem opens (hi : s.detector.instruction = instruction) :
    Opens (InstructsFirst instruction) (OwesUntilSent instruction) past s := by
  refine fun options => ⟨fun _ => trivial, fun session => ⟨hi, fun live hlive => ?_⟩⟩
  cases hlive
  exact ⟨[], ⟨rfl, past, options, rfl⟩, fun _ => rfl, fun _ => rfl⟩

end OwesUntilSent

namespace Run

open ConversationFlow.Action

/-- The steps of every run instruct in the first prompt of a session. -/
theorem instructing_minds (instruction : Text) :
    Minds (InstructsFirst instruction) (OwesUntilSent instruction) where
  allows {past x} hx := by
    obtain ⟨request, answer⟩ := x
    cases request with
    | send => cases hx
    | _ => trivial
  aside h hx := h.snoc (Exchange.createdSession?_of_aside hx) (Exchange.sentPrompt?_of_aside hx)
  same h ht := h.same ht
  opens h _ := OwesUntilSent.opens h.instruction_eq
  replaces _ _ h _ := OwesUntilSent.opens h.instruction_eq
  sends {past s} place prompt session h hs streams answer := by
    obtain ⟨since, hlast, howes⟩ := h.owes session hs
    refine ⟨⟨past, place, prompt, since, rfl, hlast, ?_⟩, h.instruction_eq, fun live hlive => ?_⟩
    · unfold RunState.promptSent
      rw [h.instruction_eq]
      exact if_congr howes rfl rfl
    · obtain rfl := Option.some.inj (hs.symm.trans hlive)
      refine ⟨_, (hlast.snoc rfl).snoc rfl, fun hfalse => (by cases hfalse), fun hnone => ?_⟩
      -- What was just sent is among the prompts since.
      unfold sentPrompts at hnone
      rw [List.filterMap_append] at hnone
      cases (List.append_eq_nil_iff.mp hnone).2

/-- However a cycle begins, the agent is owed the instruction in a session that is opened for it. -/
theorem startCycle_instructing (r : Run) (instruction : Text) (cycle : Nat) :
    Upholds (InstructsFirst instruction) (OwesUntilSent instruction) (r.startCycle cycle) := by
  have h := instructing_minds instruction
  intro past s hs
  refine ensures_modify_bind (ensures_ask_bind fun _ => ⟨trivial, ?_⟩)
  have begun : OwesUntilSent instruction (past ++ [⟨.note (.cycleBegan cycle), ()⟩])
      { s with cycle, vars := s.vars.setCycle (cycle + 1) r.settings.cycles } :=
    (hs.snoc rfl rfl).same ⟨rfl, rfl, rfl⟩
  by_cases hmode : r.settings.sessionMode = .fresh
  · refine h.beginCycle_fresh hmode ?_
    refine (endSession_ensures fun _ _ => trivial).imp fun _ past t ht => ?_
    rcases ht with ⟨hnone, rfl, rfl⟩ | ⟨session, -, rfl, rfl⟩
    · exact ⟨begun, hnone⟩
    · exact ⟨.of_none begun.instruction_eq rfl, rfl⟩
  · exact h.beginCycle_kept hmode (fun _ => OwesUntilSent.opens begun.instruction_eq) fun _ => begun

end Run

namespace Conversation

/-- A run that is made ready tells of the stop file in its own directory. -/
theorem prepare_instruction {c : Conversation} {o : RunOptions} {r : Run} {s : RunState}
    (h : Run.prepare c o = .ok (r, s)) :
    s.detector.instruction = StopFile.instruction r.cwd o.nonce := by
  obtain ⟨tracker, -, rfl, rfl⟩ := Run.exists_of_prepare h
  rfl

theorem instructs_along {c : Conversation} {o : RunOptions} {r : Run} {s : RunState}
    (hp : Run.prepare c o = .ok (r, s)) {xs : List Exchange}
    {result : Except RunFailure RunReport} (hr : (r.dialogue s).Reaches xs result) :
    Along (InstructsFirst (StopFile.instruction r.cwd o.nonce)) [] xs :=
  (Run.instructing_minds (StopFile.instruction r.cwd o.nonce)).along_dialogue
    (fun _ => OwesUntilSent (StopFile.instruction r.cwd o.nonce))
    (fun cycle => r.startCycle_instructing _ cycle) (fun _ _ _ h => h)
    (fun _ _ ht => .of_none (ht.instruction.trans (prepare_instruction hp))
      (ht.session.trans (prepare_session hp).1)) hr

/-- In every run, each session that is opened is told of the stop file in the first prompt that is
sent in it, and in no later one. -/
theorem first_prompts_instruct {c : Conversation} {o : RunOptions} {r : Run} {s : RunState}
    (hp : Run.prepare c o = .ok (r, s)) {xs : List Exchange}
    {result : Except RunFailure RunReport} (hr : (r.dialogue s).Reaches xs result) :
    InstructsSessions (StopFile.instruction r.cwd o.nonce) xs := by
  have hall := instructs_along hp hr
  rintro us session sent streams answer ws rfl
  obtain ⟨before, place, prompt, since, hus, ⟨hsince, earlier, options, rfl⟩, hsent⟩ :=
    hall.of_split
  exact ⟨earlier, options, since, place, prompt, hus, hsince, hsent⟩

/-- An agent that answers every prompt with the prompt. -/
def echoing : Agent Nat :=
  { firstSessionOnly with send := fun _ prompt _ w => (.ok ⟨prompt, none⟩, w) }

/-- Three prompts, the last two of them in a session of their own. -/
def promptsInTwoSessions : Compiled :=
  ⟨{}, [.prompt "one".toList, .newConversation, .prompt "two".toList, .prompt "three".toList], none⟩

/-- The first prompt of the second session is sent with the instruction again, the other is not. -/
theorem new_session_is_instructed :
    ∃ r s xs result,
      Run.prepare (ofCompiled promptsInTwoSessions) { cwd := "w" } = .ok (r, s) ∧
      (r.dialogue s).Reaches xs result ∧
      sentPrompts xs = [
        "one".toList ++ "\n\n" ++ StopFile.instruction ⟨"w".toList⟩ [],
        "two".toList ++ "\n\n" ++ StopFile.instruction ⟨"w".toList⟩ [],
        "three".toList] ∧
      InstructsSessions (StopFile.instruction r.cwd []) xs := by
  let around : Surroundings Nat :=
    { agent := echoing, host := .bare, stamp := fun w => (⟨[], []⟩, w), now := ⟨[], []⟩,
      clock := fun _ => .ofSeconds 0 }
  have hp : Run.prepare (ofCompiled promptsInTwoSessions) { cwd := "w" } = .ok (_, _) := rfl
  have hr := fun r s => Dialogue.reaches_of_run around.answer (Run.dialogue r s)
    ⟨⟨[], [], [], []⟩, 0⟩
  refine ⟨_, _, _, _, hp, hr _ _, ?_, first_prompts_instruct hp (hr _ _)⟩
  decide +kernel

end Conversation

end ConversationFlow
