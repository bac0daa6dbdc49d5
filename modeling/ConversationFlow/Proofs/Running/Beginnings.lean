import ConversationFlow.Proofs.Running.Histories
import Mathlib.Data.List.TakeWhile

/-!
# How cycles begin

The exchanges of a run show where each cycle begins, and with that what comes before its first step
or prompt. The cycles begin in order. In compact mode each but the first has the live session
compacted once before anything else; in the other modes no session is compacted there. A cycle
that runs to its end begins all the steps of the conversation.
-/

namespace ConversationFlow

namespace Exchange

/-- The agent was asked to compact a session. -/
def isCompaction : Exchange → Bool
  | ⟨.compact _, _⟩ => true
  | _ => false

/-- The step that began. -/
def begunStep? : Exchange → Option Step
  | ⟨.note (.stepBegan _ step), _⟩ => some step
  | _ => none

/-- A cycle or a step begins, or a prompt is sent. -/
def endsBeginning : Exchange → Bool
  | ⟨.note (.cycleBegan _), _⟩ | ⟨.note (.stepBegan _ _), _⟩ | ⟨.send .., _⟩ => true
  | _ => false

end Exchange

/-- The cycles that began, in order. -/
def begunCycles (xs : List Exchange) : List Nat := xs.filterMap (·.begunCycle?)

/-- The steps that began, in order, those of blocks among them. -/
def begunSteps (xs : List Exchange) : List Step := xs.filterMap (·.begunStep?)

/-- The exchanges are those after the beginning of a cycle that ran to its end: another cycle begins
after them, or the run completed. -/
def IsWholeCycle (xs : List Exchange) (result : Except RunFailure RunReport) (us : List Exchange)
    (cycle : Nat) (ys : List Exchange) : Prop :=
  begunCycles ys = [] ∧
  ((∃ next zs, xs = us ++ ⟨.note (.cycleBegan cycle), ()⟩ ::
      (ys ++ ⟨.note (.cycleBegan next), ()⟩ :: zs)) ∨
  xs = us ++ ⟨.note (.cycleBegan cycle), ()⟩ :: ys ∧
    Run.completes result = true)

/-- How often a session was to be compacted. -/
def compactions (xs : List Exchange) : Nat := xs.countP (·.isCompaction)

/-- What comes before the next step, prompt or cycle. -/
def beginning (xs : List Exchange) : List Exchange := xs.takeWhile fun x => !x.endsBeginning

/-- How often the session is compacted before the first step or prompt of a cycle. -/
def Settings.compactionsBefore (s : Settings) (cycle : Nat) : Nat :=
  if s.sessionMode = .compact ∧ 0 < cycle then 1 else 0

/-- The exchanges of a cycle. -/
structure IsCycle (s : Settings) (cycle : Nat) (ys : List Exchange) : Prop where
  begins : begunCycles ys = []
  compacts : compactions (beginning ys) = s.compactionsBefore cycle

/-- The exchanges of so many cycles at most, from one on. -/
inductive CyclesFrom (s : Settings) : Nat → Nat → List Exchange → Prop where
  | done (cycle left : Nat) : CyclesFrom s cycle left []
  | next {cycle left : Nat} {ys zs : List Exchange} (one : IsCycle s cycle ys)
      (rest : CyclesFrom s (cycle + 1) left zs) :
      CyclesFrom s cycle (left + 1) (⟨.note (.cycleBegan cycle), ()⟩ :: (ys ++ zs))

/-- The exchanges of cycles that begin all the steps, but for the last one where it is cut short. -/
inductive GoesThrough (steps : List Step) (ended : Prop) : List Exchange → Prop where
  | done : GoesThrough steps ended []
  | cut {cycle : Nat} {ys : List Exchange} (one : begunCycles ys = []) (short : ¬ended) :
      GoesThrough steps ended (⟨.note (.cycleBegan cycle), ()⟩ :: ys)
  | next {cycle : Nat} {ys zs : List Exchange} (one : begunCycles ys = [])
      (whole : steps.Sublist (begunSteps ys)) (rest : GoesThrough steps ended zs) :
      GoesThrough steps ended (⟨.note (.cycleBegan cycle), ()⟩ :: (ys ++ zs))

theorem begunCycles_append (xs ys : List Exchange) :
    begunCycles (xs ++ ys) = begunCycles xs ++ begunCycles ys := List.filterMap_append

theorem begunSteps_append (xs ys : List Exchange) :
    begunSteps (xs ++ ys) = begunSteps xs ++ begunSteps ys := List.filterMap_append

theorem begunCycles_eq_nil_iff {xs : List Exchange} :
    begunCycles xs = [] ↔ ∀ x ∈ xs, x.begunCycle? = none := List.filterMap_eq_nil_iff

section

variable {s : Settings} {xs ys zs us ws : List Exchange} {cycle left c : Nat}

/-- What follows a beginning does not change what is compacted there, if it adds nothing. -/
theorem compactions_beginning_append (h : compactions (beginning ys) = 0) :
    compactions (beginning (xs ++ ys)) = compactions (beginning xs) := by
  unfold beginning compactions at *
  rw [List.takeWhile_append]
  split
  · next hall =>
    have hxs : xs.takeWhile (fun x => !x.endsBeginning) = xs :=
      (List.takeWhile_prefix _).eq_of_length hall
    rw [List.countP_append, h, hxs, Nat.add_zero]
  · rfl

/-- A cycle does not begin among exchanges in which none does. -/
theorem split_after (h : xs ++ ys = us ++ ⟨.note (.cycleBegan c), ()⟩ :: ws)
    (hxs : begunCycles xs = []) :
    ∃ vs, us = xs ++ vs ∧ ys = vs ++ ⟨.note (.cycleBegan c), ()⟩ :: ws := by
  rcases List.append_eq_append_iff.mp h with ⟨vs, rfl, hys⟩ | ⟨vs, rfl, hws⟩
  · exact ⟨vs, rfl, hys⟩
  · cases vs with
    | nil => exact ⟨[], by simp, hws.symm⟩
    | cons v vs =>
      rw [← (List.cons.inj hws).1, begunCycles_append] at hxs
      cases (List.append_eq_nil_iff.mp hxs).2

namespace CyclesFrom

/-- The cycles begin in order. -/
theorem begunCycles_eq (h : CyclesFrom s cycle left xs) :
    ∃ n ≤ left, begunCycles xs = List.range' cycle n := by
  induction h with
  | done cycle left => exact ⟨0, Nat.zero_le left, rfl⟩
  | @next cycle left ys zs one rest ih =>
    obtain ⟨n, hn, heq⟩ := ih
    refine ⟨n + 1, Nat.succ_le_succ hn, ?_⟩
    change cycle :: begunCycles (ys ++ zs) = _
    rw [begunCycles_append, one.begins, heq]
    rfl

/-- The beginning of a cycle ends before the next cycle. -/
theorem compactions_zero (h : CyclesFrom s cycle left xs) (hzs : compactions zs = 0) :
    compactions (beginning (xs ++ zs)) = 0 := by
  cases h with
  | done =>
    have hle := (List.takeWhile_sublist (l := zs) fun x => !x.endsBeginning).countP_le
      (p := (·.isCompaction))
    exact Nat.eq_zero_of_le_zero (Nat.le_trans hle (Nat.le_of_eq hzs))
  | next => rfl

/-- Every cycle among them begins as its mode says, whatever comes behind the last of them. -/
theorem compacts (h : CyclesFrom s cycle left xs) (hbegun : begunCycles zs = [])
    (hzs : compactions zs = 0) (heq : xs ++ zs = us ++ ⟨.note (.cycleBegan c), ()⟩ :: ws) :
    compactions (beginning ws) = s.compactionsBefore c := by
  induction h generalizing us with
  | done =>
    obtain ⟨vs, -, hvs⟩ := split_after ((List.append_nil zs).trans heq) hbegun
    cases vs <;> cases hvs
  | @next cycle left ys more one rest ih =>
    rw [List.cons_append, List.append_assoc] at heq
    cases us with
    | nil =>
      obtain ⟨hc, hws⟩ := List.cons.inj heq
      cases hc
      rw [← hws, compactions_beginning_append (rest.compactions_zero hzs)]
      exact one.compacts
    | cons u us =>
      obtain ⟨vs, -, hvs⟩ := split_after (List.cons.inj heq).2 one.begins
      exact ih hvs

end CyclesFrom

/-- No cycle begins where none is let known. -/
theorem not_begun (hxs : begunCycles xs = []) : xs ≠ us ++ ⟨.note (.cycleBegan c), ()⟩ :: ws := by
  rintro rfl
  rw [begunCycles_append] at hxs
  cases (List.append_eq_nil_iff.mp hxs).2

/-- Among the exchanges after which another cycle begins, or the last one has ended, all the steps
began, whatever comes behind the last cycle. -/
theorem GoesThrough.whole {steps : List Step} {ended : Prop} (h : GoesThrough steps ended xs)
    (hzs : begunCycles zs = [])
    (heq : xs ++ zs = us ++ ⟨.note (.cycleBegan c), ()⟩ :: (ys ++ ws))
    (hws : (∃ next rest, ws = ⟨.note (.cycleBegan next), ()⟩ :: rest) ∨ ws = [] ∧ ended) :
    steps.Sublist (begunSteps ys) := by
  induction h generalizing us with
  | done => exact absurd heq (not_begun hzs)
  | @cut cycle vs one short =>
    have hvs : begunCycles (vs ++ zs) = [] := by rw [begunCycles_append, one, hzs, List.append_nil]
    cases us with
    | nil =>
      obtain ⟨next, rest, rfl⟩ := hws.resolve_right fun hend => short hend.2
      exact absurd (List.cons.inj heq).2 (not_begun hvs)
    | cons u us => exact absurd (List.cons.inj heq).2 (not_begun hvs)
  | @next cycle vs more one whole _ ih =>
    rw [List.cons_append, List.append_assoc] at heq
    cases us with
    | nil =>
      have hrest : vs ++ (more ++ zs) = ys ++ ws := (List.cons.inj heq).2
      obtain ⟨since, rfl⟩ : ∃ since, ys = vs ++ since := by
        rcases hws with ⟨next, rest, rfl⟩ | ⟨rfl, -⟩
        · obtain ⟨since, rfl, -⟩ := split_after hrest one
          exact ⟨since, rfl⟩
        · exact ⟨more ++ zs, ((hrest.trans (List.append_nil ys)).symm)⟩
      rw [begunSteps_append]
      exact whole.trans (List.sublist_append_left _ _)
    | cons u us =>
      obtain ⟨since, -, hsince⟩ := split_after (List.cons.inj heq).2 one
      exact ih hsince

end

/-! ## The cycles of a run -/

/-- No cycle or step begins, no prompt is sent, and no session is compacted. -/
def Course.unmarked : Course := fun _ xs _ =>
  ∀ x ∈ xs, x.endsBeginning = false ∧ x.isCompaction = false

theorem begunCycle?_of_endsBeginning {x : Exchange} (h : x.endsBeginning = false) :
    x.begunCycle? = none := by
  obtain ⟨request, answer⟩ := x
  cases request with
  | note n =>
    cases n with
    | cycleBegan => cases h
    | _ => rfl
  | _ => rfl

/-- What comes before the first step or prompt of a cycle, with so many compactions. -/
structure IsBeginning (n : Nat) (xs : List Exchange) : Prop where
  stays : ∀ x ∈ xs, x.endsBeginning = false
  compacts : compactions xs = n

namespace IsBeginning

variable {n : Nat} {xs ys : List Exchange} {s t : RunState}

theorem of_unmarked (h : Course.unmarked s xs t) : IsBeginning 0 xs where
  stays x hx := (h x hx).1
  compacts := List.countP_eq_zero.mpr fun x hx => by
    rw [(h x hx).2]
    exact Bool.false_ne_true

theorem append {m : Nat} (h : IsBeginning n xs) (h' : IsBeginning m ys) :
    IsBeginning (n + m) (xs ++ ys) where
  stays := List.forall_mem_append.mpr ⟨h.stays, h'.stays⟩
  compacts := by
    unfold compactions
    rw [List.countP_append]
    exact congrArg₂ (· + ·) h.compacts h'.compacts

theorem begunCycles_eq (h : IsBeginning n xs) : begunCycles xs = [] :=
  begunCycles_eq_nil_iff.mpr fun x hx => begunCycle?_of_endsBeginning (h.stays x hx)

/-- The steps that follow are not of the beginning. -/
theorem isCycle {settings : Settings} {cycle : Nat}
    (h : IsBeginning (settings.compactionsBefore cycle) xs) (hys : begunCycles ys = [])
    (hsteps : beginning ys = []) : IsCycle settings cycle (xs ++ ys) where
  begins := by rw [begunCycles_append, h.begunCycles_eq, hys, List.nil_append]
  compacts := by
    have hall : beginning xs = xs := List.takeWhile_eq_self_iff.mpr fun x hx => by
      rw [h.stays x hx]
      rfl
    rw [compactions_beginning_append (by rw [hsteps]; rfl), hall, h.compacts]

end IsBeginning

namespace Run

open ConversationFlow.Action

variable (r : Run) {s t : RunState} {xs : List Exchange}

theorem unmarked_isPath : Course.unmarked.IsPath where
  rest _ _ hx := absurd hx List.not_mem_nil
  join h h' := List.forall_mem_append.mpr ⟨h, h'⟩

theorem unmarked_ask {request : Request}
    (h : ∀ answer, Exchange.endsBeginning ⟨request, answer⟩ = false ∧
      Exchange.isCompaction ⟨request, answer⟩ = false) : Takes .unmarked (ask request) :=
  takes_ask fun answer _ => List.forall_mem_singleton.mpr (h answer)

theorem unmarked_modify (f : RunState → RunState) : Takes .unmarked (modify f : Action Unit) :=
  takes_modify fun _ _ hx => absurd hx List.not_mem_nil

theorem unmarked_tends : TendsSessions fun _ a => Takes .unmarked a where
  toIsTrait := unmarked_isPath.isTrait
  asks {request} hr := by
    cases request with
    | create | destroy | stats => exact unmarked_ask fun _ => ⟨rfl, rfl⟩
    | _ => cases hr
  changes _ := unmarked_modify _

theorem loadContext_unmarked : Takes .unmarked r.loadContext := by
  refine takes_bind unmarked_isPath (unmarked_ask fun _ => ⟨rfl, rfl⟩) fun files => ?_
  refine takes_get_bind fun s => takes_bind unmarked_isPath (unmarked_modify _) fun _ => ?_
  exact takes_orContextFailure unmarked_isPath _

/-- A session is compacted in one request. -/
theorem compactNow_isBeginning {session : Text} {place : StepPlace} {result : Except Ending Unit}
    (h : (compactNow session place).Reaches s xs result t) : IsBeginning 1 xs := by
  obtain ⟨answer, ys, rfl, hrest⟩ := reaches_ask_bind_iff.mp h
  have counted := hrest.takes (R := Course.unmarked) (by
    refine takes_bind unmarked_isPath (takes_orAgentFailure unmarked_isPath _ _) fun _ => ?_
    refine takes_bind unmarked_isPath (unmarked_ask fun _ => ⟨rfl, rfl⟩) fun stats => ?_
    split
    · exact unmarked_modify _
    · exact unmarked_modify _)
  have one : IsBeginning 1 [⟨.compact session, answer⟩] :=
    ⟨List.forall_mem_singleton.mpr rfl, rfl⟩
  exact one.append (.of_unmarked counted.1)

/-- Before the first step of a cycle the session is compacted as its mode says. -/
theorem beginCycle_isBeginning {result : Except Ending Unit}
    (hlive : r.settings.sessionMode = .compact → 0 < s.cycle → s.session ≠ none)
    (h : r.beginCycle.Reaches s xs result t) :
    IsBeginning (r.settings.compactionsBefore s.cycle) xs := by
  have live : Takes .unmarked (discard r.liveSession) :=
    takes_discard unmarked_isPath (unmarked_tends.liveSession r)
  have hfound := reaches_get_bind_iff.mp h
  unfold Settings.compactionsBefore
  dsimp only at hfound
  split at hfound
  · next hmode =>
    rw [if_neg fun hn => by cases hmode.symm.trans hn.1]
    have opens := takes_bind unmarked_isPath
      (takes_discard unmarked_isPath (unmarked_tends.openSession r)) fun _ => live
    have renewed := hfound.takes (R := Course.unmarked) (by
      refine takes_bind unmarked_isPath unmarked_tends.endSession fun _ => ?_
      split
      · refine takes_bind unmarked_isPath (unmarked_modify _) fun _ => ?_
        exact takes_bind unmarked_isPath (takes_discard unmarked_isPath r.loadContext_unmarked)
          fun _ => opens
      · exact opens)
    exact .of_unmarked renewed.1
  · next hmode =>
    by_cases hcycle : 0 < s.cycle
    · cases hs : s.session with
      | none => exact absurd hs (hlive hmode hcycle)
      | some session =>
        rw [hs] at hfound
        dsimp only at hfound
        rw [if_pos hcycle] at hfound
        rw [if_pos ⟨hmode, hcycle⟩]
        rcases reaches_bind_iff.mp hfound with ⟨ys, zs, _, u, rfl, hy, hz⟩ | ⟨ending, rfl, he⟩
        · exact (compactNow_isBeginning hy).append (.of_unmarked (hz.takes live).1)
        · exact compactNow_isBeginning he
    · rw [if_neg fun hn => hcycle hn.2]
      split at hfound
      · rw [if_neg hcycle] at hfound
        exact .of_unmarked (hfound.takes live).1
      · exact .of_unmarked (hfound.takes live).1
  · next hmode =>
    rw [if_neg fun hn => by cases hmode.symm.trans hn.1]
    exact .of_unmarked (hfound.takes live).1

/-- Within a cycle no other begins; in compact mode a session stays live. -/
theorem within_minds (mode : SessionMode) :
    Minds (fun _ x => x.begunCycle? = none)
      (fun _ s => mode = .compact → s.session ≠ none) where
  allows := Exchange.begunCycle?_of_aside
  aside h _ := h
  same h ht hmode := by
    rw [ht.session]
    exact h hmode
  opens _ _ _ := ⟨fun _ => rfl, fun session _ => Option.some_ne_none session⟩
  replaces _ _ _ _ _ := ⟨fun _ => rfl, fun session _ => Option.some_ne_none session⟩
  sends _ _ _ h _ _ _ := ⟨rfl, h⟩

theorem executeStep_begins {place : StepPlace} {turn : TurnPlace} {step : Step}
    {result : Except Ending Unit} (h : (r.executeStep place turn step).Reaches s xs result t) :
    ∃ ys, xs = ⟨.note (.stepBegan place step), ()⟩ :: ys := by
  unfold executeStep at h
  obtain ⟨answer, ys, rfl, -⟩ := reaches_ask_bind_iff.mp h
  exact ⟨ys, rfl⟩

/-- The steps of a cycle, if there are any, let know that they begin. -/
theorem executeFrom_begins {index turns : Nat} {steps : List Step} {result : Except Ending Unit}
    (h : (r.executeFrom index turns steps).Reaches s xs result t) : beginning xs = [] := by
  cases steps with
  | nil =>
    obtain ⟨rfl, -, -⟩ := reaches_modify_iff.mp h
    rfl
  | cons step rest =>
    rcases reaches_bind_iff.mp (reaches_get_bind_iff.mp h) with
      ⟨ys, zs, _, u, rfl, hy, -⟩ | ⟨ending, rfl, he⟩
    · obtain ⟨ys, rfl⟩ := r.executeStep_begins hy
      rfl
    · obtain ⟨ys, rfl⟩ := r.executeStep_begins he
      rfl

/-- Steps that are carried out to the last all begin, in order. -/
theorem executeFrom_beginsAll {index turns : Nat} {steps : List Step}
    (h : (r.executeFrom index turns steps).Reaches s xs (.ok ()) t) : steps.Sublist (begunSteps xs) := by
  induction steps generalizing index turns s xs with
  | nil => exact List.nil_sublist _
  | cons step rest ih =>
    rcases reaches_bind_iff.mp (reaches_get_bind_iff.mp h) with
      ⟨ys, zs, _, u, rfl, hy, hz⟩ | ⟨_, hending, -⟩
    · obtain ⟨ys, rfl⟩ := r.executeStep_begins hy
      rcases reaches_bind_iff.mp hz with ⟨us, ws, _, v, rfl, -, hw⟩ | ⟨_, hending, -⟩
      · rw [begunSteps_append, begunSteps_append]
        exact (((ih hw).trans (List.sublist_append_right _ _)).trans
          (List.sublist_append_right _ _)).cons_cons step
      · cases hending
    · cases hending

theorem executeCycle_beginsAll {cycle : Nat}
    (h : (r.executeCycle cycle).Reaches s xs (.ok ()) t) :
    r.conversation.steps.Sublist (begunSteps xs) := by
  rw [executeCycle_eq] at h
  rcases reaches_bind_iff.mp h with ⟨us, zs, _, u, rfl, -, hz⟩ | ⟨_, hending, -⟩
  · rcases reaches_bind_iff.mp hz with ⟨ws, vs, _, v, rfl, hw, -⟩ | ⟨_, hending, -⟩
    · rw [begunSteps_append, begunSteps_append]
      exact ((r.executeFrom_beginsAll hw).trans (List.sublist_append_left _ _)).trans
        (List.sublist_append_right _ _)
    · cases hending
  · cases hending

/-- A cycle begins as its mode says, if a session is live where it has to be compacted; in compact
mode one is live then. -/
theorem startCycle_begins {cycle : Nat} {result : Except Ending Unit}
    (hlive : r.settings.sessionMode = .compact → 0 < cycle → s.session ≠ none)
    (h : (r.startCycle cycle).Reaches s xs result t) :
    ∃ ys, xs = ⟨.note (.cycleBegan cycle), ()⟩ :: ys ∧
      IsBeginning (r.settings.compactionsBefore cycle) ys ∧
      (result = .ok () → r.settings.sessionMode = .compact → t.session ≠ none) := by
  obtain ⟨answer, ys, rfl, hy⟩ := reaches_ask_bind_iff.mp (reaches_modify_bind_iff.mp h)
  refine ⟨ys, rfl, r.beginCycle_isBeginning hlive hy, fun hok hmode => ?_⟩
  have hkept (past : List Exchange) (u : RunState) :
      Ensures (fun _ x => x.begunCycle? = none) past u r.beginCycle fun _ _ t =>
        r.settings.sessionMode = .compact → t.session ≠ none := by
    refine (within_minds r.settings.sessionMode).beginCycle_kept ?_ (fun _ => ?_) fun hu _ => hu
    · exact fun hfresh => by cases hfresh.symm.trans hmode
    · exact fun _ => ⟨fun _ => rfl, fun session _ => Option.some_ne_none session⟩
  exact (hkept [] _ ys result t hy).2 () hok hmode

/-- A cycle that begins so goes on to its end without another beginning; in compact mode a session
stays live. -/
theorem executeCycle_isCycle {cycle : Nat} {result : Except Ending Unit}
    (hlive : r.settings.sessionMode = .compact → 0 < cycle → s.session ≠ none)
    (h : (r.executeCycle cycle).Reaches s xs result t) :
    (∃ ys, xs = ⟨.note (.cycleBegan cycle), ()⟩ :: ys ∧ IsCycle r.settings cycle ys) ∧
      (result = .ok () → r.settings.sessionMode = .compact → t.session ≠ none) := by
  rw [executeCycle_eq] at h
  rcases reaches_bind_iff.mp h with ⟨_, zs, _, u, rfl, hstart, hz⟩ | ⟨ending, rfl, hstart⟩
  · obtain ⟨ys, rfl, hbegin, hu⟩ := r.startCycle_begins hlive hstart
    have steps {ws : List Exchange} {last : Except Ending Unit} {v : RunState}
        (hw : (r.executeFrom 0 0 r.conversation.steps).Reaches u ws last v) :
        IsCycle r.settings cycle (ys ++ ws) ∧
          (last = .ok () → r.settings.sessionMode = .compact → v.session ≠ none) := by
      obtain ⟨hall, hv⟩ := (within_minds r.settings.sessionMode).executeFrom 0 0
        r.conversation.steps [] u (hu rfl) ws last v hw
      have hnone := begunCycles_eq_nil_iff.mpr hall.forall_mem
      exact ⟨hbegin.isCycle hnone (r.executeFrom_begins hw), fun hok => hv () hok⟩
    rcases reaches_bind_iff.mp hz with ⟨ws, _, _, v, rfl, hw, hcount⟩ | ⟨ending, rfl, he⟩
    · obtain ⟨rfl, -, rfl⟩ := reaches_modify_iff.mp hcount
      rw [List.append_nil]
      exact ⟨⟨_, rfl, (steps hw).1⟩, fun _ => (steps hw).2 rfl⟩
    · exact ⟨⟨_, rfl, (steps he).1⟩, fun hok => by cases hok⟩
  · obtain ⟨ys, rfl, hbegin, -⟩ := r.startCycle_begins hlive hstart
    have hcycle : IsCycle r.settings cycle (ys ++ []) := hbegin.isCycle rfl rfl
    rw [List.append_nil] at hcycle
    exact ⟨⟨ys, rfl, hcycle⟩, fun hok => by cases hok⟩

theorem executeCycles_cyclesFrom {left cycle : Nat} {result : Except Ending Unit}
    (hlive : r.settings.sessionMode = .compact → 0 < cycle → s.session ≠ none)
    (h : (r.executeCycles left cycle).Reaches s xs result t) :
    CyclesFrom r.settings cycle left xs := by
  induction left generalizing cycle s xs with
  | zero =>
    obtain ⟨rfl, -, -⟩ := reaches_pure_iff.mp h
    exact .done cycle 0
  | succ left ih =>
    rcases reaches_bind_iff.mp h with ⟨ys, zs, _, u, rfl, hy, hz⟩ | ⟨ending, rfl, he⟩
    · obtain ⟨⟨ys, rfl, hone⟩, hu⟩ := r.executeCycle_isCycle hlive hy
      exact .next hone (ih (fun hmode _ => hu rfl hmode) hz)
    · obtain ⟨⟨ys, rfl, hone⟩, -⟩ := r.executeCycle_isCycle hlive he
      have hlast := CyclesFrom.next hone (.done (cycle + 1) left)
      rwa [List.append_nil] at hlast

theorem executeCycles_goesThrough {left cycle : Nat} {result : Except Ending Unit}
    (hlive : r.settings.sessionMode = .compact → 0 < cycle → s.session ≠ none)
    (h : (r.executeCycles left cycle).Reaches s xs result t) :
    GoesThrough r.conversation.steps (result.isOk = true) xs := by
  induction left generalizing cycle s xs with
  | zero =>
    obtain ⟨rfl, -, -⟩ := reaches_pure_iff.mp h
    exact .done
  | succ left ih =>
    rcases reaches_bind_iff.mp h with ⟨ys, zs, _, u, rfl, hy, hz⟩ | ⟨ending, rfl, he⟩
    · have hall := r.executeCycle_beginsAll hy
      obtain ⟨⟨ys, rfl, hone⟩, hu⟩ := r.executeCycle_isCycle hlive hy
      exact .next hone.begins hall (ih (fun hmode _ => hu rfl hmode) hz)
    · obtain ⟨⟨ys, rfl, hone⟩, -⟩ := r.executeCycle_isCycle hlive he
      exact .cut hone.begins Bool.false_ne_true

theorem opening_unmarked : Takes .unmarked r.opening :=
  r.opening_isTrait unmarked_isPath.isTrait (unmarked_ask fun _ => ⟨rfl, rfl⟩)
    (unmarked_ask fun _ => ⟨rfl, rfl⟩) (unmarked_ask fun _ => ⟨rfl, rfl⟩)
    (fun _ => unmarked_modify _) r.loadContext_unmarked
    (fun _ => unmarked_modify _) (unmarked_modify _)

theorem shutDown_unmarked : Takes .unmarked shutDown :=
  unmarked_isPath.isTrait.shutDown (fun _ => unmarked_ask fun _ => ⟨rfl, rfl⟩)
    (unmarked_ask fun _ => ⟨rfl, rfl⟩) (unmarked_modify _)

/-- A run goes through its cycles, with nothing of a cycle before them and behind them. -/
theorem dialogue_cyclesFrom {result : Except RunFailure RunReport}
    (h : (r.dialogue s).Reaches xs result) :
    ∃ us cs zs, xs = us ++ (cs ++ zs) ∧ CyclesFrom r.settings 0 r.settings.cycles cs ∧
      GoesThrough r.conversation.steps (completes result = true) cs ∧
      IsBeginning 0 us ∧ IsBeginning 0 zs := by
  obtain ⟨ys, zs, ended, t, closed, last, rfl, hexecute, hshut, rfl⟩ := reaches_dialogue_iff.mp h
  rw [completes_answer hexecute]
  have hclosing := IsBeginning.of_unmarked (hshut.takes shutDown_unmarked).1
  have opens : Takes .unmarked (do r.opening; r.stopAt 0) :=
    takes_bind unmarked_isPath r.opening_unmarked fun _ =>
      r.stopAt_isTrait unmarked_isPath.isTrait 0
  rw [execute_eq_stopAt, ← bind_assoc] at hexecute
  rcases reaches_bind_iff.mp hexecute with ⟨us, cs, _, u, rfl, hu, hcycles⟩ | ⟨ending, rfl, he⟩
  · have first (_ : r.settings.sessionMode = .compact) (hzero : 0 < 0) : u.session ≠ none :=
      absurd hzero (Nat.lt_irrefl 0)
    exact ⟨us, cs, zs, List.append_assoc us cs zs, r.executeCycles_cyclesFrom first hcycles,
      r.executeCycles_goesThrough first hcycles, .of_unmarked (hu.takes opens).1, hclosing⟩
  · exact ⟨ys, [], zs, rfl, .done 0 _, .done, .of_unmarked (he.takes opens).1, hclosing⟩

/-- The cycles of a run begin in order, from the first one on. -/
theorem dialogue_begunCycles {result : Except RunFailure RunReport}
    (h : (r.dialogue s).Reaches xs result) :
    ∃ n ≤ r.settings.cycles, begunCycles xs = List.range n := by
  obtain ⟨us, cs, zs, rfl, hcycles, -, hopening, hclosing⟩ := r.dialogue_cyclesFrom h
  obtain ⟨n, hn, heq⟩ := hcycles.begunCycles_eq
  refine ⟨n, hn, ?_⟩
  rw [begunCycles_append, begunCycles_append, hopening.begunCycles_eq, hclosing.begunCycles_eq, heq,
    List.range_eq_range', List.append_nil, List.nil_append]

/-- A cycle that ran to its end began every step of the conversation, in order. -/
theorem begins_whole_cycles {us ys : List Exchange} {cycle : Nat}
    {result : Except RunFailure RunReport} (h : (r.dialogue s).Reaches xs result)
    (hwhole : IsWholeCycle xs result us cycle ys) : r.conversation.steps.Sublist (begunSteps ys) := by
  obtain ⟨before, cs, zs, hxs, -, hthrough, hopening, hclosing⟩ := r.dialogue_cyclesFrom h
  obtain ⟨ws, heq, hws⟩ : ∃ ws, xs = us ++ ⟨.note (.cycleBegan cycle), ()⟩ :: (ys ++ ws) ∧
      ((∃ next rest, ws = ⟨.note (.cycleBegan next), ()⟩ :: rest) ∨
        ws = [] ∧ completes result = true) := by
    obtain ⟨-, ⟨next, rest, rfl⟩ | ⟨rfl, hdone⟩⟩ := hwhole
    · exact ⟨_, rfl, .inl ⟨next, rest, rfl⟩⟩
    · exact ⟨[], by rw [List.append_nil], .inr ⟨rfl, hdone⟩⟩
  obtain ⟨since, -, hsince⟩ := split_after (hxs.symm.trans heq) hopening.begunCycles_eq
  exact hthrough.whole hclosing.begunCycles_eq hsince hws

end Run

end ConversationFlow
