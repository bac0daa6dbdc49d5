import ConversationFlow.Run.Cycle

/-!
# What a dialogue can come to

The answers to the requests of a run are not known beforehand: an agent may fail at any
request, a command may print anything, files may change in between. `Reaches` relates a
dialogue to every list of exchanges that it may have and to the result it then has.
What holds of every such list holds in every world, whatever its state
(`reaches_of_run`); no fairness and no order of events outside the dialogue is assumed.
-/

namespace ConversationFlow

/-- There is an answer to every request. -/
theorem Request.nonempty_answer (request : Request) : Nonempty request.Answer := by
  cases request with
  | start | stop | create | send | stats | compact | destroy | close => exact ⟨.error .notStarted⟩
  | host | command => exact ⟨.error .empty⟩
  | files => exact ⟨{ cwd := [], nodes := [] }⟩
  | save => exact ⟨.error (.unsupportedVersion [])⟩
  | write => exact ⟨.error .notFound⟩
  | stamp => exact ⟨⟨[], []⟩⟩
  | now => exact ⟨⟨⟨[], []⟩, fun _ _ => {}⟩⟩
  | clock => exact ⟨⟨0⟩⟩
  | note => exact ⟨()⟩

namespace Dialogue

variable {β γ : Type}

/-- The exchanges that a dialogue may have, and the result that it comes to by them. -/
inductive Reaches : Dialogue β → List Exchange → β → Prop where
  | done (b : β) : Reaches (.done b) [] b
  | ask {request : Request} {next : request.Answer → Dialogue β} (answer : request.Answer)
      {exchanges : List Exchange} {b : β} (rest : Reaches (next answer) exchanges b) :
      Reaches (.ask request next) (⟨request, answer⟩ :: exchanges) b

/-- Every dialogue may come to an end. -/
theorem exists_reaches (d : Dialogue β) : ∃ xs b, Reaches d xs b := by
  induction d with
  | done b => exact ⟨[], b, .done b⟩
  | ask request next ih =>
    obtain ⟨answer⟩ := request.nonempty_answer
    obtain ⟨xs, b, h⟩ := ih answer
    exact ⟨_, b, .ask answer h⟩

/-- Running a dialogue against a world has one of the lists of exchanges. -/
theorem reaches_of_run {σ : Type} (answering : Answering σ) (d : Dialogue β) (w : σ) :
    Reaches d (d.run answering w).2.1 (d.run answering w).1 := by
  induction d generalizing w with
  | done b => exact .done b
  | ask request next ih => exact .ask _ (ih _ _)

theorem reaches_done_iff {b c : β} {xs : List Exchange} :
    Reaches (.done b) xs c ↔ xs = [] ∧ c = b := by
  constructor
  · rintro ⟨⟩
    exact ⟨rfl, rfl⟩
  · rintro ⟨rfl, rfl⟩
    exact .done c

/-- A dialogue followed by another has the exchanges of both, one after the other. -/
theorem reaches_bind_iff {d : Dialogue β} {f : β → Dialogue γ} {xs : List Exchange} {c : γ} :
    Reaches (d.bind f) xs c ↔
      ∃ ys zs b, xs = ys ++ zs ∧ Reaches d ys b ∧ Reaches (f b) zs c := by
  induction d generalizing xs with
  | done b =>
    constructor
    · intro h
      exact ⟨[], xs, b, rfl, .done b, h⟩
    · rintro ⟨ys, zs, b', rfl, hy, hz⟩
      obtain ⟨rfl, rfl⟩ := reaches_done_iff.mp hy
      exact hz
  | ask request next ih =>
    constructor
    · rintro (_ | ⟨answer, rest⟩)
      obtain ⟨ys, zs, b, rfl, hy, hz⟩ := (ih answer).mp rest
      exact ⟨_ :: ys, zs, b, rfl, .ask answer hy, hz⟩
    · rintro ⟨_, zs, b, rfl, _ | ⟨answer, hy⟩, hz⟩
      exact .ask answer ((ih answer).mpr ⟨_, zs, b, rfl, hy, hz⟩)

/-- What is left of a dialogue after exchanges. -/
inductive Leads (d : Dialogue β) : List Exchange → Dialogue β → Prop where
  | start : Leads d [] d
  | ask {xs : List Exchange} {request : Request} {next : request.Answer → Dialogue β}
      (h : Leads d xs (.ask request next)) (answer : request.Answer) :
      Leads d (xs ++ [⟨request, answer⟩]) (next answer)

/-- A dialogue that was left at some request may be resumed. -/
theorem Leads.reaches {d e : Dialogue β} {xs ys : List Exchange} {b : β} (h : Leads d xs e)
    (hr : Reaches e ys b) : Reaches d (xs ++ ys) b := by
  induction h generalizing ys with
  | start => exact hr
  | ask _ answer ih =>
    rw [List.append_assoc]
    exact ih (.ask answer hr)

theorem Leads.trans {d e f : Dialogue β} {xs ys : List Exchange} (h : Leads d xs e)
    (h' : Leads e ys f) : Leads d (xs ++ ys) f := by
  induction h' with
  | start =>
    rw [List.append_nil]
    exact h
  | ask _ answer ih =>
    rw [← List.append_assoc]
    exact .ask ih answer

/-- A dialogue may be left anywhere on its way. -/
theorem Reaches.split {d : Dialogue β} {xs ys : List Exchange} {b : β}
    (h : Reaches d (xs ++ ys) b) : ∃ e, Leads d xs e ∧ Reaches e ys b := by
  induction xs generalizing d with
  | nil => exact ⟨d, .start, h⟩
  | cons x xs ih =>
    rcases h with _ | ⟨answer, rest⟩
    obtain ⟨e, hl, hr⟩ := ih rest
    exact ⟨e, (Leads.start.ask answer).trans hl, hr⟩

/-- What a dialogue asks on its way is what it asks next when it was left there. -/
theorem Reaches.ask_next {d : Dialogue β} {xs ys : List Exchange} {x : Exchange} {b : β}
    (h : Reaches d (xs ++ x :: ys) b) : ∃ next, Leads d xs (.ask x.request next) := by
  obtain ⟨e, hl, hr⟩ := h.split
  rcases hr with _ | ⟨answer, rest⟩
  exact ⟨_, hl⟩

/-- The answers decide what a dialogue comes to. -/
theorem Reaches.unique {d : Dialogue β} {xs : List Exchange} {b c : β} (h : Reaches d xs b)
    (h' : Reaches d xs c) : b = c := by
  induction h with
  | done b => exact (reaches_done_iff.mp h').2.symm
  | ask answer _ ih =>
    rcases h' with _ | ⟨_, rest⟩
    exact ih rest

theorem bind_assoc {δ : Type} (d : Dialogue β) (f : β → Dialogue γ) (g : γ → Dialogue δ) :
    (d.bind f).bind g = d.bind fun b => (f b).bind g := by
  induction d with
  | done b => rfl
  | ask request next ih => simp only [bind, ih]

theorem bind_done (d : Dialogue β) : d.bind .done = d := by
  induction d with
  | done b => rfl
  | ask request next ih => simp only [bind, ih]

instance : LawfulMonad Dialogue :=
  LawfulMonad.mk' Dialogue bind_done (fun _ _ => rfl) bind_assoc

end Dialogue

namespace Action

variable {β γ : Type}

/-- What comes of an action in a state: its result or its early end, and the state then. -/
def Reaches (a : Action β) (s : RunState) (exchanges : List Exchange)
    (result : Except Ending β) (after : RunState) : Prop :=
  Dialogue.Reaches (a s) exchanges (result, after)

theorem bind_apply (a : Action β) (f : β → Action γ) (s : RunState) :
    (a >>= f) s = (a s).bind fun e =>
      match e.1 with
      | .ok b => f b e.2
      | .error ending => .done (.error ending, e.2) := by
  change (a s).bind _ = _
  congr 1
  funext ⟨result, after⟩
  cases result <;> rfl

/-- What comes of two actions in a row: the first may already end the run. -/
theorem reaches_bind_iff {a : Action β} {f : β → Action γ} {s after : RunState}
    {xs : List Exchange} {result : Except Ending γ} :
    Reaches (a >>= f) s xs result after ↔
      (∃ ys zs b t, xs = ys ++ zs ∧ Reaches a s ys (.ok b) t ∧ Reaches (f b) t zs result after) ∨
      ∃ ending, result = .error ending ∧ Reaches a s xs (.error ending) after := by
  unfold Reaches
  rw [bind_apply, Dialogue.reaches_bind_iff]
  constructor
  · rintro ⟨ys, zs, ⟨first, t⟩, rfl, hy, hz⟩
    cases first with
    | ok b => exact .inl ⟨ys, zs, b, t, rfl, hy, hz⟩
    | error ending =>
      obtain ⟨rfl, heq⟩ := Dialogue.reaches_done_iff.mp hz
      obtain ⟨rfl, rfl⟩ := Prod.mk.inj heq
      rw [List.append_nil]
      exact .inr ⟨ending, rfl, hy⟩
  · rintro (⟨ys, zs, b, t, rfl, hy, hz⟩ | ⟨ending, rfl, h⟩)
    · exact ⟨ys, zs, _, rfl, hy, hz⟩
    · exact ⟨xs, [], _, (List.append_nil xs).symm, h, .done _⟩

/-- An action that ends the run at once. -/
theorem reaches_throw_iff {ending : Ending} {s after : RunState} {xs : List Exchange}
    {result : Except Ending β} :
    Reaches (throw ending : Action β) s xs result after ↔
      xs = [] ∧ result = .error ending ∧ after = s := by
  unfold Reaches
  change Dialogue.Reaches (.done (Except.error ending, s)) _ _ ↔ _
  rw [Dialogue.reaches_done_iff, Prod.mk.injEq]

end Action

end ConversationFlow
