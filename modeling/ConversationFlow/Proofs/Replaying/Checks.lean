import ConversationFlow.Proofs.Compilation.Lists
import ConversationFlow.Proofs.Running.Resolving
import ConversationFlow.Proofs.Writing.RoundTrip

/-!
# Checks that a merged turn keeps as text

A merged turn keeps a check or a query as the line that writes it, and compiles this line again
when it asks the host. The line always compiles to one step of the same kind, if to any: the step
that is read where the step is written (`ofText_keptLine`). The host is then asked what the step by
itself asks, if the step survives being written.

Which checks and queries survive is said outright for those without options, and one way only for
those with plain options. Options with other names may take part of each other, and nothing but
their reading tells.
-/

namespace ConversationFlow

open Step

/-! ## Lines without a line feed at the end -/

namespace Text

theorem isClean_append {a v : Text} (ha : '\n' ∉ a) (hv : IsValue v) : IsClean (a ++ v) := by
  refine ⟨fun hm => ?_, fun he => ?_⟩
  · rcases List.mem_append.mp hm with hm | hm
    · exact ha hm
    · exact hv.single hm
  · rw [List.getLast?_append_of_ne_nil _ hv.nonempty] at he
    exact hv.toIsLine.isClean.noReturn he

end Text

namespace Compiled

variable {fs : FileSystem} {registry : Registry}

/-- The line feed at the end of a text of one line does not matter. -/
theorem ofText_newline {line : Text} (hl : Text.IsClean line) (hne : line ≠ []) :
    ofText fs registry (line ++ ['\n']) = ofText fs registry line := by
  have hlast := List.getLast?_eq_some_getLast hne
  unfold ofText Directive.ofDocument
  rw [Text.lines_concat_newline hlast]
  · exact fun he => hl.single (he ▸ List.getLast_mem hne)
  · exact fun he => hl.noReturn (he ▸ hlast)

/-- The conversation of one step and what it lists. -/
def single (s : Step) : Compiled := ⟨Step.listing [s] {}, [s], none⟩

theorem head_of_family {c : Compiled} (h : c.WellFormed registry) {s : Step}
    (hs : s ∈ c.steps.flatMap family) : s.HeadWellFormed registry := by
  obtain ⟨owner, howner, hs⟩ := List.mem_flatMap.mp hs
  have form := h.steps.each owner howner
  rcases List.mem_cons.mp hs with rfl | hs
  · exact form.head
  · rcases List.mem_append.mp hs with hs | hs
    · exact (form.onFailure.each s hs).head
    · exact (form.onSuccess.each s hs).head

end Compiled

/-! ## The line that is kept -/

namespace Step

variable {registry : Registry} {s : Step} {line : Text}

/-- The line by which a merged turn asks the host for a member. -/
def keptLine? : Step → Option Text
  | .verify check _ _ => some check.directive
  | .lsp query options => some ("LSP ".toList ++ Text.trim (queryText query options))
  | _ => none

theorem leaves_of_keptLine (kept : s.keptLine? = some line) :
    s.Leaves fun r place => r.hostFilling line place := by
  cases s with
  | verify check f t =>
    cases kept
    exact Run.leaves_filling rfl
  | lsp query options =>
    cases kept
    exact Run.leaves_filling rfl
  | _ => cases kept

theorem isClean_directive {check : Check} (hc : check.WellFormed) :
    Text.IsClean check.directive := by
  cases check with
  | named kind options =>
    have value := Instruction.isValue_writtenOptions (Words.isValue_quote hc.1) hc.2
    have line := Text.isClean_append (a := "VERIFY ".toList) (by decide) value
    rwa [← List.append_assoc] at line
  | trace source target =>
    have value := Instruction.isValue_arrowText hc
    have line := Text.isClean_append (a := "VERIFY-TRACE ".toList) (by decide) value
    rw [Instruction.arrowText, ← List.append_assoc, ← List.append_assoc] at line
    exact line
  | coverage c =>
    have metric {m : Text} (hm : Instruction.IsMetric m) : Text.IsValue m :=
      Text.isValue_of_noBlank hm.1 hm.2
    cases hc with
    | report => exact ⟨by decide, by decide⟩
    | @measure m hm =>
      have line := Text.isClean_append (a := "VERIFY-COVERAGE ".toList) (by decide) (metric hm)
      rw [← List.append_nil m, ← List.append_assoc] at line
      exact line
    | @bound m hm comparison x =>
      have value : Text.IsValue (Text.join [' '] [m, comparison.sign, Decimal.ofFloat x]) :=
        Text.isValue_join (by decide) (List.cons_ne_nil _ _) fun w hw =>
          metric (Instruction.isMetric_three hm comparison x w hw)
      have line := Text.isClean_append (a := "VERIFY-COVERAGE ".toList) (by decide) value
      rw [Text.join, List.intercalate_cons_cons, List.intercalate_cons_cons,
        List.intercalate_singleton, List.append_assoc m, ← List.append_assoc _ m] at line
      rw [List.append_assoc comparison.sign] at line
      exact line

theorem isClean_keptLine (h : s.HeadWellFormed registry) (kept : s.keptLine? = some line) :
    Text.IsClean line ∧ line ≠ [] := by
  cases s with
  | verify check f t =>
    cases kept
    refine ⟨isClean_directive h, ?_⟩
    cases check <;> exact List.cons_ne_nil _ _
  | lsp query options =>
    cases kept
    have oneLine : '\n' ∉ queryText query options := single_queryText h.1 h.2
    refine ⟨?_, List.cons_ne_nil _ _⟩
    by_cases hv : Text.trim (queryText query options) = []
    · rw [hv]
      exact ⟨by decide, by decide⟩
    · exact Text.isClean_append (by decide) ⟨Text.isLine_trim oneLine, hv⟩
  | _ => cases kept

/-- The kept line makes the step that is read where the step is written. -/
theorem compiles_keptLine (own : Registry) {P : Draft → Prop} (h : s.HeadWellFormed registry)
    (kept : s.keptLine? = some line) :
    Compiles own P (line ++ ['\n']) fun d => s.rereadHead.map fun s' => d.extend [s'] := by
  cases s with
  | verify check f t =>
    cases kept
    exact (compiles_check h f t).congr fun d _ => by rw [rereadHead, Option.map_map]; rfl
  | lsp query options =>
    cases kept
    have trimmed : '\n' ∉ Text.trim (queryText query options) := fun hm =>
      single_queryText h.1 h.2 ((Text.trim_sublist _).mem hm)
    refine (compiles_step (lays_rest (k := .lsp) rfl rfl trimmed) (by decide) rfl
      fun e _ => listing_none rfl rfl).congr fun d _ => ?_
    rw [Text.trim_trim, Instruction.query_trim, Settings.toOption_refuse, rereadHead,
      Option.map_map]
    rfl
  | _ => cases kept

/-- Compiled by itself, the kept line gives the step that is read where the step is written, and
nothing else. -/
theorem ofText_keptLine (h : s.HeadWellFormed registry) (kept : s.keptLine? = some line)
    (fs : FileSystem) :
    (Compiled.ofText fs .empty line).toOption = s.rereadHead.map Compiled.single := by
  obtain ⟨clean, hne⟩ := isClean_keptLine h kept
  obtain ⟨cs, hl, hi, hf⟩ := compiles_keptLine .empty (P := fun _ => True) h kept
  rw [← Compiled.ofText_newline clean hne, Compiled.toOption_ofText hl hi, hf {} trivial]
  cases s.rereadHead with
  | none => rfl
  | some s' => rfl

/-- What is read where a check or a query is written is one again, and what the host is asked for
the line is what it is asked for that step. -/
theorem askHostFor_keptLine {s' : Step} (h : s.HeadWellFormed registry)
    (kept : s.keptLine? = some line) (hread : s.rereadHead = some s') :
    ∃ request, HostRequest.ofStep? s' = some request ∧ ∀ (r : Run) (place : StepPlace),
      r.askHostFor line place = (Action.ask .files >>= fun _ => r.askHost request place) := by
  have found : ∃ request, HostRequest.ofStep? s' = some request := by
    cases s with
    | verify check f t =>
      obtain ⟨check', -, rfl⟩ := Option.map_eq_some_iff.mp hread
      exact ⟨_, rfl⟩
    | lsp query options =>
      obtain ⟨e, -, rfl⟩ := Option.map_eq_some_iff.mp hread
      exact ⟨_, rfl⟩
    | _ => cases kept
  obtain ⟨request, hrequest⟩ := found
  refine ⟨request, hrequest, fun r place => ?_⟩
  unfold Run.askHostFor
  refine bind_congr fun fs => ?_
  have compiled := ofText_keptLine h kept fs
  rw [hread, Option.map_some] at compiled
  rw [ok_of_toOption compiled]
  dsimp only [Compiled.single]
  rw [hrequest]

/-- What survives being written is read as itself, apart from thresholds. -/
theorem rereadHead_eq_self (bare : s.blocks = ([], [])) (kept : s.keptLine? = some line)
    (hsurvives : s.HeadSurvives)
    (unbound : ∀ c f t, s = .verify (.coverage c) f t → c.threshold = none) :
    s.rereadHead = some s := by
  cases s with
  | verify check f t =>
    cases bare
    have reread : check.reread = some check := by
      cases check with
      | named kind options => exact hsurvives
      | trace source target => rfl
      | coverage c =>
        rw [Check.reread, Instruction.rereadCoverage, unbound c _ _ rfl]
        rfl
    rw [rereadHead, reread]
    rfl
  | lsp query options =>
    have reread : (Instruction.query (queryText query options)).toOption = some (query, options) :=
      hsurvives
    rw [rereadHead, reread]
    rfl
  | _ => cases kept

end Step

/-! ## Checks and queries without options -/

theorem Dictionary.eq_nil_of_ofList {es : List (Text × Text)} (h : ofList es = empty) :
    es = [] := by
  have kept {d : Dictionary Text} (hd : d.entries ≠ []) (es : List (Text × Text)) :
      (d.insertAll es).entries ≠ [] := by
    unfold insertAll
    induction es generalizing d with
    | nil => exact hd
    | cons e es ih =>
      refine ih (d := d.insert e.1 e.2) fun hnil => ?_
      change place e.1 e.2 d.entries = [] at hnil
      unfold place at hnil
      split at hnil
      · cases hnil
      · split at hnil
        · cases hnil
        · split at hnil <;> cases hnil
  cases es with
  | nil => rfl
  | cons e es =>
    refine absurd (congrArg Dictionary.entries h) (kept (d := empty.insert e.1 e.2) ?_ es)
    exact List.cons_ne_nil _ _

namespace Words

/-- Words that make up the whole text with single blanks between them have no blanks and no
quotes. -/
theorem plain_of_join {ws : List Text} (h : split? (Text.join [' '] ws) = some ws) :
    ∀ w ∈ ws, w ≠ [] ∧ ∀ c ∈ w, ¬IsQuote c ∧ Text.isBlank c = false := by
  intro w hw
  have hread : weight ws ≤ (Text.join [' '] ws).length + 1 := (weight_le _).1 ws h
  rw [length_join (List.ne_nil_of_mem hw)] at hread
  have unquoted : pairs w = 0 := by
    by_contra hne
    have more : (ws.map fun w => w.length + 1).sum < weight ws := by
      refine List.sum_lt_sum _ _ (fun v _ => Nat.le_add_right _ _) ⟨w, hw, ?_⟩
      omega
    omega
  rcases quote_eq w with ⟨-, hplain⟩ | ⟨q, -, he, -⟩
  · exact hplain
  · have longer : quote w ≠ w := by
      intro hsame
      have length := congrArg List.length (he.symm.trans hsame)
      simp at length
      omega
    have one : 1 ≤ pairs w := by
      unfold pairs
      rw [if_neg longer]
      exact le_max_left _ _
    omega

end Words

namespace Instruction

/-- Without options all words are taken as they are. -/
theorem splitOptions_empty {value : Text} {ws : List Text}
    (h : splitOptions value = .ok (ws, .empty)) :
    Words.split? value = some ws ∧ ∀ w ∈ ws, option? w = none := by
  unfold splitOptions Words.split at h
  cases hs : Words.split? value with
  | none =>
    rw [hs] at h
    cases h
  | some all =>
    rw [hs] at h
    obtain ⟨hws, hoptions⟩ := Prod.mk.inj (Except.ok.inj h)
    have hnone := List.filterMap_eq_nil_iff.mp (Dictionary.eq_nil_of_ofList hoptions)
    have hall : all.filter (fun w => (option? w).isNone) = all :=
      List.filter_eq_self.mpr fun w hw => by rw [hnone w hw]; rfl
    rw [hall] at hws
    subst hws
    exact ⟨rfl, hnone⟩

end Instruction

/-- A check without options survives if and only if its name does not hold both quotes and is not
taken for an option. -/
theorem Check.named_survives_iff {kind : Text} :
    (Check.named kind .empty).Survives ↔
      ¬Words.HoldsBothQuotes kind ∧ Instruction.option? kind = none := by
  constructor
  · intro h
    have hread : (Instruction.namedCheck (Words.quote kind ++ [])).toOption =
        some (.named kind .empty) := h
    rw [List.append_nil] at hread
    obtain ⟨⟨ws, options⟩, hsplit, hkind⟩ := exists_of_bind_ok (ok_of_toOption hread)
    obtain ⟨rfl, rfl⟩ := Check.named.inj (Except.ok.inj hkind)
    obtain ⟨hs, hnone⟩ := Instruction.splitOptions_empty hsplit
    obtain ⟨w, rest, rfl⟩ := List.exists_cons_of_ne_nil (Words.ne_nil_of_split_quote hs)
    refine ⟨?_, hnone w List.mem_cons_self⟩
    have written : Words.join [w] = Words.quote w := by
      rw [Words.join_cons, if_pos rfl, List.append_nil]
    rw [List.headD_cons, ← written] at hs
    exact Words.single_of_subperm hs (List.singleton_subperm_iff.mpr List.mem_cons_self) w
      List.mem_cons_self
  · rintro ⟨hkind, hno⟩
    exact survives_of_plain hkind hno nofun

/-- A query without options survives if and only if it is made of plain words with single blanks
between them. -/
theorem Step.query_survives_iff {query : Text} :
    (lsp query .empty).HeadSurvives ↔
      ∃ ws, ws ≠ [] ∧ (∀ w ∈ ws, Instruction.IsQueryWord w) ∧ query = Text.join [' '] ws := by
  constructor
  · intro h
    have hread : (Instruction.query (query ++ [])).toOption = some (query, .empty) := h
    rw [List.append_nil] at hread
    obtain ⟨⟨ws, options⟩, hsplit, hquery⟩ := exists_of_bind_ok (ok_of_toOption hread)
    dsimp only at hquery
    split at hquery
    · cases hquery
    · next hne =>
      obtain ⟨hjoin, rfl⟩ := Prod.mk.inj (Except.ok.inj hquery)
      obtain ⟨hs, hnone⟩ := Instruction.splitOptions_empty hsplit
      rw [← hjoin] at hs
      have hplain := Words.plain_of_join hs
      exact ⟨ws, by simpa using hne,
        fun w hw => ⟨(hplain w hw).1, (hplain w hw).2, hnone w hw⟩, hjoin.symm⟩
  · rintro ⟨ws, hne, hw, rfl⟩
    exact headSurvives_of_plain hne hw nofun

/-! ## Replaying -/

/-- What comes of the line that a merged turn keeps for a step. -/
structure Step.Replayed (s : Step) (line : Text) : Prop where
  /-- In a turn that the step is a member of, the host is asked for this line. -/
  kept : s.Leaves fun r place => r.hostFilling line place
  /-- Compiled by itself, the line gives an equal step and nothing else exactly if the step
  survives being written. -/
  compiled : ∀ fs : FileSystem, (∃ c, Compiled.ofText fs .empty line = .ok c ∧
    (c.steps == [s]) = true) ↔ s.HeadSurvives
  /-- Then the host is asked what an equal step by itself asks: this step, unless it sets a bound,
  of which an equal number is read. -/
  asked : s.HeadSurvives → ∃ s' request, s'.same s = true ∧
    ((∀ c f t, s = .verify (.coverage c) f t → c.threshold = none) → s' = s) ∧
    HostRequest.ofStep? s' = some request ∧ ∀ (r : Run) (place : StepPlace),
      r.askHostFor line place = (Action.ask .files >>= fun _ => r.askHost request place)
  /-- An arrow always survives. -/
  arrow : ∀ source target f t, s = .verify (.trace source target) f t → s.HeadSurvives
  /-- A coverage check survives if an equal threshold is read from its decimal. -/
  coverage : ∀ c f t, s = .verify (.coverage c) f t → (s.HeadSurvives ↔ ∀ x ∈ c.threshold, ∃ y,
    Decimal.toFloat? (Decimal.ofFloat x) = some y ∧ (y == x) = true)
  /-- A check without options survives if its name does not hold both quotes and is not taken for
  an option. -/
  named : ∀ kind f t, s = .verify (.named kind .empty) f t →
    (s.HeadSurvives ↔ ¬Words.HoldsBothQuotes kind ∧ Instruction.option? kind = none)
  /-- A query without options survives if it is made of plain words with single blanks between
  them. -/
  query : ∀ query, s = .lsp query .empty → (s.HeadSurvives ↔ ∃ ws, ws ≠ [] ∧
    (∀ w ∈ ws, Instruction.IsQueryWord w) ∧ query = Text.join [' '] ws)
  /-- Options with plain names and without both quotes in a value change nothing in this. -/
  options : ∀ o : Dictionary Text, (∀ e ∈ o.entries, Instruction.IsPlain e) →
    (∀ kind f t, s = .verify (.named kind o) f t → ¬Words.HoldsBothQuotes kind →
      Instruction.option? kind = none → s.HeadSurvives) ∧
    ∀ ws, ws ≠ [] → (∀ w ∈ ws, Instruction.IsQueryWord w) → s = .lsp (Text.join [' '] ws) o →
      s.HeadSurvives

namespace Compiled

variable {fs : FileSystem} {registry : Registry} {c : Compiled} {events : List Event}

/-- The line that a merged turn keeps for a check or query of a compiled conversation asks the host
what the step by itself asks, exactly if the step survives being written. -/
theorem keptLine_replayed (h : c.IsMadeOf fs registry events) {s : Step}
    (hs : s ∈ c.steps.flatMap family) (bare : s.blocks = ([], [])) {line : Text}
    (kept : s.keptLine? = some line) : s.Replayed line := by
  have form := head_of_family h.wellFormed hs
  have alone : s.withBlocks [] [] = s := by
    cases s <;> cases kept <;> first | rfl | (cases bare; rfl)
  have survives := headSurvives_iff form
  rw [alone] at survives
  constructor
  · exact leaves_of_keptLine kept
  · intro fs'
    have compiled := ofText_keptLine form kept fs'
    rw [← survives]
    constructor
    · rintro ⟨c', hc', hsame⟩
      rw [hc'] at compiled
      obtain ⟨s', hread, hc'⟩ := Option.map_eq_some_iff.mp compiled.symm
      rw [← hc', beq_eq_sameAll] at hsame
      exact ⟨s', hread, (Bool.and_eq_true_iff.mp hsame).1⟩
    · rintro ⟨s', hread, hsame⟩
      rw [hread] at compiled
      refine ⟨single s', ok_of_toOption compiled, ?_⟩
      rw [beq_eq_sameAll]
      exact Bool.and_eq_true_iff.mpr ⟨hsame, rfl⟩
  · intro hsurvives
    obtain ⟨s', hread, hsame⟩ := survives.mpr hsurvives
    obtain ⟨request, hrequest, hasked⟩ := askHostFor_keptLine form kept hread
    refine ⟨s', request, hsame, fun unbound => ?_, hrequest, hasked⟩
    rw [rereadHead_eq_self bare kept hsurvives unbound] at hread
    exact (Option.some.inj hread).symm
  · rintro source target f t rfl
    trivial
  · rintro check f t rfl
    exact Iff.rfl
  · rintro kind f t rfl
    exact Check.named_survives_iff
  · rintro query rfl
    exact query_survives_iff
  · intro o plain
    refine ⟨?_, ?_⟩
    · rintro kind f t rfl hkind hno
      exact Check.survives_of_plain hkind hno plain
    · rintro ws hne hw rfl
      exact headSurvives_of_plain hne hw plain

/-- A query between quotes loses a blank when its line is read again, and a name does not. -/
theorem quoted_query_loses_blank :
    (∃ c, ofText FileSystem.empty .empty "LSP \"a  b\"".toList = .ok c ∧
      c.steps = [.lsp "a  b".toList .empty] ∧
      ¬∃ c', ofText FileSystem.empty .empty "LSP a  b".toList = .ok c' ∧
        (c'.steps == c.steps) = true) ∧
    ∃ c, ofText FileSystem.empty .empty "VERIFY \"a  b\"".toList = .ok c ∧
      c.steps = [.verify (.named "a  b".toList .empty) [] []] ∧
      ∃ c', ofText FileSystem.empty .empty "VERIFY \"a  b\"".toList = .ok c' ∧
        (c'.steps == c.steps) = true := by
  constructor
  · have hc : ofText FileSystem.empty .empty "LSP \"a  b\"".toList =
        .ok ⟨{}, [.lsp "a  b".toList .empty], none⟩ := by
      have hdoc : Directive.ofDocument .empty "LSP \"a  b\"".toList =
        [⟨.builtin .lsp, "\"a  b\"".toList, 1⟩] := rfl
      unfold ofText
      rw [hdoc, Event.ofDirectives_plain rfl fun _ => Instruction.noConfusion, Event.ofDirectives]
      rfl
    have kept : (Step.lsp "a  b".toList .empty).keptLine? = some "LSP a  b".toList := by decide
    have replayed := keptLine_replayed (.text hc) List.mem_cons_self rfl kept
    refine ⟨_, hc, rfl, fun h => ?_⟩
    have survives := (replayed.compiled _).mp h
    exact absurd survives (by unfold HeadSurvives; decide)
  · have hc : ofText FileSystem.empty .empty "VERIFY \"a  b\"".toList =
        .ok ⟨{}, [.verify (.named "a  b".toList .empty) [] []], none⟩ := by
      have hdoc : Directive.ofDocument .empty "VERIFY \"a  b\"".toList =
        [⟨.builtin .verify, "\"a  b\"".toList, 1⟩] := rfl
      unfold ofText
      rw [hdoc, Event.ofDirectives_plain rfl fun _ => Instruction.noConfusion, Event.ofDirectives]
      rfl
    have kept : (Step.verify (.named "a  b".toList .empty) [] []).keptLine? =
        some "VERIFY \"a  b\"".toList := by decide
    have replayed := keptLine_replayed (.text hc) List.mem_cons_self rfl kept
    exact ⟨_, hc, rfl, (replayed.compiled _).mpr
      ((replayed.named _ _ _ rfl).mpr ⟨by decide, by decide⟩)⟩

end Compiled

end ConversationFlow
