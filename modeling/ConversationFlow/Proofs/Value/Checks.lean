import ConversationFlow.Proofs.Value.Numbers
import ConversationFlow.Step.Written
import Mathlib.Data.List.Infix

/-!
# Arrows and bounds that are written and read again

The two sides of an arrow are always read as they were written, and so are the metric and the
sign of a bound, but its threshold is a number that is read from its decimal.
-/

namespace ConversationFlow

/-! ## Cutting at a text -/

namespace Text

theorem after_eq_some_iff {p t r : Text} : after? p t = some r ↔ t = p ++ r := by
  induction p generalizing t with
  | nil => cases t <;> simp [after?, eq_comm]
  | cons a p ih =>
    cases t with
    | nil => simp [after?]
    | cons c t =>
      rw [after?]
      split
      · next h => rw [ih, h, List.cons_append, List.cons.injEq, and_iff_right rfl]
      · next h =>
        refine iff_of_false (Option.some_ne_none r).symm fun he => h ?_
        exact (List.cons.inj he).1.symm

theorem after_eq_none_iff {p t : Text} : after? p t = none ↔ ¬p <+: t := by
  constructor
  · rintro h ⟨r, hr⟩
    rw [after_eq_some_iff.mpr hr.symm] at h
    cases h
  · intro h
    by_contra hne
    obtain ⟨r, hr⟩ := Option.ne_none_iff_exists'.mp hne
    exact h ⟨r, (after_eq_some_iff.mp hr).symm⟩

/-- A text is cut unless it does not hold the other. -/
theorem cut_eq_none_iff {p t : Text} (hp : p ≠ []) : cut? p t = none ↔ ¬p <:+: t := by
  induction t with
  | nil => simp [cut?, hp]
  | cons c t ih =>
    rw [cut?, List.infix_cons_iff]
    cases ha : after? p (c :: t) with
    | some r =>
      refine iff_of_false nofun fun h => h (.inl ?_)
      exact ⟨r, (after_eq_some_iff.mp ha).symm⟩
    | none =>
      have hn := after_eq_none_iff.mp ha
      dsimp only
      rw [Option.map_eq_none_iff, ih, not_or, and_iff_right hn]

/-- A text is cut at the first occurrence of the other. -/
theorem cut_eq_some {p t l r : Text} (hp : p ≠ []) (h : cut? p t = some (l, r)) :
    t = l ++ p ++ r ∧ ¬p <:+: l := by
  induction t generalizing l with
  | nil => simp [cut?, hp] at h
  | cons c t ih =>
    rw [cut?] at h
    cases ha : after? p (c :: t) with
    | some s =>
      rw [ha] at h
      obtain ⟨rfl, rfl⟩ := Prod.mk.inj (Option.some.inj h)
      refine ⟨after_eq_some_iff.mp ha, fun hi => hp ?_⟩
      exact List.infix_nil.mp hi
    | none =>
      rw [ha] at h
      obtain ⟨⟨l', r'⟩, hc, he⟩ := Option.map_eq_some_iff.mp h
      obtain ⟨rfl, rfl⟩ := Prod.mk.inj he
      obtain ⟨ht, hi⟩ := ih hc
      refine ⟨by rw [ht]; rfl, fun hinf => ?_⟩
      rcases List.infix_cons_iff.mp hinf with hpre | hinf
      · refine after_eq_none_iff.mp ha (hpre.trans ?_)
        rw [ht, List.cons_prefix_cons, List.append_assoc]
        exact ⟨rfl, List.prefix_append l' (p ++ r')⟩
      · exact hi hinf

theorem cutAt_eq_none_iff {c : Char} {t : Text} : cutAt? c t = none ↔ c ∉ t := by
  unfold cutAt?
  rw [cut_eq_none_iff (List.cons_ne_nil c []), List.singleton_infix_iff]

/-- A text is cut at a character that does not stand before the cut. -/
theorem cutAt_eq_some_iff {c : Char} {t l r : Text} :
    cutAt? c t = some (l, r) ↔ t = l ++ c :: r ∧ c ∉ l := by
  constructor
  · intro h
    obtain ⟨rfl, hl⟩ := cut_eq_some (List.cons_ne_nil c []) h
    rw [List.singleton_infix_iff] at hl
    exact ⟨List.append_assoc l [c] r, hl⟩
  · rintro ⟨rfl, hl⟩
    unfold cutAt?
    induction l with
    | nil =>
      have hafter : after? [c] (c :: r) = some r := after_eq_some_iff.mpr rfl
      rw [List.nil_append, cut?, hafter]
    | cons d l ih =>
      rw [List.mem_cons, not_or] at hl
      have hafter : after? [c] (d :: (l ++ c :: r)) = none := if_neg hl.1
      rw [List.cons_append, cut?, hafter, ih hl.2]
      rfl

theorem trim_infix (t : Text) : trim t <:+: t :=
  (trimEnd_prefix_self _).isInfix.trans (List.dropWhile_suffix _).isInfix

end Text

/-! ## The sides of an arrow -/

namespace Instruction

/-- The arrow as it is written. -/
def arrow : Text := ['-', '>']

/-- The sides of an arrow as the compiler takes them. -/
structure IsArrow (source target : Text) : Prop where
  left : Text.IsValue source
  right : Text.IsValue target
  first : ¬arrow <:+: source

theorem isArrow_of_traceCheck {value source target : Text} (hv : '\n' ∉ value)
    (h : traceCheck value = .ok (source, target)) : IsArrow source target := by
  have hsides {l r : Text} (hl : ¬arrow <:+: l) (hn : '\n' ∉ l ∧ '\n' ∉ r)
      (h : (if (Text.trim l).isEmpty || (Text.trim r).isEmpty then .error .arrowSideMissing
        else .ok (Text.trim l, Text.trim r) : Except ValueError (Text × Text)) =
          .ok (source, target)) : IsArrow source target := by
    split at h
    · cases h
    · next he =>
      obtain ⟨rfl, rfl⟩ := Prod.mk.inj (Except.ok.inj h)
      rw [Bool.or_eq_true, not_or, List.isEmpty_iff, List.isEmpty_iff] at he
      exact ⟨⟨Text.isLine_trim hn.1, he.1⟩, ⟨Text.isLine_trim hn.2, he.2⟩,
        fun hi => hl (hi.trans (Text.trim_infix l))⟩
  have harrow : String.toList "->" = arrow := rfl
  have hsign : String.toList "→" = ['→'] := rfl
  unfold traceCheck at h
  rw [harrow, hsign] at h
  cases hc : Text.cut? arrow value with
  | some lr =>
    obtain ⟨l, r⟩ := lr
    rw [hc] at h
    obtain ⟨rfl, hl⟩ := Text.cut_eq_some (by decide) hc
    exact hsides hl ⟨fun hm => hv (by simp [hm]), fun hm => hv (by simp [hm])⟩ h
  | none =>
    rw [hc] at h
    have hno := (Text.cut_eq_none_iff (by decide)).mp hc
    cases hc' : Text.cut? ['→'] value with
    | none =>
      rw [hc'] at h
      cases h
    | some lr =>
      obtain ⟨l, r⟩ := lr
      rw [hc'] at h
      obtain ⟨rfl, -⟩ := Text.cut_eq_some (by decide) hc'
      refine hsides (fun hi => hno (hi.trans ?_))
        ⟨fun hm => hv (by simp [hm]), fun hm => hv (by simp [hm])⟩ h
      rw [List.append_assoc]
      exact List.infix_append' [] l _

/-- What is written for the sides of an arrow. -/
def arrowText (source target : Text) : Text := source ++ [' ', '-', '>', ' '] ++ target

theorem isValue_arrowText {source target : Text} (h : IsArrow source target) :
    Text.IsValue (arrowText source target) := h.left.append h.right (by decide)

theorem cut_arrowText {source : Text} (h : ¬arrow <:+: source) (target : Text) :
    Text.cut? arrow (arrowText source target) = some (source ++ [' '], ' ' :: target) := by
  unfold arrowText
  induction source with
  | nil => rfl
  | cons c source ih =>
    rw [List.infix_cons_iff, not_or] at h
    have hno : Text.after? arrow (c :: source ++ [' ', '-', '>', ' '] ++ target) = none := by
      rw [Text.after_eq_none_iff]
      rintro ⟨r, hr⟩
      cases source with
      | nil => simp [arrow] at hr
      | cons d source =>
        obtain ⟨rfl, rfl, -⟩ : c = '-' ∧ d = '>' ∧ r = source ++ [' ', '-', '>', ' '] ++ target := by
          simpa [arrow, eq_comm] using hr
        exact h.1 ⟨source, rfl⟩
    rw [List.cons_append, List.cons_append, Text.cut?, ← List.cons_append, ← List.cons_append, hno,
      ih h.2]
    rfl

/-- The sides of an arrow are read as they were written. -/
theorem traceCheck_arrowText {source target : Text} (h : IsArrow source target) :
    traceCheck (arrowText source target) = .ok (source, target) := by
  have hs : Text.trim (source ++ [' ']) = source := by
    rw [Text.trim_concat (by decide), h.left.trimmed]
  have ht : Text.trim (' ' :: target) = target := by
    rw [Text.trim_cons (by decide), h.right.trimmed]
  have hc : Text.cut? (String.toList "->") (arrowText source target) =
      some (source ++ [' '], ' ' :: target) := cut_arrowText h.first target
  unfold traceCheck
  rw [hc]
  change (if (Text.trim (source ++ [' '])).isEmpty || (Text.trim (' ' :: target)).isEmpty then _
    else _) = _
  rw [hs, ht, if_neg]
  rw [Bool.or_eq_true, not_or, List.isEmpty_iff, List.isEmpty_iff]
  exact ⟨h.left.nonempty, h.right.nonempty⟩

/-! ## Bounds -/

/-- A metric: a word of a value. -/
abbrev IsMetric (t : Text) : Prop := Text.IsPiece Text.isBlank t

/-- A coverage check as the compiler takes it. -/
inductive IsCoverage : CoverageCheck → Prop
  | report : IsCoverage .reportOnly
  | measure {m : Text} (h : IsMetric m) : IsCoverage ⟨some m, none, none⟩
  | bound {m : Text} (h : IsMetric m) (c : Comparison) (x : Float) :
      IsCoverage ⟨some m, some c, some x⟩

theorem isCoverage_of_bound {metric sign threshold : Text} {c : CoverageCheck}
    (hm : IsMetric metric) (h : Instruction.bound metric sign threshold = .ok c) :
    IsCoverage c := by
  unfold Instruction.bound at h
  split at h
  · cases h
  · dsimp only at h
    split at h
    · cases h
    · cases h
      exact .bound hm _ _

theorem isCoverage_of_coverageCheck {value : Text} {c : CoverageCheck}
    (h : coverageCheck value = .ok c) : IsCoverage c := by
  have hword {w : Text} (hw : w ∈ Text.words value) : IsMetric w := (Text.isPiece_of_mem hw).1
  unfold coverageCheck at h
  split at h
  · cases h
    exact .report
  · next m hws =>
    cases h
    exact .measure (hword (by rw [hws]; exact List.mem_cons_self))
  · exact isCoverage_of_bound (by decide) h
  · next hws => exact isCoverage_of_bound (hword (by rw [hws]; exact List.mem_cons_self)) h
  · cases h

/-- What is written for a coverage check. -/
def coverageText : CoverageCheck → Text
  | ⟨some m, some c, some x⟩ => Text.join [' '] [m, c.sign, Decimal.ofFloat x]
  | ⟨some m, _, _⟩ => m
  | _ => []

/-- What is read where a coverage check is written. -/
def rereadCoverage (c : CoverageCheck) : Option CoverageCheck :=
  match c.threshold with
  | none => some c
  | some x => (Decimal.toFloat? (Decimal.ofFloat x)).map fun y => { c with threshold := some y }

theorem isMetric_sign (c : Comparison) : IsMetric c.sign := by cases c <;> decide

theorem ofSign_sign (c : Comparison) : Comparison.ofSign? c.sign = some c := by cases c <;> rfl

theorem isMetric_ofFloat (x : Float) : IsMetric (Decimal.ofFloat x) :=
  ⟨Decimal.ofFloat_ne_nil x, fun _ hc => (Decimal.isBlank_of_mem_ofFloat hc).1⟩

theorem isMetric_three {m : Text} (hm : IsMetric m) (c : Comparison) (x : Float) :
    ∀ w ∈ [m, c.sign, Decimal.ofFloat x], IsMetric w := by
  intro w hw
  simp only [List.mem_cons, List.not_mem_nil, or_false] at hw
  rcases hw with rfl | rfl | rfl
  · exact hm
  · exact isMetric_sign c
  · exact isMetric_ofFloat x

theorem words_join {ws : List Text} (h : ∀ w ∈ ws, IsMetric w) :
    Text.words (Text.join [' '] ws) = ws := Text.pieces_join h (List.all_eq_true.mp rfl) (by decide)

theorem isLine_coverageText {c : CoverageCheck} (h : IsCoverage c) :
    Text.IsLine (coverageText c) := by
  cases h with
  | report => exact Text.isLine_nil
  | measure hm => exact (Text.isValue_of_noBlank hm.1 hm.2).toIsLine
  | bound hm c x =>
    refine (Text.isValue_join (by decide) (List.cons_ne_nil _ _) fun w hw => ?_).toIsLine
    have hw := isMetric_three hm c x w hw
    exact Text.isValue_of_noBlank hw.1 hw.2

/-- The threshold has no percent sign to lose. -/
theorem toFloat_withoutPercent (x : Float) :
    (((Decimal.ofFloat x).reverse.dropWhile (· = '%')).reverse) = Decimal.ofFloat x := by
  change (Decimal.ofFloat x).rdropWhile (· = '%') = _
  rw [List.rdropWhile_eq_self_iff]
  intro hne
  have hc := (Decimal.isBlank_of_mem_ofFloat (List.getLast_mem hne)).2
  simpa using hc

/-- Of a coverage check at most the threshold is read differently. -/
theorem coverageCheck_coverageText {c : CoverageCheck} (h : IsCoverage c) :
    (coverageCheck (coverageText c)).toOption = rereadCoverage c := by
  unfold coverageCheck
  cases h with
  | report => rfl
  | @measure m hm =>
    have hw : Text.words m = [m] := Text.pieces_of_isPiece hm
    unfold coverageText
    dsimp only
    rw [hw]
    rfl
  | @bound m hm c x =>
    unfold coverageText
    dsimp only
    rw [words_join (isMetric_three hm c x)]
    dsimp only
    unfold Instruction.bound
    rw [ofSign_sign]
    dsimp only
    rw [toFloat_withoutPercent]
    unfold rereadCoverage
    dsimp only
    cases Decimal.toFloat? (Decimal.ofFloat x) <;> rfl

end Instruction

end ConversationFlow
