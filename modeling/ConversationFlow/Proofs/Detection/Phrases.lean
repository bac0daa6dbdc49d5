import ConversationFlow.Detector.Basic
import Mathlib.Data.List.Forall2

/-!
# What a phrase of repetition is found in

The search for a phrase walks over places of a text. Here it is read as a statement on the text:
a phrase is found in a text if and only if a part of the text, between two borders of words, is
spelled by the parts of the phrase one after the other.
-/

namespace ConversationFlow

/-- What a part of a phrase may be written as, in either case. -/
def PhrasePart.Spells : PhrasePart → Text → Prop
  | .literal t, w => List.Forall₂ (fun c d => LoopPattern.folds c d = true) t w
  | .optional t, w => List.Forall₂ (fun c d => LoopPattern.folds c d = true) t w ∨ w = []
  | .oneOf ts, w => ∃ t ∈ ts, List.Forall₂ (fun c d => LoopPattern.folds c d = true) t w
  | .restOfLine, w => '\n' ∉ w

namespace LoopPattern

/-- The place between two texts. -/
def Place.between (before after : Text) : Place := ⟨before.getLast?, after⟩

/-- What the parts of a phrase may be written as, one after the other. -/
inductive Spelled : List PhrasePart → Text → Prop where
  | nil : Spelled [] []
  | cons {part : PhrasePart} {parts : List PhrasePart} {u v : Text} (head : part.Spells u)
      (tail : Spelled parts v) : Spelled (part :: parts) (u ++ v)

/-- A phrase stands in a text as whole words. -/
def FoundIn (l : LoopPattern) (t : Text) : Prop :=
  ∃ before found after, t = before ++ found ++ after ∧ Spelled l.parts found ∧
    isBoundary (.between before (found ++ after)) = true ∧
    isBoundary (.between (before ++ found) after) = true

variable {before rest : Text} {q : Place}

theorem after?_between_iff {t : Text} :
    after? t (.between before rest) = some q ↔
      ∃ w tail, rest = w ++ tail ∧ List.Forall₂ (fun c d => folds c d = true) t w ∧
        q = .between (before ++ w) tail := by
  induction t generalizing before rest with
  | nil =>
    rw [after?, Option.some.injEq]
    constructor
    · rintro rfl
      exact ⟨[], rest, rfl, .nil, by rw [List.append_nil]⟩
    · rintro ⟨w, tail, rfl, hw, rfl⟩
      rw [List.forall₂_nil_left_iff.mp hw, List.append_nil, List.nil_append]
  | cons c t ih =>
    cases rest with
    | nil =>
      refine ⟨fun h => (by cases h), ?_⟩
      rintro ⟨w, tail, hrest, hw, -⟩
      rw [(List.append_eq_nil_iff.mp hrest.symm).1] at hw
      cases hw
    | cons d rest =>
      -- The place behind the first character is again one between two texts.
      have hnext : after? (c :: t) (.between before (d :: rest)) =
          if folds c d then after? t (.between (before ++ [d]) rest) else none := by
        rw [Place.between, after?, Place.between, List.getLast?_concat]
      rw [hnext]
      split
      · next hfolds =>
        rw [ih]
        constructor
        · rintro ⟨w, tail, rfl, hw, rfl⟩
          refine ⟨d :: w, tail, rfl, .cons hfolds hw, ?_⟩
          rw [List.append_assoc, List.singleton_append]
        · rintro ⟨w, tail, hrest, hw, rfl⟩
          obtain _ | ⟨hhead, htail⟩ := hw
          obtain ⟨rfl, rfl⟩ := List.cons.inj hrest
          refine ⟨_, tail, rfl, htail, ?_⟩
          rw [List.append_assoc, List.singleton_append]
      · next hfolds =>
        refine ⟨fun h => (by cases h), ?_⟩
        rintro ⟨w, tail, hrest, hw, -⟩
        obtain _ | ⟨hhead, htail⟩ := hw
        obtain ⟨rfl, rfl⟩ := List.cons.inj hrest
        exact absurd hhead hfolds

theorem mem_onLine_iff :
    q ∈ onLine before.getLast? rest ↔
      ∃ w tail, rest = w ++ tail ∧ '\n' ∉ w ∧ q = .between (before ++ w) tail := by
  induction rest generalizing before with
  | nil =>
    rw [onLine, List.mem_singleton]
    constructor
    · rintro rfl
      exact ⟨[], [], rfl, List.not_mem_nil, by rw [List.append_nil, Place.between]⟩
    · rintro ⟨w, tail, hrest, -, rfl⟩
      obtain ⟨rfl, rfl⟩ := List.append_eq_nil_iff.mp hrest.symm
      rw [List.append_nil, Place.between]
  | cons c rest ih =>
    rw [onLine, List.mem_cons]
    constructor
    · rintro (rfl | hq)
      · exact ⟨[], c :: rest, rfl, List.not_mem_nil, by rw [List.append_nil, Place.between]⟩
      · split at hq
        · cases hq
        · next hc =>
          rw [← List.getLast?_concat (l := before), ih] at hq
          obtain ⟨w, tail, rfl, hw, rfl⟩ := hq
          refine ⟨c :: w, tail, rfl, List.not_mem_cons_of_ne_of_not_mem (Ne.symm hc) hw, ?_⟩
          rw [List.append_assoc, List.singleton_append]
    · rintro ⟨w, tail, hrest, hw, rfl⟩
      cases w with
      | nil =>
        rw [List.append_nil, Place.between, hrest, List.nil_append]
        exact .inl rfl
      | cons d w =>
        obtain ⟨rfl, rfl⟩ := List.cons.inj hrest
        obtain ⟨hc, hw⟩ := not_or.mp (mt List.mem_cons.mpr hw)
        rw [if_neg (Ne.symm hc), ← List.getLast?_concat (l := before), ih]
        refine .inr ⟨w, tail, rfl, hw, ?_⟩
        rw [List.append_assoc, List.singleton_append]

/-- A part may end where a spelling of it ends. -/
theorem mem_ends_iff {part : PhrasePart} :
    q ∈ ends (.between before rest) part ↔
      ∃ w tail, rest = w ++ tail ∧ part.Spells w ∧ q = .between (before ++ w) tail := by
  cases part with
  | literal t =>
    rw [ends, Option.mem_toList]
    exact after?_between_iff
  | optional t =>
    rw [ends, List.mem_append, Option.mem_toList, after?_between_iff, List.mem_singleton]
    constructor
    · rintro (⟨w, tail, rfl, hw, rfl⟩ | rfl)
      · exact ⟨w, tail, rfl, .inl hw, rfl⟩
      · exact ⟨[], rest, rfl, .inr rfl, by rw [List.append_nil]⟩
    · rintro ⟨w, tail, rfl, hw | rfl, rfl⟩
      · exact .inl ⟨w, tail, rfl, hw, rfl⟩
      · exact .inr (by rw [List.append_nil, List.nil_append])
  | oneOf ts =>
    rw [ends, List.mem_filterMap]
    constructor
    · rintro ⟨t, ht, hq⟩
      obtain ⟨w, tail, rfl, hw, rfl⟩ := after?_between_iff.mp hq
      exact ⟨w, tail, rfl, ⟨t, ht, hw⟩, rfl⟩
    · rintro ⟨w, tail, rfl, ⟨t, ht, hw⟩, rfl⟩
      exact ⟨t, ht, after?_between_iff.mpr ⟨w, tail, rfl, hw, rfl⟩⟩
  | restOfLine => exact mem_onLine_iff

/-- The parts stand at a place if a spelling of them does, up to a border of a word. -/
theorem standsAt_between_iff {parts : List PhrasePart} :
    standsAt parts (.between before rest) = true ↔
      ∃ found after, rest = found ++ after ∧ Spelled parts found ∧
        isBoundary (.between (before ++ found) after) = true := by
  induction parts generalizing before rest with
  | nil =>
    rw [standsAt]
    constructor
    · intro h
      exact ⟨[], rest, rfl, .nil, by rwa [List.append_nil]⟩
    · rintro ⟨found, after, rfl, hfound, h⟩
      cases hfound
      rwa [List.append_nil] at h
  | cons part parts ih =>
    rw [standsAt, List.any_eq_true]
    constructor
    · rintro ⟨q, hq, hstands⟩
      obtain ⟨w, tail, rfl, hw, rfl⟩ := mem_ends_iff.mp hq
      obtain ⟨found, after, rfl, hfound, h⟩ := ih.mp hstands
      refine ⟨w ++ found, after, (List.append_assoc _ _ _).symm, .cons hw hfound, ?_⟩
      rwa [← List.append_assoc]
    · rintro ⟨found, after, rfl, hfound, h⟩
      obtain _ | ⟨hu, hv⟩ := hfound
      refine ⟨_, mem_ends_iff.mpr ⟨_, _, List.append_assoc _ _ _, hu, rfl⟩, ?_⟩
      rw [← List.append_assoc] at h
      exact ih.mpr ⟨_, after, rfl, hv, h⟩

theorem occursFrom_iff {l : LoopPattern} :
    l.occursFrom before.getLast? rest = true ↔
      ∃ skipped tail, rest = skipped ++ tail ∧
        isBoundary (.between (before ++ skipped) tail) = true ∧
        standsAt l.parts (.between (before ++ skipped) tail) = true := by
  induction rest generalizing before with
  | nil =>
    rw [occursFrom, Bool.and_eq_true]
    constructor
    · intro h
      exact ⟨[], [], rfl, by rwa [List.append_nil]⟩
    · rintro ⟨skipped, tail, hrest, h⟩
      obtain ⟨rfl, rfl⟩ := List.append_eq_nil_iff.mp hrest.symm
      rwa [List.append_nil] at h
  | cons c rest ih =>
    rw [occursFrom, Bool.or_eq_true, Bool.and_eq_true, ← List.getLast?_concat (l := before), ih]
    constructor
    · rintro (h | ⟨skipped, tail, rfl, h⟩)
      · exact ⟨[], c :: rest, rfl, by rwa [List.append_nil]⟩
      · rw [List.append_assoc, List.singleton_append] at h
        exact ⟨c :: skipped, tail, rfl, h⟩
    · rintro ⟨skipped, tail, hrest, h⟩
      cases skipped with
      | nil =>
        rw [List.append_nil, ← List.nil_append tail, ← hrest] at h
        exact .inl h
      | cons d skipped =>
        obtain ⟨rfl, rfl⟩ := List.cons.inj hrest
        refine .inr ⟨skipped, tail, rfl, ?_⟩
        rwa [List.append_assoc, List.singleton_append]

/-- The search finds a phrase exactly where it stands as whole words. -/
theorem occursIn_iff {l : LoopPattern} {t : Text} : l.occursIn t = true ↔ l.FoundIn t := by
  have hsearch := @occursFrom_iff [] t l
  rw [List.getLast?_nil] at hsearch
  rw [occursIn, hsearch]
  constructor
  · rintro ⟨before, tail, rfl, hboundary, hstands⟩
    rw [List.nil_append] at hboundary hstands
    obtain ⟨found, after, rfl, hfound, h⟩ := standsAt_between_iff.mp hstands
    exact ⟨before, found, after, (List.append_assoc _ _ _).symm, hfound, hboundary, h⟩
  · rintro ⟨before, found, after, rfl, hfound, hboundary, h⟩
    refine ⟨before, found ++ after, List.append_assoc _ _ _, hboundary, ?_⟩
    exact standsAt_between_iff.mpr ⟨found, after, rfl, hfound, h⟩

end LoopPattern

end ConversationFlow
