import ConversationFlow.Proofs.Compilation.Points
import ConversationFlow.Proofs.Merging.Places
import Mathlib.Data.List.Forall2
import Mathlib.Data.List.Permutation

/-!
# Points for humans in merged conversations

A conversation is run with its steps merged, and its points are renumbered by the places of
the steps. The compiler puts a point only at a step that is there and is not ELIDE, so that
the renumbering finds a place for it: a point after a step stays a point after a step, and
does not become one before the first.
-/

namespace ConversationFlow

/-- The step at `i` is one of the steps that the output step at `j` is made of. -/
structure Step.Within (steps out : List Step) (places : List Nat) (i j : Nat) : Prop where
  place : places[i]? = some j
  inside : j < out.length
  made : out[j]? = some (emitted (sentTo steps places j))
  member : ∃ s, steps[i]? = some s ∧ s.isElide = false ∧ s ∈ sentTo steps places j

theorem Step.Placed.within {steps out : List Step} {places : List Nat}
    (h : Placed steps out places) {i : Nat} {s : Step} (hs : steps[i]? = some s)
    (he : s.isElide = false) : ∃ j, Within steps out places i j := by
  obtain ⟨j, hp, hj⟩ := h.inside i s hs he
  exact ⟨j, hp, hj, (h.made j hj).2, s, hs, he, mem_sentTo hs he hp⟩

theorem Step.Placed.onto {steps out : List Step} {places : List Nat}
    (h : Placed steps out places) {j : Nat} (hj : j < out.length) : j ∈ places := by
  obtain ⟨s, hs⟩ := List.exists_mem_of_ne_nil _ (h.made j hj).1
  obtain ⟨e, he, -⟩ := List.mem_map.mp hs
  obtain ⟨hz, hf⟩ := List.mem_filter.mp he
  have hj : e.2 = j := by
    rw [Bool.and_eq_true, beq_iff_eq] at hf
    exact hf.2
  exact hj ▸ (List.of_mem_zip hz).2

namespace Conversation

/-- A point of the conversation is one of the compiled points: it has the message of it, and
follows the step that contains the step which that one follows, if there is one. -/
structure Moved (c : Compiled) (before after : HumanPoint) : Prop where
  message_eq : after.message = before.message
  leading : before.afterStep = none → after.afterStep = none
  following : ∀ i, before.afterStep = some i → ∃ j, after.afterStep = some j ∧
    Step.Within c.steps (ofCompiled c).steps (Step.mergeWithMap c.steps).2 i j

theorem moved_of_follows {c : Compiled} {p : HumanPoint} (h : p.Follows c.steps) :
    Moved c p { p with afterStep := p.afterStep.bind ((Step.mergeWithMap c.steps).2[·]?) } := by
  refine ⟨rfl, fun hn => ?_, fun i hi => ?_⟩
  · rw [hn]
    rfl
  · obtain ⟨s, hs, he⟩ := h i hi
    obtain ⟨j, hw⟩ := (Step.placed_mergeWithMap c.steps).within hs he
    refine ⟨j, ?_, hw⟩
    rw [hi]
    exact hw.place

/-- The points of a compiled conversation and those of the conversation, one for one. -/
theorem points_moved {c : Compiled} (h : c.IsResult) :
    List.Forall₂ (Moved c) c.settings.pausePoints (ofCompiled c).settings.pausePoints ∧
      List.Forall₂ (Moved c) c.settings.consultPoints (ofCompiled c).settings.consultPoints := by
  obtain ⟨pauses, consults⟩ := Compiled.points_follow h
  constructor
  · rw [ofCompiled, Settings.renumber, List.forall₂_map_right_iff, List.forall₂_same]
    exact fun p hp => moved_of_follows (pauses p hp)
  · rw [ofCompiled, Settings.renumber, List.forall₂_map_right_iff, List.forall₂_same]
    exact fun p hp => moved_of_follows (consults p hp)

/-- Merging gives every step its place among the output, and leaves no output step without one;
the points of a compiled conversation follow their steps to these places. -/
theorem merging_keeps_places_and_points :
    (∀ steps, Step.Placed steps (Step.mergeWithMap steps).1 (Step.mergeWithMap steps).2 ∧
      ∀ j < (Step.mergeWithMap steps).1.length, j ∈ (Step.mergeWithMap steps).2) ∧
    ∀ c : Compiled, c.IsResult →
      List.Forall₂ (Moved c) c.settings.pausePoints (ofCompiled c).settings.pausePoints ∧
      List.Forall₂ (Moved c) c.settings.consultPoints (ofCompiled c).settings.consultPoints := by
  constructor
  · intro steps
    have hp := Step.placed_mergeWithMap steps
    exact ⟨hp, fun j hj => hp.onto hj⟩
  · intro c hc
    exact points_moved hc

/-- A pause after two linked turns follows the one turn that they are merged to. -/
theorem pause_after_linked_turns :
    ∃ c : Compiled,
      Compiled.ofText FileSystem.empty .empty "PROMPT a\nELIDE\nPROMPT b\nPAUSE look".toList = .ok c ∧
      c.settings.pausePoints = [⟨some 2, "look".toList⟩] ∧
      (ofCompiled c).settings.pausePoints = [⟨some 0, "look".toList⟩] ∧
      List.Forall₂ (Moved c) c.settings.pausePoints (ofCompiled c).settings.pausePoints := by
  have hc : Compiled.ofText FileSystem.empty .empty
      "PROMPT a\nELIDE\nPROMPT b\nPAUSE look".toList =
      .ok ⟨{ pausePoints := [⟨some 2, "look".toList⟩] },
        [.prompt "a".toList, .elide, .prompt "b".toList], none⟩ := by
    cbv
  exact ⟨_, hc, rfl, by decide, (merging_keeps_places_and_points.2 _ (.inl ⟨_, _, _, hc⟩)).1⟩

end Conversation

end ConversationFlow
