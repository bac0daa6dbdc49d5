import ConversationFlow.Text.Utf8
import Mathlib.Data.List.Basic

/-!
# Positions in bytes

Texts are taken apart here by their characters. Where a place in a text is counted in the bytes of its
encoding, the text before it can be taken only if no character stands across the place. The place at
which two texts part is such a place in both of them, whatever the widths of their characters.
-/

namespace ConversationFlow.Text

variable {a b p t : Text} {n : Nat}

theorem byteLength_cons (c : Char) (t : Text) : byteLength (c :: t) = c.utf8Size + byteLength t :=
  rfl

theorem byteLength_append (a b : Text) : byteLength (a ++ b) = byteLength a + byteLength b := by
  induction a with
  | nil => exact (Nat.zero_add _).symm
  | cons c a ih => rw [List.cons_append, byteLength_cons, byteLength_cons, ih, Nat.add_assoc]

theorem byteLength_eq_zero_iff : byteLength t = 0 ↔ t = [] := by
  cases t with
  | nil => exact iff_of_true rfl rfl
  | cons c t =>
    have := c.utf8Size_pos
    rw [byteLength_cons]
    exact iff_of_false (by omega) (List.cons_ne_nil c t)

/-- The text before a position in bytes, unless a character stands across it. -/
def upTo? : Nat → Text → Option Text
  | 0, _ => some []
  | _ + 1, [] => none
  | n + 1, c :: t =>
    if c.utf8Size ≤ n + 1 then (upTo? (n + 1 - c.utf8Size) t).map (c :: ·) else none

private theorem upTo_zero_iff : upTo? 0 t = some p ↔ p <+: t ∧ byteLength p = 0 := by
  rw [upTo?, Option.some_inj, byteLength_eq_zero_iff]
  exact ⟨fun h => ⟨h ▸ List.nil_prefix, h.symm⟩, fun h => h.2.symm⟩

theorem upTo_eq_some_iff : upTo? n t = some p ↔ p <+: t ∧ byteLength p = n := by
  induction t generalizing n p with
  | nil =>
    cases n with
    | zero => exact upTo_zero_iff
    | succ n =>
      refine iff_of_false nofun ?_
      rintro ⟨hp, hlength⟩
      cases List.prefix_nil.mp hp
      cases hlength
  | cons c t ih =>
    cases n with
    | zero => exact upTo_zero_iff
    | succ n =>
      have hc := c.utf8Size_pos
      rw [upTo?]
      cases p with
      | nil =>
        refine iff_of_false (fun h => ?_) nofun
        split at h
        · obtain ⟨q, -, hq⟩ := Option.map_eq_some_iff.mp h
          cases hq
        · cases h
      | cons d p =>
        rw [byteLength_cons, List.cons_prefix_cons]
        split
        · next hle =>
          rw [Option.map_eq_some_iff]
          constructor
          · rintro ⟨q, hq, he⟩
            cases he
            obtain ⟨hp, hlength⟩ := ih.mp hq
            exact ⟨⟨rfl, hp⟩, by omega⟩
          · rintro ⟨⟨rfl, hp⟩, hlength⟩
            exact ⟨p, ih.mpr ⟨hp, by omega⟩, rfl⟩
        · next hlt =>
          refine iff_of_false nofun ?_
          rintro ⟨⟨rfl, -⟩, hlength⟩
          omega

/-! ## Where two texts part -/

/-- The characters of a text, each with the position in bytes at which it begins. -/
def positions (before : Nat) : Text → List (Nat × Char)
  | [] => []
  | c :: t => (before, c) :: positions (before + c.utf8Size) t

/-- The position of the first character of `a` that is not the one of `b` in its place, or the end of
the shorter text if there is none. -/
def parting (a b : Text) : Nat :=
  (((positions 0 a).zip b).find? fun x => x.1.2 != x.2).elim
    (min (byteLength a) (byteLength b)) fun x => x.1.1

private theorem elim_find_positions (n : Nat) (a b : Text) :
    ((((positions n a).zip b).find? fun x => x.1.2 != x.2).elim
      (n + min (byteLength a) (byteLength b)) fun x => x.1.1) = n + byteLength (sharedStart a b) := by
  induction a generalizing n b with
  | nil => simp [positions, sharedStart, byteLength]
  | cons c a ih =>
    cases b with
    | nil => simp [positions, sharedStart, byteLength]
    | cons d b =>
      rw [positions, List.zip_cons_cons, List.find?_cons, sharedStart]
      by_cases h : c = d
      · subst h
        have hrest := ih (n + c.utf8Size) b
        rw [if_pos rfl, byteLength_cons, byteLength_cons, byteLength_cons, ← Nat.add_assoc, ← hrest,
          bne_self_eq_false, Nat.add_min_add_left, ← Nat.add_assoc]
      · rw [if_neg h, bne_iff_ne.mpr h]
        rfl

/-- Texts part where their shared start ends. -/
theorem parting_eq (a b : Text) : parting a b = byteLength (sharedStart a b) := by
  have h := elim_find_positions 0 a b
  rwa [Nat.zero_add, Nat.zero_add] at h

end ConversationFlow.Text
