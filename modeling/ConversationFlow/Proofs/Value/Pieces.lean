import ConversationFlow.Compile.Instruction
import ConversationFlow.Proofs.Text.Lines
import ConversationFlow.Proofs.Value.Quoting
import Mathlib.Algebra.BigOperators.Ring.List

/-!
# Values that list words

Tags and plain words are the pieces of a value between separators; quoted words may hold blanks. What
is put together from pieces with separators is taken apart into the same pieces, and every
list of words is written on one line, without blanks around it.
-/

namespace ConversationFlow

namespace Text

/-- The parts of a text between characters that separate, without the empty ones. -/
def pieces (separates : Char → Bool) (t : Text) : List Text :=
  (t.splitOnP separates).filter fun w => !w.isEmpty

/-- A part that is not empty and holds no separator. -/
def IsPiece (separates : Char → Bool) (w : Text) : Prop := w ≠ [] ∧ ∀ c ∈ w, separates c = false

instance (separates : Char → Bool) (w : Text) : Decidable (IsPiece separates w) :=
  decidable_of_iff (w ≠ [] ∧ w.all (fun c => !separates c) = true) (by simp [IsPiece])

variable {separates : Char → Bool}

theorem mem_splitOnPPrepend {t w : Text} (acc : Text) (h : w ∈ t.splitOnPPrepend separates acc)
    (hacc : ∀ c ∈ acc, separates c = false) :
    ∀ c ∈ w, separates c = false ∧ (c ∈ acc ∨ c ∈ t) := by
  induction t generalizing acc with
  | nil =>
    rw [List.splitOnPPrepend_nil, List.mem_singleton] at h
    subst h
    exact fun c hc => ⟨hacc c (List.mem_reverse.mp hc), .inl (List.mem_reverse.mp hc)⟩
  | cons d t ih =>
    intro c hc
    rw [List.splitOnPPrepend_cons_eq_if] at h
    split at h
    · rcases List.mem_cons.mp h with rfl | h
      · exact ⟨hacc c (List.mem_reverse.mp hc), .inl (List.mem_reverse.mp hc)⟩
      · obtain ⟨hs, hm⟩ := ih [] h (fun _ hn => by cases hn) c hc
        exact ⟨hs, .inr (List.mem_cons_of_mem d (hm.resolve_left List.not_mem_nil))⟩
    · next hd =>
      have hacc' : ∀ e ∈ d :: acc, separates e = false := by
        intro e he
        rcases List.mem_cons.mp he with rfl | he
        · simpa using hd
        · exact hacc e he
      obtain ⟨hs, hm⟩ := ih (d :: acc) h hacc' c hc
      refine ⟨hs, ?_⟩
      rcases hm with hm | hm
      · rcases List.mem_cons.mp hm with rfl | hm
        · exact .inr List.mem_cons_self
        · exact .inl hm
      · exact .inr (List.mem_cons_of_mem d hm)

/-- The pieces of a text are pieces, made of its characters. -/
theorem isPiece_of_mem {t w : Text} (h : w ∈ pieces separates t) :
    IsPiece separates w ∧ ∀ c ∈ w, c ∈ t := by
  obtain ⟨hm, hne⟩ := List.mem_filter.mp h
  have hall := mem_splitOnPPrepend [] hm fun _ hn => by cases hn
  refine ⟨⟨?_, fun c hc => (hall c hc).1⟩, fun c hc => ?_⟩
  · rintro rfl
    cases hne
  · exact (hall c hc).2.resolve_left List.not_mem_nil

theorem pieces_of_isPiece {w : Text} (h : IsPiece separates w) : pieces separates w = [w] := by
  unfold pieces
  rw [List.splitOnP_eq_singleton h.2, List.filter_cons_of_pos (by simpa using h.1)]
  rfl

theorem pieces_append {w sep t : Text} (h : IsPiece separates w)
    (hs : ∀ c ∈ sep, separates c = true) (hne : sep ≠ []) :
    pieces separates (w ++ sep ++ t) = w :: pieces separates t := by
  obtain ⟨s, more, rfl⟩ := List.exists_cons_of_ne_nil hne
  have hmore : pieces separates (more ++ t) = pieces separates t := by
    have hall : ∀ c ∈ more, separates c = true := fun c hc => hs c (List.mem_cons_of_mem s hc)
    clear hs hne
    induction more with
    | nil => rfl
    | cons c more ih =>
      rw [← ih fun d hd => hall d (List.mem_cons_of_mem c hd)]
      unfold pieces
      rw [List.cons_append, List.splitOnP_cons_eq_if_modifyHead,
        if_pos (hall c List.mem_cons_self)]
      rfl
  rw [← hmore]
  unfold pieces
  rw [List.append_assoc, List.cons_append,
    List.splitOnP_append_cons_of_forall_mem h.2 s (hs s List.mem_cons_self),
    List.filter_cons_of_pos (by simpa using h.1)]

/-- Pieces with separators between each two are taken apart again. -/
theorem pieces_join {sep : Text} {ws : List Text} (hw : ∀ w ∈ ws, IsPiece separates w)
    (hs : ∀ c ∈ sep, separates c = true) (hne : sep ≠ []) :
    pieces separates (join sep ws) = ws := by
  unfold join
  induction ws with
  | nil => rfl
  | cons w ws ih =>
    cases ws with
    | nil =>
      rw [List.intercalate_singleton]
      exact pieces_of_isPiece (hw w List.mem_cons_self)
    | cons v vs =>
      rw [List.intercalate_cons_cons, pieces_append (hw w List.mem_cons_self) hs hne,
        ih fun u hu => hw u (List.mem_cons_of_mem w hu)]

theorem mem_join {sep : Text} {ws : List Text} {c : Char} (h : c ∈ join sep ws) :
    c ∈ sep ∨ ∃ w ∈ ws, c ∈ w := by
  unfold join at h
  induction ws with
  | nil => cases h
  | cons w ws ih =>
    cases ws with
    | nil =>
      rw [List.intercalate_singleton] at h
      exact .inr ⟨w, List.mem_cons_self, h⟩
    | cons v vs =>
      rw [List.intercalate_cons_cons] at h
      rcases List.mem_append.mp h with h | h
      · rcases List.mem_append.mp h with h | h
        · exact .inr ⟨w, List.mem_cons_self, h⟩
        · exact .inl h
      · obtain h | ⟨u, hu, h⟩ := ih h
        · exact .inl h
        · exact .inr ⟨u, List.mem_cons_of_mem w hu, h⟩

/-! ## Values on one line -/

/-- A value on one line that is not empty. -/
structure IsValue (v : Text) : Prop extends IsLine v where
  nonempty : v ≠ []

theorem isValue_iff {v : Text} : IsValue v ↔ v ≠ [] ∧ '\n' ∉ v ∧
    (∀ c, v.head? = some c → isBlank c = false) ∧ ∀ c, v.getLast? = some c → isBlank c = false := by
  constructor
  · intro h
    exact ⟨h.nonempty, h.single, trim_eq_self_iff.mp h.trimmed⟩
  · rintro ⟨hne, hn, hends⟩
    exact ⟨⟨hn, trim_eq_self_iff.mpr hends⟩, hne⟩

/-- A text without blanks is a value on one line. -/
theorem isValue_of_noBlank {v : Text} (hne : v ≠ []) (h : ∀ c ∈ v, isBlank c = false) :
    IsValue v := by
  rw [isValue_iff]
  refine ⟨hne, fun hn => ?_, fun c hc => h c ?_, fun c hc => h c (List.mem_of_getLast? hc)⟩
  · exact absurd (h _ hn) (by decide)
  · exact List.mem_of_head? hc

/-- Two values on one line with something between them. -/
theorem IsValue.append {a b m : Text} (ha : IsValue a) (hb : IsValue b) (hm : '\n' ∉ m) :
    IsValue (a ++ m ++ b) := by
  obtain ⟨hna, hsa, hha, -⟩ := isValue_iff.mp ha
  obtain ⟨hnb, hsb, -, hlb⟩ := isValue_iff.mp hb
  rw [isValue_iff]
  refine ⟨by simp [hna], fun hn => ?_, fun c hc => hha c ?_, fun c hc => hlb c ?_⟩
  · rcases List.mem_append.mp hn with hn | hn
    · rcases List.mem_append.mp hn with hn | hn
      · exact hsa hn
      · exact hm hn
    · exact hsb hn
  · rw [List.append_assoc, List.head?_append_of_ne_nil _ hna] at hc
    exact hc
  · rw [List.getLast?_append_of_ne_nil _ hnb] at hc
    exact hc

/-- Values put together with something between them make a value. -/
theorem isValue_join {sep : Text} (hs : '\n' ∉ sep) {ws : List Text} (hne : ws ≠ [])
    (hw : ∀ w ∈ ws, IsValue w) : IsValue (join sep ws) := by
  unfold join
  induction ws with
  | nil => exact absurd rfl hne
  | cons w ws ih =>
    cases ws with
    | nil =>
      rw [List.intercalate_singleton]
      exact hw w List.mem_cons_self
    | cons v vs =>
      rw [List.intercalate_cons_cons]
      exact (hw w List.mem_cons_self).append
        (ih (List.cons_ne_nil v vs) fun u hu => hw u (List.mem_cons_of_mem w hu)) hs

end Text

/-! ## Tags -/

namespace Instruction

/-- A character between tags. -/
def separatesTags (c : Char) : Bool := c = ',' || Text.isBlank c

/-- A tag: no comma and no blank in it. -/
abbrev IsTag (t : Text) : Prop := Text.IsPiece separatesTags t

theorem IsTag.isValue {t : Text} (h : IsTag t) : Text.IsValue t := by
  refine Text.isValue_of_noBlank h.1 fun c hc => ?_
  have hs := h.2 c hc
  rw [separatesTags, Bool.or_eq_false_iff] at hs
  exact hs.2

end Instruction

/-! ## Words between quotes -/

namespace Words

theorem mem_of_finish {word : Option Text} {w : Text} {c : Char} (hw : w ∈ finish word)
    (hc : c ∈ w) : c ∈ word.getD [] := by
  cases word with
  | none => cases hw
  | some r =>
    rw [finish, List.mem_singleton] at hw
    subst hw
    exact List.mem_reverse.mp hc

/-- The words that are read are made of the characters of the text. -/
theorem mem_of_scan {q : Option Char} {word : Option Text} {t : Text} {ws : List Text}
    (h : scan q word t = some ws) {w : Text} (hw : w ∈ ws) {c : Char} (hc : c ∈ w) :
    c ∈ word.getD [] ∨ c ∈ t := by
  induction t generalizing q word ws with
  | nil =>
    cases q with
    | some q => cases h
    | none =>
      cases h
      exact .inl (mem_of_finish hw hc)
  | cons d t ih =>
    have hnext {r : Text} {ws : List Text} {q : Option Char}
        (h : scan q (some (d :: r)) t = some ws) (hw : w ∈ ws) : c ∈ r ∨ c ∈ d :: t := by
      rcases ih h hw with hm | hm
      · rcases List.mem_cons.mp hm with rfl | hm
        · exact .inr List.mem_cons_self
        · exact .inl hm
      · exact .inr (List.mem_cons_of_mem d hm)
    cases q with
    | some q =>
      by_cases hd : d = q
      · subst hd
        rw [scan_close] at h
        exact (ih h hw).imp_right (List.mem_cons_of_mem d)
      · rw [scan_inside hd] at h
        exact hnext h hw
    | none =>
      by_cases hq : IsQuote d
      · rw [scan_open hq] at h
        exact (ih h hw).imp_right (List.mem_cons_of_mem d)
      · cases hb : Text.isBlank d with
        | true =>
          rw [scan_blank hb, Option.map_eq_some_iff] at h
          obtain ⟨vs, hvs, rfl⟩ := h
          rcases List.mem_append.mp hw with hw | hw
          · exact .inl (mem_of_finish hw hc)
          · exact .inr (List.mem_cons_of_mem d ((ih hvs hw).resolve_left List.not_mem_nil))
        | false =>
          rw [scan_plain hq hb] at h
          exact hnext h hw

theorem mem_of_split {t : Text} {ws : List Text} (h : split? t = some ws) {w : Text} (hw : w ∈ ws)
    {c : Char} (hc : c ∈ w) : c ∈ t :=
  (mem_of_scan h hw hc).resolve_left List.not_mem_nil

/-- A word is written as a value on one line. -/
theorem isValue_quote {w : Text} (h : '\n' ∉ w) : Text.IsValue (quote w) := by
  rcases quote_eq w with ⟨he, hne, hw⟩ | ⟨q, hq, he, -⟩
  · rw [he]
    exact Text.isValue_of_noBlank hne fun c hc => (hw c hc).2
  · have hblank : Text.isBlank q = false := by rcases hq with rfl | rfl <;> decide
    have hvalue : Text.IsValue [q] := Text.isValue_of_noBlank (List.cons_ne_nil q []) fun c hc => by
      rw [List.mem_singleton.mp hc]
      exact hblank
    rw [he]
    exact hvalue.append hvalue h

theorem isValue_join {ws : List Text} (hne : ws ≠ []) (h : ∀ w ∈ ws, '\n' ∉ w) :
    Text.IsValue (join ws) := by
  unfold join
  refine Text.isValue_join (by decide) (by simpa using hne) fun v hv => ?_
  obtain ⟨w, hw, rfl⟩ := List.mem_map.mp hv
  exact isValue_quote (h w hw)

/-! ## Words that are put together -/

/-- Words that hold both quotes together need two pairs. -/
theorem weight_of_both {vs : List Text} (hne : vs ≠ []) (h : HoldsBothQuotes (Text.join [' '] vs)) :
    (Text.join [' '] vs).length + 5 ≤ weight vs := by
  have hone (q : Char) (hb : q ≠ ' ') (hq : q ∈ Text.join [' '] vs) :
      1 ≤ (vs.map fun v => if q ∈ v then 1 else 0).sum := by
    obtain hm | ⟨v, hv, hm⟩ := Text.mem_join hq
    · exact absurd (List.mem_singleton.mp hm) hb
    · refine le_trans ?_ (List.single_le_sum (fun _ _ => Nat.zero_le _) _ (List.mem_map_of_mem hv))
      rw [if_pos hm]
  have hd := hone '"' (by decide) h.1
  have hs := hone '\'' (by decide) h.2
  have hlen := length_join hne
  have hsum : (vs.map fun v => v.length + 1).sum +
      2 * ((vs.map fun v => if '"' ∈ v then 1 else 0).sum +
        (vs.map fun v => if '\'' ∈ v then 1 else 0).sum) ≤ weight vs := by
    rw [← List.sum_map_add, ← List.sum_map_mul_left, ← List.sum_map_add]
    refine List.sum_le_sum fun v _ => ?_
    have := Nat.le_max_right (if quote v = v then 0 else 1)
      ((if '"' ∈ v then 1 else 0) + if '\'' ∈ v then 1 else 0)
    unfold pairs
    omega
  omega

/-- A word is read as it was written, also by its parts, if and only if it holds one quote at most. -/
theorem join_split_quote_iff {w : Text} :
    (split? (quote w)).map (Text.join [' ']) = some w ↔ ¬HoldsBothQuotes w := by
  constructor
  · intro h hboth
    obtain ⟨vs, hs, rfl⟩ := Option.map_eq_some_iff.mp h
    have hread := (weight_le (quote (Text.join [' '] vs))).1 vs hs
    have hneed := weight_of_both (ne_nil_of_split_quote hs) hboth
    rcases quote_eq (Text.join [' '] vs) with ⟨he, -⟩ | ⟨q, -, he, -⟩
    · rw [he] at hread
      omega
    · rw [he] at hread
      simp at hread
      omega
  · intro hw
    have h := split_join_cons hw []
    rw [join_cons, if_pos rfl, if_pos rfl, List.append_nil] at h
    rw [h]
    exact congrArg some List.intercalate_singleton

end Words

end ConversationFlow
