import ConversationFlow.Value.Words
import Mathlib.Algebra.Order.BigOperators.Group.List
import Mathlib.Algebra.Order.Ring.Nat
import Mathlib.Data.List.Perm.Subperm
import Mathlib.Data.List.TakeWhile

/-!
# Words that are written and read again

A word is written between quotes of a kind that it does not hold, so that it is read as it
was. Only a word that holds both kinds has no such quotes: a list of words that it stands in is
never read so that all of them are there (`single_of_subperm`), whatever the words around it
are, although a quote may be closed by one of theirs. This is counted: to be read, a word needs
a pair of quotes for each kind that it holds, and only one pair is written.
An option whose value is quoted is a word of its own with
quotes inside; such words are not treated here.
-/

namespace ConversationFlow

theorem Text.length_join (sep : Text) {ts : List Text} (h : ts ≠ []) :
    (join sep ts).length + sep.length = (ts.map fun t => t.length + sep.length).sum := by
  unfold join
  induction ts with
  | nil => exact absurd rfl h
  | cons t ts ih =>
    cases ts with
    | nil => simp
    | cons u ts =>
      rw [List.map_cons, List.sum_cons, ← ih (List.cons_ne_nil u ts), List.intercalate_cons_cons,
        List.length_append, List.length_append]
      omega

namespace Words

/-- A word holds quotes of both kinds. -/
def HoldsBothQuotes (w : Text) : Prop := '"' ∈ w ∧ '\'' ∈ w

instance (w : Text) : Decidable (HoldsBothQuotes w) := by
  unfold HoldsBothQuotes
  infer_instance

/-- A character that opens and closes quotes. -/
abbrev IsQuote (c : Char) : Prop := c = '"' ∨ c = '\''

theorem split_ok_iff {t : Text} {ws : List Text} : split t = .ok ws ↔ split? t = some ws := by
  unfold split
  cases split? t with
  | none => exact iff_of_false nofun nofun
  | some vs => exact (iff_of_eq (Except.ok.injEq vs ws)).trans Option.some_inj.symm

/-! ## Reading on -/

theorem scan_plain {c : Char} {t : Text} (hq : ¬IsQuote c) (hb : Text.isBlank c = false)
    (word : Option Text) : scan none word (c :: t) = scan none (some (c :: word.getD [])) t := by
  rw [scan, if_neg hq, hb]
  rfl

theorem scan_open {q : Char} {t : Text} (hq : IsQuote q) (word : Option Text) :
    scan none word (q :: t) = scan (some q) (some (word.getD [])) t := by
  rw [scan, if_pos hq]

theorem scan_close (q : Char) (t : Text) (word : Option Text) :
    scan (some q) word (q :: t) = scan none word t := by
  rw [scan, if_pos rfl]

theorem scan_inside {q c : Char} {t : Text} (hc : c ≠ q) (word : Option Text) :
    scan (some q) word (c :: t) = scan (some q) (some (c :: word.getD [])) t := by
  rw [scan, if_neg hc]

theorem scan_blank {c : Char} {t : Text} (hb : Text.isBlank c = true) (word : Option Text) :
    scan none word (c :: t) = (scan none none t).map (finish word ++ ·) := by
  have hq : ¬IsQuote c := by
    rintro (rfl | rfl) <;> exact absurd hb (by decide)
  rw [scan, if_neg hq, if_pos hb]

/-- A run of characters that are neither blanks nor quotes is taken into the word. -/
theorem scan_run {u t : Text} (h : ∀ c ∈ u, ¬IsQuote c ∧ Text.isBlank c = false) (r : Text) :
    scan none (some r) (u ++ t) = scan none (some (u.reverse ++ r)) t := by
  induction u generalizing r with
  | nil => rfl
  | cons c u ih =>
    obtain ⟨hq, hb⟩ := h c List.mem_cons_self
    rw [List.cons_append, scan_plain hq hb, Option.getD_some,
      ih fun d hd => h d (List.mem_cons_of_mem c hd), List.reverse_cons, List.append_assoc]
    rfl

/-- Inside quotes everything but the quote is taken into the word. -/
theorem scan_quoted {q : Char} {u t : Text} (h : q ∉ u) (r : Text) :
    scan (some q) (some r) (u ++ t) = scan (some q) (some (u.reverse ++ r)) t := by
  induction u generalizing r with
  | nil => rfl
  | cons c u ih =>
    have hc : c ≠ q := fun he => h (by simp [he])
    rw [List.cons_append, scan_inside hc, Option.getD_some,
      ih fun hm => h (List.mem_cons_of_mem c hm), List.reverse_cons, List.append_assoc]
    rfl

/-! ## Words without both quotes -/

/-- A word without blanks and quotes before a blank. -/
theorem split_plain_append {u : Text} (hne : u ≠ [])
    (h : ∀ c ∈ u, ¬IsQuote c ∧ Text.isBlank c = false) (t : Text) :
    split? (u ++ ' ' :: t) = (split? t).map (u :: ·) := by
  cases u with
  | nil => exact absurd rfl hne
  | cons c u =>
    obtain ⟨hq, hb⟩ := h c List.mem_cons_self
    rw [split?, List.cons_append, scan_plain hq hb,
      scan_run fun d hd => h d (List.mem_cons_of_mem c hd), scan_blank (by decide)]
    simp [finish, split?]

/-- A word is written as it is, or between quotes, which it does not hold unless it holds both. -/
theorem quote_eq (w : Text) :
    (quote w = w ∧ w ≠ [] ∧ ∀ c ∈ w, ¬IsQuote c ∧ Text.isBlank c = false) ∨
      ∃ q, IsQuote q ∧ quote w = q :: (w ++ [q]) ∧ (¬HoldsBothQuotes w → q ∉ w) := by
  unfold quote
  split
  · next he =>
    rw [List.isEmpty_iff] at he
    exact .inr ⟨'"', .inl rfl, by rw [he]; rfl, fun _ => by rw [he]; exact List.not_mem_nil⟩
  · next hne =>
    split
    · next hplain =>
      refine .inl ⟨rfl, by simpa using hne, fun c hc => ?_⟩
      rw [Bool.not_eq_true', List.any_eq_false] at hplain
      have hc := hplain c hc
      simp only [Bool.or_eq_true, decide_eq_true_eq, not_or] at hc
      exact ⟨fun hq => hq.elim hc.1.2 hc.2, by simpa using hc.1.1⟩
    · split
      · next hd => exact .inr ⟨'\'', .inr rfl, rfl, fun h hs => h ⟨by simpa using hd, hs⟩⟩
      · next hd => exact .inr ⟨'"', .inl rfl, rfl, fun _ => by simpa using hd⟩

/-- A word that does not hold both quotes is read as it was, also behind the beginning of a word. -/
theorem scan_quote {w t : Text} (h : ¬HoldsBothQuotes w) (word : Option Text) :
    scan none word (quote w ++ t) = scan none (some (w.reverse ++ word.getD [])) t := by
  rcases quote_eq w with ⟨he, hne, hw⟩ | ⟨q, hq, he, hno⟩
  · rw [he]
    cases w with
    | nil => exact absurd rfl hne
    | cons c w =>
      obtain ⟨hq, hb⟩ := hw c List.mem_cons_self
      rw [List.cons_append, scan_plain hq hb,
        scan_run fun d hd => hw d (List.mem_cons_of_mem c hd), List.reverse_cons, List.append_assoc]
      rfl
  · rw [he, List.cons_append, List.append_assoc, scan_open hq, scan_quoted (hno h),
      List.singleton_append, scan_close]

theorem join_cons (w : Text) (ws : List Text) :
    join (w :: ws) = quote w ++ if ws = [] then [] else ' ' :: join ws := by
  unfold join Text.join
  cases ws with
  | nil => simp
  | cons v vs =>
    rw [List.map_cons, List.map_cons, List.intercalate_cons_cons, if_neg (List.cons_ne_nil v vs)]
    simp

theorem scan_tail (r : Text) (ws : List Text) :
    scan none (some r) (if ws = [] then [] else ' ' :: join ws) =
      if ws = [] then some [r.reverse] else (split? (join ws)).map (r.reverse :: ·) := by
  split
  · rfl
  · rw [scan_blank (by decide)]
    rfl

/-- A word without both quotes at the front is read as it was, and the rest as by itself. -/
theorem split_join_cons {w : Text} (h : ¬HoldsBothQuotes w) (ws : List Text) :
    split? (join (w :: ws)) = if ws = [] then some [w] else (split? (join ws)).map (w :: ·) := by
  unfold split?
  rw [join_cons, scan_quote h, Option.getD_none, List.append_nil, scan_tail, List.reverse_reverse]
  rfl

theorem split_join {ws : List Text} (h : ∀ w ∈ ws, ¬HoldsBothQuotes w) :
    split? (join ws) = some ws := by
  induction ws with
  | nil => rfl
  | cons w ws ih =>
    rw [split_join_cons (h w List.mem_cons_self), ih fun v hv => h v (List.mem_cons_of_mem w hv)]
    split
    · next hw => rw [hw]
    · rfl

/-! ## The quotes that a word needs -/

/-- The pairs of quotes that a word needs to be read: one if it is empty or holds a blank, and one
of each kind for quotes of the other kind. -/
def pairs (w : Text) : Nat :=
  max (if quote w = w then 0 else 1) ((if '"' ∈ w then 1 else 0) + if '\'' ∈ w then 1 else 0)

/-- A word is written with a pair of quotes if it needs any, but never with two. -/
theorem length_quote (w : Text) : (quote w).length ≤ w.length + 2 * pairs w ∧
    (HoldsBothQuotes w → (quote w).length < w.length + 2 * pairs w) := by
  unfold pairs HoldsBothQuotes
  rcases quote_eq w with ⟨he, -, hw⟩ | ⟨q, -, he, -⟩
  · rw [he]
    exact ⟨by omega, fun h => absurd (.inl rfl) (hw _ h.1).1⟩
  · have hne : quote w ≠ w := by
      intro h
      have := congrArg List.length (h ▸ he)
      simp at this
      omega
    rw [if_neg hne, he]
    refine ⟨by simp; omega, fun h => ?_⟩
    rw [if_pos h.1, if_pos h.2]
    simp

/-- What the words and the blanks between them need to be read. -/
def weight (ws : List Text) : Nat := (ws.map fun w => w.length + 1 + 2 * pairs w).sum

/-- What stands between quotes in a word whose parts are quoted with single quotes, double quotes or
both: the quotes of the other kind and the blanks. -/
structure Between (single double : Bool) (r : Text) : Prop where
  holdsDouble : '"' ∈ r → single = true
  holdsSingle : '\'' ∈ r → double = true
  holdsBlank : r = [] ∨ (∃ c ∈ r, Text.isBlank c = true) → single = true ∨ double = true

theorem quote_of_plain {w : Text} (hne : w ≠ [])
    (h : ∀ c ∈ w, ¬IsQuote c ∧ Text.isBlank c = false) : quote w = w := by
  unfold quote
  rw [if_neg (by simpa using hne), if_pos]
  rw [Bool.not_eq_true', List.any_eq_false]
  intro c hc
  obtain ⟨hq, hb⟩ := h c hc
  rw [not_or] at hq
  simp [hq.1, hq.2, hb]

namespace Between

variable {single double : Bool} {r : Text}

theorem pairs_le (h : Between single double r) :
    pairs r.reverse ≤ single.toNat + double.toNat := by
  have hd (hm : '"' ∈ r.reverse) : 1 ≤ single.toNat := by
    rw [h.holdsDouble (List.mem_reverse.mp hm)]
    exact Nat.le_refl 1
  have hs (hm : '\'' ∈ r.reverse) : 1 ≤ double.toNat := by
    rw [h.holdsSingle (List.mem_reverse.mp hm)]
    exact Nat.le_refl 1
  have hany (hne : quote r.reverse ≠ r.reverse) : 1 ≤ single.toNat + double.toNat := by
    by_contra hlt
    have hsingle : single ≠ true := by
      rintro rfl
      exact hlt (Nat.le_add_right 1 _)
    have hdouble : double ≠ true := by
      rintro rfl
      exact hlt (Nat.le_add_left 1 _)
    refine hne (quote_of_plain (fun he => ?_) fun c hc => ⟨?_, ?_⟩)
    · exact (h.holdsBlank (.inl (List.reverse_eq_nil_iff.mp he))).elim hsingle hdouble
    · rintro (rfl | rfl)
      · exact hsingle (h.holdsDouble (List.mem_reverse.mp hc))
      · exact hdouble (h.holdsSingle (List.mem_reverse.mp hc))
    · refine Bool.eq_false_iff.mpr fun hb => ?_
      exact (h.holdsBlank (.inr ⟨c, List.mem_reverse.mp hc, hb⟩)).elim hsingle hdouble
  unfold pairs
  refine max_le ?_ (Nat.add_le_add ?_ ?_) <;> split
  · exact Nat.zero_le _
  · next hne => exact hany hne
  · next hm => exact hd hm
  · exact Nat.zero_le _
  · next hm => exact hs hm
  · exact Nat.zero_le _

/-- A character between quotes. -/
theorem inside (h : Between single double r) {q c : Char}
    (hq : q = '\'' ∧ single = true ∨ q = '"' ∧ double = true) (hc : c ≠ q) :
    Between single double (c :: r) := by
  refine ⟨fun hm => ?_, fun hm => ?_, fun _ => hq.imp And.right And.right⟩
  · rcases List.mem_cons.mp hm with rfl | hm
    · exact (hq.resolve_right fun hd => hc hd.1.symm).2
    · exact h.holdsDouble hm
  · rcases List.mem_cons.mp hm with rfl | hm
    · exact (hq.resolve_left fun hs => hc hs.1.symm).2
    · exact h.holdsSingle hm

/-- A character outside quotes. -/
theorem outside (h : r ≠ [] → Between single double r) {c : Char} (hq : ¬IsQuote c)
    (hb : Text.isBlank c = false) : Between single double (c :: r) := by
  have hr {d : Char} (hm : d ∈ r) : Between single double r := h (List.ne_nil_of_mem hm)
  refine ⟨fun hm => ?_, fun hm => ?_, fun hm => ?_⟩
  · rcases List.mem_cons.mp hm with rfl | hm
    · exact absurd (.inl rfl) hq
    · exact (hr hm).holdsDouble hm
  · rcases List.mem_cons.mp hm with rfl | hm
    · exact absurd (.inr rfl) hq
    · exact (hr hm).holdsSingle hm
  · obtain ⟨d, hd, hblank⟩ := hm.resolve_left (List.cons_ne_nil c r)
    rcases List.mem_cons.mp hd with rfl | hd
    · rw [hb] at hblank
      cases hblank
    · exact (hr hd).holdsBlank (.inr ⟨d, hd, hblank⟩)

theorem mono {single' double' : Bool} (h : Between single double r)
    (hs : single = true → single' = true) (hd : double = true → double' = true) :
    Between single' double' r :=
  ⟨fun hm => hs (h.holdsDouble hm), fun hm => hd (h.holdsSingle hm),
    fun hm => (h.holdsBlank hm).imp hs hd⟩

end Between

/-- What the words of a text need is taken from the text: from all of it where no word has begun, and
else from what has been read of the word and from the rest. -/
theorem weight_le (t : Text) :
    (∀ ws, scan none none t = some ws → weight ws ≤ t.length + 1) ∧
    ∀ single double r ws, Between single double r →
      (scan none (some r) t = some ws →
        weight ws ≤ r.length + 1 + 2 * (single.toNat + double.toNat) + t.length) ∧
      ∀ q, (q = '\'' ∧ single = true ∨ q = '"' ∧ double = true) →
        scan (some q) (some r) t = some ws →
          weight ws + 1 ≤ r.length + 1 + 2 * (single.toNat + double.toNat) + t.length := by
  induction t with
  | nil =>
    refine ⟨fun ws h => ?_, fun single double r ws hb => ⟨fun h => ?_, fun q _ h => by cases h⟩⟩
    · cases h
      exact Nat.zero_le _
    · cases h
      have hp := hb.pairs_le
      simp only [weight, finish, List.map_cons, List.map_nil, List.sum_cons, List.sum_nil,
        List.length_reverse, List.length_nil]
      omega
  | cons c t ih =>
    obtain ⟨ih, ihword⟩ := ih
    refine ⟨fun ws h => ?_, fun single double r ws hb => ⟨fun h => ?_, fun q hq h => ?_⟩⟩
    · by_cases hc : IsQuote c
      · rw [scan_open hc] at h
        rcases hc with rfl | rfl
        · have hlen := (ihword false true [] ws ⟨nofun, nofun, fun _ => .inr rfl⟩).2 _
            (.inr ⟨rfl, rfl⟩) h
          simp at hlen ⊢
          omega
        · have hlen := (ihword true false [] ws ⟨nofun, nofun, fun _ => .inl rfl⟩).2 _
            (.inl ⟨rfl, rfl⟩) h
          simp at hlen ⊢
          omega
      · cases hblank : Text.isBlank c with
        | true =>
          rw [scan_blank hblank, Option.map_eq_some_iff] at h
          obtain ⟨rest, hrest, rfl⟩ := h
          have hlen := ih rest hrest
          simp only [finish, List.nil_append, List.length_cons]
          omega
        | false =>
          rw [scan_plain hc hblank] at h
          have hlen := (ihword false false [c] ws
            (Between.outside (fun hne => absurd rfl hne) hc hblank)).1 h
          simp at hlen ⊢
          omega
    · by_cases hc : IsQuote c
      · rw [scan_open hc] at h
        rcases hc with rfl | rfl
        · have hlen := (ihword single true r ws (hb.mono id fun _ => rfl)).2 _ (.inr ⟨rfl, rfl⟩) h
          simp at hlen ⊢
          omega
        · have hlen := (ihword true double r ws (hb.mono (fun _ => rfl) id)).2 _ (.inl ⟨rfl, rfl⟩) h
          simp at hlen ⊢
          omega
      · cases hblank : Text.isBlank c with
        | true =>
          rw [scan_blank hblank, Option.map_eq_some_iff] at h
          obtain ⟨rest, hrest, rfl⟩ := h
          have hlen := ih rest hrest
          have hp := hb.pairs_le
          simp only [weight, finish, List.singleton_append, List.map_cons, List.sum_cons,
            List.length_reverse, List.length_cons] at hlen ⊢
          omega
        | false =>
          rw [scan_plain hc hblank] at h
          have hlen := (ihword single double (c :: r) ws
            (Between.outside (fun _ => hb) hc hblank)).1 h
          simp at hlen ⊢
          omega
    · by_cases hc : c = q
      · subst hc
        rw [scan_close] at h
        have hlen := (ihword single double r ws hb).1 h
        rw [List.length_cons]
        omega
      · rw [scan_inside hc] at h
        have hlen := (ihword single double (c :: r) ws (hb.inside hq hc)).2 q hq h
        simp at hlen ⊢
        omega

/-! ## Words with both quotes -/

theorem length_join {ws : List Text} (hne : ws ≠ []) :
    (Text.join [' '] ws).length + 1 = (ws.map fun w => w.length + 1).sum := Text.length_join [' '] hne

theorem weight_le_of_subperm {ws vs : List Text} (h : ws.Subperm vs) : weight ws ≤ weight vs := by
  obtain ⟨l, hp, hs⟩ := h
  have hl : weight ws = weight l := (hp.map _).sum_nat.symm
  rw [hl]
  exact (hs.map _).sum_le_sum fun _ _ => Nat.zero_le _

/-- The words of a list hold one kind of quote at most if all of them are among the words that are
read where the list is written. -/
theorem single_of_subperm {ws vs : List Text} (h : split? (join ws) = some vs)
    (hs : ws.Subperm vs) : ∀ w ∈ ws, ¬HoldsBothQuotes w := by
  intro w hw hboth
  have hread : weight vs ≤ (join ws).length + 1 := (weight_le (join ws)).1 vs h
  have hwritten : (join ws).length + 1 < weight ws := by
    rw [join, length_join (by simpa using List.ne_nil_of_mem hw), List.map_map]
    refine List.sum_lt_sum _ _ (fun v _ => ?_) ⟨w, hw, ?_⟩
    · have := (length_quote v).1
      dsimp only [Function.comp_apply]
      omega
    · have := (length_quote w).2 hboth
      dsimp only [Function.comp_apply]
      omega
  have := weight_le_of_subperm hs
  omega

/-- A list of words is read as it was written if and only if none of them holds both quotes. -/
theorem split_join_iff {ws : List Text} :
    split? (join ws) = some ws ↔ ∀ w ∈ ws, ¬HoldsBothQuotes w :=
  ⟨fun h => single_of_subperm h (List.Subperm.refl ws), split_join⟩

/-- The list that words were written from is read where they stand, if and only if none of the words
holds both quotes. Words may be empty, and hold blanks, backslashes and one kind of quote. -/
theorem reads_written_words (ws : List Text) :
    split (join ws) = .ok ws ↔ ∀ w ∈ ws, ¬HoldsBothQuotes w :=
  split_ok_iff.trans split_join_iff

example : split (join [[], "it's".toList, "\\ #a=".toList, "\"\t".toList, "\u3000".toList]) =
    .ok [[], "it's".toList, "\\ #a=".toList, "\"\t".toList, "\u3000".toList] := by decide

/-- A word that is being read is one of the words. -/
theorem ne_nil_of_scan {q : Option Char} {r t : Text} {ws : List Text}
    (h : scan q (some r) t = some ws) : ws ≠ [] := by
  induction t generalizing q r with
  | nil =>
    cases q with
    | some q => cases h
    | none =>
      cases h
      exact List.cons_ne_nil _ _
  | cons c t ih =>
    cases q with
    | some q =>
      by_cases hc : c = q
      · subst hc
        rw [scan_close] at h
        exact ih h
      · rw [scan_inside hc] at h
        exact ih h
    | none =>
      by_cases hq : IsQuote c
      · rw [scan_open hq] at h
        exact ih h
      · cases hb : Text.isBlank c with
        | true =>
          rw [scan_blank hb, Option.map_eq_some_iff] at h
          obtain ⟨rest, -, rfl⟩ := h
          exact List.cons_ne_nil _ _
        | false =>
          rw [scan_plain hq hb] at h
          exact ih h

/-- At least one word is read where a word is written. -/
theorem ne_nil_of_split_quote {w : Text} {ws : List Text} (h : split? (quote w) = some ws) :
    ws ≠ [] := by
  unfold split? at h
  rcases quote_eq w with ⟨he, hne, hw⟩ | ⟨q, hq, he, -⟩
  · rw [he] at h
    cases w with
    | nil => exact absurd rfl hne
    | cons c w =>
      obtain ⟨hq, hb⟩ := hw c List.mem_cons_self
      rw [scan_plain hq hb] at h
      exact ne_nil_of_scan h
  · rw [he, scan_open hq] at h
    exact ne_nil_of_scan h

end Words

end ConversationFlow
