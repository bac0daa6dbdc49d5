import ConversationFlow.Proofs.Value.Pieces

/-!
# Numbers that are written and read again

Counts are read as they were written. So are durations, whose seconds always fit in a word of
64 bits; and no two durations of whole milliseconds are written in the same way. Nothing is said about the value of
a written fraction: whether it is read as the same number depends on binary rounding.
-/

namespace ConversationFlow

/-! ## Digits -/

namespace Text

theorem isDigit_of_mem_ofNat {n : Nat} {c : Char} (h : c ∈ ofNat n) : isDigit c = true := by
  have hd := Nat.isDigit_of_mem_toDigits (by decide) (by decide) h
  rw [Char.isDigit, Bool.and_eq_true, decide_eq_true_eq, decide_eq_true_eq] at hd
  rw [isDigit, Bool.and_eq_true, decide_eq_true_eq, decide_eq_true_eq]
  exact hd

theorem ofNat_ne_nil (n : Nat) : ofNat n ≠ [] := Nat.toDigits_ne_nil

theorem isBlank_of_isDigit {c : Char} (h : isDigit c = true) : isBlank c = false := by
  unfold isDigit at h
  unfold isBlank
  simp only [Bool.and_eq_true, decide_eq_true_eq, Char.le_def, UInt32.le_iff_toNat_le] at h
  have h1 : 48 ≤ c.toNat := h.1
  have h2 : c.toNat ≤ 57 := h.2
  simp
  omega

theorem isValue_ofNat (n : Nat) : IsValue (ofNat n) :=
  isValue_of_noBlank (ofNat_ne_nil n) fun _ hc => isBlank_of_isDigit (isDigit_of_mem_ofNat hc)

/-- A number is read from a run of digits, by their places. -/
theorem toNat_eq_some_iff {t : Text} {n : Nat} :
    toNat? t = some n ↔ t ≠ [] ∧ (∀ c ∈ t, isDigit c = true) ∧ Nat.ofDigitChars 10 t 0 = n := by
  unfold toNat?
  split
  · next h =>
    rw [Bool.or_eq_true, List.isEmpty_iff, Bool.not_eq_true'] at h
    refine iff_of_false nofun fun ⟨hne, hall, _⟩ => ?_
    rcases h with h | h
    · exact hne h
    · rw [List.all_eq_true.mpr hall] at h
      cases h
  · next h =>
    rw [Bool.or_eq_true, not_or, List.isEmpty_iff, Bool.not_eq_true', Bool.not_eq_false,
      List.all_eq_true] at h
    rw [Option.some_inj]
    exact ⟨fun hn => ⟨h.1, h.2, hn⟩, fun hn => hn.2.2⟩

theorem toNat_ofNat (n : Nat) : toNat? (ofNat n) = some n :=
  toNat_eq_some_iff.mpr
    ⟨ofNat_ne_nil n, fun _ => isDigit_of_mem_ofNat, Nat.ofDigitChars_ten_toDigits⟩

theorem ofNat_injective : Function.Injective ofNat := fun m n h =>
  Option.some.inj (by rw [← toNat_ofNat m, h, toNat_ofNat])

/-- A number ends where its digits do. -/
theorem ofNat_append_inj {m n : Nat} {u v : Text} (hu : ∀ c ∈ u.head?, isDigit c = false)
    (hv : ∀ c ∈ v.head?, isDigit c = false) (h : ofNat m ++ u = ofNat n ++ v) : m = n ∧ u = v := by
  obtain ⟨hm, hu⟩ := span_append (fun _ => isDigit_of_mem_ofNat (n := m)) hu
  obtain ⟨hn, hv⟩ := span_append (fun _ => isDigit_of_mem_ofNat (n := n)) hv
  rw [h] at hm hu
  exact ⟨ofNat_injective (hm.symm.trans hn), hu.symm.trans hv⟩

/-- A larger number has no fewer digits. -/
theorem length_ofNat_mono {m n : Nat} (h : m ≤ n) : (ofNat m).length ≤ (ofNat n).length := by
  have hpos : 0 < (ofNat n).length := List.length_pos_iff.mpr (ofNat_ne_nil n)
  have hn : n < 10 ^ (ofNat n).length := (Nat.length_toDigits_le_iff (by decide) hpos).mp le_rfl
  exact (Nat.length_toDigits_le_iff (by decide) hpos).mpr (h.trans_lt hn)

/-- ASCII characters but upper-case letters have no other lower-case form. -/
theorem lower_eq_self {t : Text} (h : ∀ c ∈ t, c.toNat < 128 ∧ isUpperLetter c = false) :
    lower t = t := by
  have hgo (before : Text) : lower.go before t = t := by
    induction t generalizing before with
    | nil => rfl
    | cons c t ih =>
      obtain ⟨hlt, hu⟩ := h c List.mem_cons_self
      have hc : c ≠ 'Σ' := by
        rintro rfl
        exact absurd hlt (by decide)
      rw [lower.go, if_neg hc, lowerChar, if_pos hlt, if_neg (by rw [hu]; exact nofun),
        ih fun d hd => h d (List.mem_cons_of_mem c hd)]
      rfl
  exact hgo []

theorem isDigit_range {c : Char} (h : isDigit c = true) :
    c.toNat < 128 ∧ isUpperLetter c = false := by
  unfold isDigit at h
  simp only [Bool.and_eq_true, decide_eq_true_eq, Char.le_def, UInt32.le_iff_toNat_le] at h
  have h2 : c.toNat ≤ 57 := h.2
  refine ⟨by omega, ?_⟩
  rw [isUpperLetter, Bool.and_eq_false_iff, decide_eq_false_iff_not]
  left
  intro hu
  simp only [Char.le_def, UInt32.le_iff_toNat_le] at hu
  have h3 : 65 ≤ c.toNat := hu
  omega

end Text

/-! ## Counts -/

theorem Count.ofText_ofNat {n : Nat} (h : n < wordSize 32) :
    Count.ofText? (Text.ofNat n) = some n := by
  have hsign (t : Text) : Text.ofNat n ≠ '+' :: t := by
    intro ht
    have hd := Text.isDigit_of_mem_ofNat (n := n) (c := '+') (by rw [ht]; exact List.mem_cons_self)
    exact absurd hd (by decide)
  unfold Count.ofText?
  split
  · next t ht => exact absurd ht (hsign t)
  · rw [Text.toNat_ofNat, Option.filter_some, if_pos (by simpa using h)]

theorem Count.read_ofNat {n : Nat} (h : n < wordSize 32) : Count.read (Text.ofNat n) = .ok n := by
  unfold Count.read
  rw [(Text.isValue_ofNat n).trimmed, Count.ofText_ofNat h]

theorem Count.lt_of_read {v : Text} {n : Nat} (h : Count.read v = .ok n) : n < wordSize 32 := by
  unfold Count.read Count.ofText? at h
  split at h
  · next m hm =>
    cases h
    simpa using (Option.mem_filter_iff.mp hm).2
  · cases h

/-! ## Durations -/

namespace Duration

/-- A duration as directives give it: a word of seconds or of milliseconds. -/
def IsWhole (d : Duration) : Prop :=
  ∃ n, d = ofMillis n ∧ (n % 1000 = 0 ∧ n / 1000 < wordSize 64 ∨ n < wordSize 64)

theorem ofSeconds_eq (n : Nat) : ofSeconds n = ofMillis (n * 1000) :=
  congrArg Duration.mk (by omega)

theorem isWhole_ofSeconds {n : Nat} (h : n < wordSize 64) : IsWhole (ofSeconds n) := by
  refine ⟨n * 1000, ofSeconds_eq n, .inl ⟨Nat.mul_mod_left n 1000, ?_⟩⟩
  rwa [Nat.mul_div_cancel n (by decide)]

theorem isWhole_of_read {v : Text} {d : Duration} (h : read v = .ok d) : d.IsWhole := by
  unfold read at h
  dsimp only at h
  split at h
  · split at h
    · next n _ hn =>
      have hword (k : Nat) : k % wordSize 64 < wordSize 64 := Nat.mod_lt k (by decide)
      unfold ofUnit at h
      split at h
      · cases h
        exact isWhole_ofSeconds hn
      · split at h
        · cases h
          exact ⟨n, rfl, .inr hn⟩
        · split at h
          · cases h
            exact isWhole_ofSeconds (hword _)
          · split at h
            · cases h
              exact isWhole_ofSeconds (hword _)
            · cases h
    · cases h
  · cases h

/-- A unit that durations are written in. -/
def IsWritten (unit : Text) : Prop := unit = ['s'] ∨ unit = ['m', 's']

theorem IsWritten.head_not_digit {unit : Text} (hu : IsWritten unit) :
    ∀ c ∈ unit.head?, Text.isDigit c = false := by
  rcases hu with rfl | rfl <;> (intro c hc; cases hc; decide)

theorem isValue_number (n : Nat) {unit : Text} (hu : IsWritten unit) :
    Text.IsValue (Text.ofNat n ++ unit) := by
  refine Text.isValue_of_noBlank (by simp [Text.ofNat_ne_nil]) fun c hc => ?_
  rcases List.mem_append.mp hc with hc | hc
  · exact Text.isBlank_of_isDigit (Text.isDigit_of_mem_ofNat hc)
  · rcases hu with rfl | rfl
    · rw [List.mem_singleton.mp hc]
      decide
    · simp only [List.mem_cons, List.not_mem_nil, or_false] at hc
      rcases hc with rfl | rfl <;> decide

theorem read_number (n : Nat) {unit : Text} (hu : IsWritten unit) :
    read (Text.ofNat n ++ unit) =
      if n < wordSize 64 then ofUnit n unit else .error .durationExpected := by
  have hdigit : ∀ c ∈ Text.ofNat n, Text.isDigit c = true := fun _ => Text.isDigit_of_mem_ofNat
  have hlower : Text.lower (Text.ofNat n ++ unit) = Text.ofNat n ++ unit := by
    refine Text.lower_eq_self fun c hc => ?_
    rcases List.mem_append.mp hc with hc | hc
    · exact Text.isDigit_range (hdigit c hc)
    · rcases hu with rfl | rfl
      · rw [List.mem_singleton.mp hc]
        decide
      · simp only [List.mem_cons, List.not_mem_nil, or_false] at hc
        rcases hc with rfl | rfl <;> decide
  have htrim : Text.trim unit = unit := by
    rcases hu with rfl | rfl <;> decide
  obtain ⟨htake, hdrop⟩ := Text.span_append hdigit hu.head_not_digit
  unfold read
  rw [(isValue_number n hu).trimmed, hlower]
  dsimp only
  rw [htake, hdrop, Text.toNat_ofNat, htrim]

theorem isWritten_seconds : IsWritten ['s'] := .inl rfl

theorem isWritten_millis : IsWritten ['m', 's'] := .inr rfl

theorem text_eq (d : Duration) : d.text =
    if d.millis % 1000 ≠ 0 ∨ d.seconds = 0 then Text.ofNat d.millis ++ ['m', 's']
    else Text.ofNat d.seconds ++ ['s'] := rfl

theorem isValue_text (d : Duration) : Text.IsValue d.text := by
  rw [text_eq]
  split
  · exact isValue_number _ isWritten_millis
  · exact isValue_number _ isWritten_seconds

theorem ofUnit_seconds (n : Nat) : ofUnit n ['s'] = .ok (ofSeconds n) := rfl

theorem ofUnit_millis (n : Nat) : ofUnit n ['m', 's'] = .ok (ofMillis n) := rfl

theorem millis_ofMillis (n : Nat) : (ofMillis n).millis = n := by
  unfold millis ofMillis
  dsimp only
  omega

theorem seconds_eq (d : Duration) : d.seconds = d.millis / 1000 :=
  (Nat.div_div_eq_div_mul d.nanos 1000000 1000).symm

theorem IsWhole.seconds_lt {d : Duration} (h : d.IsWhole) : d.seconds < wordSize 64 := by
  obtain ⟨n, rfl, hn⟩ := h
  rw [seconds_eq, millis_ofMillis]
  rcases hn with ⟨-, hn⟩ | hn
  · exact hn
  · omega

/-- A duration is read as it was written. -/
theorem read_text {d : Duration} (h : d.IsWhole) : read d.text = .ok d := by
  have hseconds := h.seconds_lt
  obtain ⟨n, rfl, hn⟩ := h
  have hword : 1000 ≤ wordSize 64 := by decide
  rw [seconds_eq, millis_ofMillis] at hseconds
  rw [text_eq, seconds_eq, millis_ofMillis]
  split
  · next hms =>
    have hlt : n < wordSize 64 := by omega
    rw [read_number n isWritten_millis, if_pos hlt, ofUnit_millis]
  · next hms =>
    have hsame : ofSeconds (n / 1000) = ofMillis n := by
      rw [ofSeconds_eq]
      exact congrArg ofMillis (by omega)
    rw [read_number _ isWritten_seconds, if_pos hseconds, ofUnit_seconds, hsame]

/-- What is read where a duration is written. -/
def reread (d : Duration) : Option Duration := (read d.text).toOption

theorem reread_eq {d : Duration} (h : d.IsWhole) : d.reread = some d :=
  congrArg Except.toOption (read_text h)

/-- Milliseconds are what the text of a duration tells. -/
theorem text_eq_iff {d e : Duration} : d.text = e.text ↔ d.millis = e.millis := by
  constructor
  · intro h
    have hms := isWritten_millis.head_not_digit
    have hs := isWritten_seconds.head_not_digit
    rw [text_eq, text_eq, seconds_eq, seconds_eq] at h
    split at h <;> split at h
    · exact (Text.ofNat_append_inj hms hms h).1
    · cases (Text.ofNat_append_inj hms hs h).2
    · cases (Text.ofNat_append_inj hs hms h).2
    · have := (Text.ofNat_append_inj hs hs h).1
      omega
  · intro h
    rw [text_eq, text_eq, seconds_eq, seconds_eq, h]

/-- Every duration that is read has seconds that fit in a word and is read again from its text, and
texts of whole milliseconds are equal for equal durations only. -/
theorem text_keeps_duration :
    (∀ value d, read value = .ok d → d.seconds < wordSize 64 ∧ read d.text = .ok d) ∧
      ∀ d e : Duration, d.nanos % 1000000 = 0 → e.nanos % 1000000 = 0 →
        (d.text = e.text ↔ d = e) := by
  refine ⟨fun value d h => ?_, fun d e hd he => ?_⟩
  · have hwhole := isWhole_of_read h
    exact ⟨hwhole.seconds_lt, read_text hwhole⟩
  have hinj : d.millis = e.millis → d = e := by
    obtain ⟨m⟩ := d
    obtain ⟨n⟩ := e
    intro h
    exact congrArg Duration.mk ((Nat.div_left_inj (Nat.dvd_of_mod_eq_zero hd)
      (Nat.dvd_of_mod_eq_zero he)).mp h)
  exact text_eq_iff.trans ⟨hinj, congrArg millis⟩

/-- Two minutes are read again from their seconds, and a millisecond more has another text. -/
theorem two_minutes_are_reread :
    read " 2M ".toList = .ok (ofSeconds 120) ∧
      read (ofSeconds 120).text = .ok (ofSeconds 120) ∧
      (ofSeconds 120).text ≠ (ofMillis 120001).text := by
  have hread : read " 2M ".toList = .ok (ofSeconds 120) := rfl
  refine ⟨hread, (text_keeps_duration.1 _ _ hread).2, fun h => ?_⟩
  exact absurd ((text_keeps_duration.2 _ _ rfl rfl).mp h) (by decide)

end Duration

/-! ## Decimals -/

namespace Decimal

theorem isBlank_of_mem_positional {d : Scientific} {c : Char} (h : c ∈ d.positional) :
    Text.isBlank c = false ∧ c ≠ '%' := by
  have hdigit {c : Char} (h : c ∈ Text.ofNat d.digits) : Text.isBlank c = false ∧ c ≠ '%' := by
    have hd := Text.isDigit_of_mem_ofNat h
    refine ⟨Text.isBlank_of_isDigit hd, ?_⟩
    rintro rfl
    exact absurd hd (by decide)
  have hzero {c : Char} {n : Nat} (h : c ∈ List.replicate n '0') :
      Text.isBlank c = false ∧ c ≠ '%' := by
    rw [List.eq_of_mem_replicate h]
    decide
  unfold Scientific.positional at h
  dsimp only at h
  split at h
  · exact (List.mem_append.mp h).elim hdigit hzero
  · split at h
    · rcases List.mem_append.mp h with h | h
      · exact hdigit (List.mem_of_mem_take h)
      · rcases List.mem_cons.mp h with rfl | h
        · decide
        · exact hdigit (List.mem_of_mem_drop h)
    · rcases List.mem_cons.mp h with rfl | h
      · decide
      · rcases List.mem_cons.mp h with rfl | h
        · decide
        · exact (List.mem_append.mp h).elim hzero hdigit

theorem length_pos_positional (d : Scientific) : d.positional ≠ [] := by
  unfold Scientific.positional
  dsimp only
  split
  · simp [Text.ofNat_ne_nil]
  · split <;> simp

theorem isBlank_of_mem_ofFloat {x : Float} {c : Char} (h : c ∈ ofFloat x) :
    Text.isBlank c = false ∧ c ≠ '%' := by
  have hsign {b : Prop} [Decidable b] {c : Char} (h : c ∈ (if b then "-" else "" : Text)) :
      Text.isBlank c = false ∧ c ≠ '%' := by
    split at h
    · obtain rfl : c = '-' := List.mem_singleton.mp h
      decide
    · cases h
  unfold ofFloat at h
  split at h
  · obtain rfl | rfl | rfl : c = 'N' ∨ c = 'a' ∨ c = 'N' := by
      simpa using show c ∈ ['N', 'a', 'N'] from h
    all_goals decide
  · dsimp only at h
    split at h
    · rcases List.mem_append.mp h with h | h
      · exact hsign h
      · obtain rfl | rfl | rfl : c = 'i' ∨ c = 'n' ∨ c = 'f' := by
          simpa using show c ∈ ['i', 'n', 'f'] from h
        all_goals decide
    · split at h
      · rcases List.mem_append.mp h with h | h
        · exact hsign h
        · obtain rfl : c = '0' := List.mem_singleton.mp h
          decide
      · exact (List.mem_append.mp h).elim hsign isBlank_of_mem_positional

theorem ofFloat_ne_nil (x : Float) : ofFloat x ≠ [] := by
  unfold ofFloat
  split
  · exact List.cons_ne_nil _ _
  · dsimp only
    split
    · exact List.append_ne_nil_of_right_ne_nil _ (List.cons_ne_nil _ _)
    · split
      · exact List.append_ne_nil_of_right_ne_nil _ (List.cons_ne_nil _ _)
      · exact List.append_ne_nil_of_right_ne_nil _ (length_pos_positional _)

end Decimal

theorem Text.isBlank_of_mem_ofInt {n : Int} {c : Char} (h : c ∈ ofInt n) : isBlank c = false := by
  cases n with
  | ofNat n => exact isBlank_of_isDigit (isDigit_of_mem_ofNat h)
  | negSucc n =>
    rcases List.mem_cons.mp h with rfl | h
    · decide
    · exact isBlank_of_isDigit (isDigit_of_mem_ofNat h)

/-- A fraction is written as a value on one line. -/
theorem Percent.isValue_text (x : Float) : Text.IsValue (Percent.text x) := by
  have hsign : ∀ c ∈ (['%'] : Text), Text.isBlank c = false :=
    fun c hc => by rw [List.mem_singleton.mp hc]; rfl
  unfold Percent.text
  dsimp only
  split
  · refine Text.isValue_of_noBlank (List.append_ne_nil_of_right_ne_nil _ (List.cons_ne_nil _ _))
      fun c hc => ?_
    exact (List.mem_append.mp hc).elim Text.isBlank_of_mem_ofInt (hsign c)
  · refine Text.isValue_of_noBlank (List.append_ne_nil_of_right_ne_nil _ (List.cons_ne_nil _ _))
      fun c hc => ?_
    exact (List.mem_append.mp hc).elim (fun h => (Decimal.isBlank_of_mem_ofFloat h).1) (hsign c)

/-- What is read where a fraction is written. -/
def Percent.reread (x : Float) : Option Float := (Percent.read (Percent.text x)).toOption

end ConversationFlow
