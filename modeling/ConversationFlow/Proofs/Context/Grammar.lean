import ConversationFlow.Context.Reference
import ConversationFlow.Proofs.Compilation.Instructions
import ConversationFlow.Proofs.Value.Checks

/-!
# The grammar of references

`Reference.Names` tells, without the reader, what a text names: a path, alone or with a range of
lines behind a `#`, whose numbers are written in ASCII digits, begin at 1 and do not go down. The
reader takes these texts and no others. It looks for the shape of a range first, with digits of any
script (`RangeText.Shapes`), and reads the numbers of that shape; which of its errors another text
gives is not said here. What was read is written in one form, which is read as the same again.
-/

namespace ConversationFlow

theorem Text.isDecimalDigit_of_isDigit {c : Char} (h : isDigit c = true) :
    isDecimalDigit c = true := by
  unfold isDecimalDigit
  rw [if_pos (isDigit_range h).1, h]

namespace Reference

/-! ## The shape of a range -/

/-- Digits of any script, one at least. -/
structure AreDigits (t : Text) : Prop where
  nonempty : t ≠ []
  all : ∀ c ∈ t, Text.isDecimalDigit c = true

/-- What is left of a range when its numbers are not read. -/
inductive RangeText.Shapes : RangeText → Text → Prop where
  | single {f : Text} (first : AreDigits f) : Shapes (.single f) ('L' :: f)
  | openEnd {f : Text} (first : AreDigits f) : Shapes (.openEnd f) ('L' :: (f ++ ['-']))
  | closed {f l : Text} (first : AreDigits f) (last : AreDigits l) :
      Shapes (.closed f l) ('L' :: (f ++ '-' :: l))
  | marked {f l : Text} (first : AreDigits f) (last : AreDigits l) :
      Shapes (.closed f l) ('L' :: (f ++ '-' :: 'L' :: l))

namespace RangeText

theorem closed_of_digits {f l : Text} {r : RangeText}
    (h : (if !l.isEmpty && l.all Text.isDecimalDigit then some (closed f l) else none) = some r) :
    r = closed f l ∧ AreDigits l := by
  split at h
  · next hl =>
    rw [Bool.and_eq_true, Bool.not_eq_true', List.all_eq_true] at hl
    exact ⟨(Option.some.inj h).symm, ⟨by simpa using hl.1, hl.2⟩⟩
  · cases h

theorem shapes_of_read {t : Text} {r : RangeText} (h : read? t = some r) : r.Shapes t := by
  unfold read? at h
  split at h
  · next rest =>
    dsimp only at h
    have hsplit := List.takeWhile_append_dropWhile (p := Text.isDecimalDigit) (l := rest)
    have hall : ∀ c ∈ rest.takeWhile Text.isDecimalDigit, Text.isDecimalDigit c = true :=
      fun c => List.mem_takeWhile_imp
    generalize rest.takeWhile Text.isDecimalDigit = f,
      rest.dropWhile Text.isDecimalDigit = s at h hsplit hall
    subst hsplit
    split at h
    · cases h
    · next hne =>
      have first : AreDigits f := ⟨by simpa using hne, hall⟩
      split at h
      · cases h
        rw [List.append_nil]
        exact .single first
      · cases h
        exact .openEnd first
      · split at h
        · obtain ⟨rfl, last⟩ := closed_of_digits h
          exact .marked first last
        · obtain ⟨rfl, last⟩ := closed_of_digits h
          exact .closed first last
      · cases h
  · cases h

theorem read_of_shapes {t : Text} {r : RangeText} (h : r.Shapes t) : read? t = some r := by
  -- The first number ends at the dash, or with the text.
  have hspan {f : Text} (first : AreDigits f) (more : Text) :
      (f ++ '-' :: more).takeWhile Text.isDecimalDigit = f ∧
        (f ++ '-' :: more).dropWhile Text.isDecimalDigit = '-' :: more :=
    Text.span_append first.all fun c hc => by
      obtain rfl : '-' = c := Option.some.inj hc
      rfl
  have hsome {f : Text} (first : AreDigits f) : ¬f.isEmpty = true := by simpa using first.nonempty
  have hlast {l : Text} (last : AreDigits l) :
      (!l.isEmpty && l.all Text.isDecimalDigit) = true := by
    rw [Bool.and_eq_true, Bool.not_eq_true', List.all_eq_true]
    exact ⟨by simpa using last.nonempty, last.all⟩
  cases h with
  | @single f first =>
    have hend : ∀ c ∈ ([] : Text).head?, Text.isDecimalDigit c = false := nofun
    obtain ⟨htake, hdrop⟩ := Text.span_append first.all hend
    rw [List.append_nil] at htake hdrop
    rw [read?]
    dsimp only
    rw [htake, hdrop, if_neg (hsome first)]
  | openEnd first =>
    rw [read?]
    dsimp only
    rw [(hspan first []).1, (hspan first []).2, if_neg (hsome first)]
    rfl
  | @closed f l first last =>
    obtain ⟨c, l, rfl⟩ := List.exists_cons_of_ne_nil last.nonempty
    rw [read?]
    dsimp only
    rw [(hspan first (c :: l)).1, (hspan first (c :: l)).2, if_neg (hsome first)]
    split
    · next he => cases he
    · next he => cases he
    · next he =>
      obtain rfl := (List.cons.inj he).2
      split
      · next he =>
        -- The mark is no digit.
        obtain rfl := (List.cons.inj he).1
        exact absurd (last.all 'L' List.mem_cons_self) (by decide)
      · exact if_pos (hlast last)
    · next hno => exact absurd rfl (hno (c :: l))
  | @marked f l first last =>
    rw [read?]
    dsimp only
    rw [(hspan first ('L' :: l)).1, (hspan first ('L' :: l)).2, if_neg (hsome first)]
    exact if_pos (hlast last)

end RangeText

/-! ## Ranges -/

/-- The text is a number in ASCII digits that fits in a word. -/
structure IsNumeral (t : Text) (n : Nat) : Prop where
  nonempty : t ≠ []
  digits : ∀ c ∈ t, Text.isDigit c = true
  value : Nat.ofDigitChars 10 t 0 = n
  fits : n < wordSize 64

/-- The text is a range of lines from a first one, counted from 1, to a last one or to the end. -/
inductive IsRange : Text → Nat → Option Nat → Prop where
  | line {f : Text} {n : Nat} (first : IsNumeral f n) (pos : 1 ≤ n) : IsRange ('L' :: f) n (some n)
  | openEnd {f : Text} {n : Nat} (first : IsNumeral f n) (pos : 1 ≤ n) :
      IsRange ('L' :: (f ++ ['-'])) n none
  | closed {f l : Text} {n m : Nat} (first : IsNumeral f n) (pos : 1 ≤ n) (last : IsNumeral l m)
      (ordered : n ≤ m) : IsRange ('L' :: (f ++ '-' :: l)) n (some m)
  | marked {f l : Text} {n m : Nat} (first : IsNumeral f n) (pos : 1 ≤ n) (last : IsNumeral l m)
      (ordered : n ≤ m) : IsRange ('L' :: (f ++ '-' :: 'L' :: l)) n (some m)

theorem IsNumeral.areDigits {t : Text} {n : Nat} (h : IsNumeral t n) : AreDigits t :=
  ⟨h.nonempty, fun c hc => Text.isDecimalDigit_of_isDigit (h.digits c hc)⟩

theorem isNumeral_ofNat {n : Nat} (h : n < wordSize 64) : IsNumeral (Text.ofNat n) n :=
  ⟨Text.ofNat_ne_nil n, fun _ => Text.isDigit_of_mem_ofNat, Nat.ofDigitChars_ten_toDigits, h⟩

theorem lineNumber_eq_ok_iff {t : Text} {n : Nat} : lineNumber t = .ok n ↔ IsNumeral t n := by
  constructor
  · intro h
    unfold lineNumber at h
    split at h
    · next hn =>
      obtain ⟨hne, hall, hvalue⟩ := Text.toNat_eq_some_iff.mp hn
      split at h
      · next hfits =>
        cases h
        exact ⟨hne, hall, hvalue, hfits⟩
      · cases h
    · cases h
  · intro h
    have hn := Text.toNat_eq_some_iff.mpr ⟨h.nonempty, h.digits, h.value⟩
    unfold lineNumber
    rw [hn]
    exact if_pos h.fits

theorem firstLine_eq_ok_iff {t : Text} {n : Nat} :
    firstLine t = .ok n ↔ IsNumeral t n ∧ 1 ≤ n := by
  rw [← lineNumber_eq_ok_iff]
  unfold firstLine
  constructor
  · intro h
    obtain ⟨m, hm, h⟩ := exists_of_bind_ok h
    split at h
    · cases h
    · next hne =>
      cases h
      exact ⟨hm, Nat.one_le_iff_ne_zero.mpr hne⟩
  · rintro ⟨hm, hpos⟩
    rw [hm]
    exact if_neg (Nat.one_le_iff_ne_zero.mp hpos)

theorem isRange_of_range {t : Text} {n : Nat} {m : Option Nat} (h : range t = .ok (n, m)) :
    IsRange t n m := by
  unfold range at h
  split at h
  · cases h
  · next hr =>
    obtain ⟨k, hk, h⟩ := exists_of_bind_ok h
    obtain ⟨first, pos⟩ := firstLine_eq_ok_iff.mp hk
    cases h
    cases RangeText.shapes_of_read hr with
    | single => exact .line first pos
  · next hr =>
    obtain ⟨k, hk, h⟩ := exists_of_bind_ok h
    obtain ⟨first, pos⟩ := firstLine_eq_ok_iff.mp hk
    cases h
    cases RangeText.shapes_of_read hr with
    | openEnd => exact .openEnd first pos
  · next hr =>
    obtain ⟨k, hk, h⟩ := exists_of_bind_ok h
    obtain ⟨first, pos⟩ := firstLine_eq_ok_iff.mp hk
    obtain ⟨j, hj, h⟩ := exists_of_bind_ok h
    have last := lineNumber_eq_ok_iff.mp hj
    split at h
    · cases h
    · next ordered =>
      cases h
      cases RangeText.shapes_of_read hr with
      | closed => exact .closed first pos last (Nat.not_lt.mp ordered)
      | marked => exact .marked first pos last (Nat.not_lt.mp ordered)

theorem range_of_isRange {t : Text} {n : Nat} {m : Option Nat} (h : IsRange t n m) :
    range t = .ok (n, m) := by
  have closed {t f l : Text} {n m : Nat} (hr : RangeText.read? t = some (.closed f l))
      (first : IsNumeral f n) (pos : 1 ≤ n) (last : IsNumeral l m) (ordered : n ≤ m) :
      range t = .ok (n, some m) := by
    unfold range
    rw [hr]
    dsimp only
    rw [firstLine_eq_ok_iff.mpr ⟨first, pos⟩, lineNumber_eq_ok_iff.mpr last]
    exact if_neg (Nat.not_lt.mpr ordered)
  cases h with
  | line first pos =>
    unfold range
    rw [RangeText.read_of_shapes (.single first.areDigits)]
    dsimp only
    rw [firstLine_eq_ok_iff.mpr ⟨first, pos⟩]
    rfl
  | openEnd first pos =>
    unfold range
    rw [RangeText.read_of_shapes (.openEnd first.areDigits)]
    dsimp only
    rw [firstLine_eq_ok_iff.mpr ⟨first, pos⟩]
    rfl
  | closed first pos last ordered =>
    exact closed (RangeText.read_of_shapes (.closed first.areDigits last.areDigits)) first pos last
      ordered
  | marked first pos last ordered =>
    exact closed (RangeText.read_of_shapes (.marked first.areDigits last.areDigits)) first pos last
      ordered

theorem IsNumeral.noBlank {t : Text} {n : Nat} (h : IsNumeral t n) :
    ∀ c ∈ t, Text.isBlank c = false := fun c hc => Text.isBlank_of_isDigit (h.digits c hc)

/-- A range holds no blanks. -/
theorem IsRange.noBlank {t : Text} {n : Nat} {m : Option Nat} (h : IsRange t n m) :
    ∀ c ∈ t, Text.isBlank c = false := by
  have hmark : Text.isBlank 'L' = false := by decide
  have hdash : Text.isBlank '-' = false := by decide
  cases h with
  | line first => exact List.forall_mem_cons.mpr ⟨hmark, first.noBlank⟩
  | openEnd first =>
    exact List.forall_mem_cons.mpr ⟨hmark,
      List.forall_mem_append.mpr ⟨first.noBlank, List.forall_mem_singleton.mpr hdash⟩⟩
  | closed first _ last =>
    exact List.forall_mem_cons.mpr ⟨hmark,
      List.forall_mem_append.mpr ⟨first.noBlank, List.forall_mem_cons.mpr ⟨hdash, last.noBlank⟩⟩⟩
  | marked first _ last =>
    exact List.forall_mem_cons.mpr ⟨hmark,
      List.forall_mem_append.mpr ⟨first.noBlank,
        List.forall_mem_cons.mpr ⟨hdash, List.forall_mem_cons.mpr ⟨hmark, last.noBlank⟩⟩⟩⟩

/-! ## References -/

/-- What the text names: a file, or lines of it. -/
inductive Names : Text → Text → Option Nat → Option Nat → Prop where
  | file {path : Text} (nonempty : path ≠ []) (plain : '#' ∉ path) : Names path path none none
  | lines {path t : Text} {n : Nat} {m : Option Nat} (nonempty : path ≠ []) (plain : '#' ∉ path)
      (range : IsRange t n m) : Names (path ++ '#' :: t) path (some n) m

/-- A reference without the blanks around it and the signs before it. -/
def body (reference : Text) : Text := (Text.trim reference).dropWhile (· = '@')

theorem names_of_read {reference : Text} {r : Reference} (h : read reference = .ok r) :
    r.raw = Text.trim reference ∧ Names (body reference) r.path r.first r.last := by
  unfold read at h
  dsimp only at h
  unfold body
  cases hc : Text.cutAt? '#' ((Text.trim reference).dropWhile (· = '@')) with
  | none =>
    rw [hc] at h
    dsimp only at h
    split at h
    · cases h
    · next hne =>
      cases h
      exact ⟨rfl, .file (by simpa using hne) (Text.cutAt_eq_none_iff.mp hc)⟩
  | some cut =>
    obtain ⟨path, t⟩ := cut
    obtain ⟨hbody, plain⟩ := Text.cutAt_eq_some_iff.mp hc
    rw [hc] at h
    dsimp only [Option.map_some] at h
    split at h
    · cases h
    · next hne =>
      split at h
      · next hnone => cases hnone
      · next hrange =>
        cases h
        refine ⟨rfl, ?_⟩
        rw [hbody]
        exact .lines (by simpa using hne) plain (isRange_of_range (Option.some.inj hrange))
      · cases h

theorem read_of_names {reference path : Text} {first last : Option Nat}
    (h : Names (body reference) path first last) :
    read reference = .ok ⟨Text.trim reference, path, first, last⟩ := by
  unfold body at h
  unfold read
  dsimp only
  generalize (Text.trim reference).dropWhile (· = '@') = text at h ⊢
  cases h with
  | file nonempty plain =>
    rw [Text.cutAt_eq_none_iff.mpr plain]
    exact if_neg (by simpa using nonempty)
  | lines nonempty plain range =>
    rw [Text.cutAt_eq_some_iff.mpr ⟨rfl, plain⟩]
    dsimp only [Option.map_some]
    rw [if_neg (by simpa using nonempty), range_of_isRange range]

theorem read_eq_ok_iff {reference : Text} {r : Reference} :
    read reference = .ok r ↔
      r.raw = Text.trim reference ∧ Names (body reference) r.path r.first r.last := by
  refine ⟨names_of_read, ?_⟩
  rintro ⟨hraw, h⟩
  rw [read_of_names h, ← hraw]

/-! ## Written references -/

/-- A range with a last line, or open to the end. -/
def rangeText (n : Nat) : Option Nat → Text
  | some m => 'L' :: (Text.ofNat n ++ '-' :: 'L' :: Text.ofNat m)
  | none => 'L' :: (Text.ofNat n ++ ['-'])

/-- What stands behind the path of a reference. -/
def linesText (r : Reference) : Text :=
  match r.first with
  | some n => '#' :: rangeText n r.last
  | none => []

/-- A reference as it is written. -/
def written (r : Reference) : Text := '@' :: (r.path ++ r.linesText)

theorem isRange_rangeText {t : Text} {n : Nat} {m : Option Nat} (h : IsRange t n m) :
    IsRange (rangeText n m) n m := by
  cases h with
  | line first pos =>
    exact .marked (isNumeral_ofNat first.fits) pos (isNumeral_ofNat first.fits) le_rfl
  | openEnd first pos => exact .openEnd (isNumeral_ofNat first.fits) pos
  | closed first pos last ordered | marked first pos last ordered =>
    exact .marked (isNumeral_ofNat first.fits) pos (isNumeral_ofNat last.fits) ordered

theorem rangeText_ne_nil (n : Nat) (m : Option Nat) : rangeText n m ≠ [] := by
  cases m <;> exact List.cons_ne_nil _ _

theorem names_written {text : Text} {r : Reference} (h : Names text r.path r.first r.last) :
    Names (r.path ++ r.linesText) r.path r.first r.last := by
  obtain ⟨raw, path, first, last⟩ := r
  dsimp only at h
  unfold linesText
  cases h with
  | file nonempty plain =>
    dsimp only
    rw [List.append_nil]
    exact .file nonempty plain
  | lines nonempty plain range => exact .lines nonempty plain (isRange_rangeText range)

/-- A path does not begin with a sign, for all signs before it are dropped. -/
theorem head_of_names {reference path : Text} {first last : Option Nat}
    (h : Names (body reference) path first last) : ∃ c rest, path = c :: rest ∧ c ≠ '@' := by
  have hhead (c : Char) (hc : (body reference).head? = some c) : c ≠ '@' := by
    have hnot := List.head?_dropWhile_not (· = '@') (Text.trim reference)
    unfold body at hc
    rw [hc] at hnot
    simpa using hnot
  generalize body reference = text at h hhead
  cases h with
  | file nonempty plain =>
    obtain ⟨c, rest, rfl⟩ := List.exists_cons_of_ne_nil nonempty
    exact ⟨c, rest, rfl, hhead c rfl⟩
  | lines nonempty plain range =>
    obtain ⟨c, rest, rfl⟩ := List.exists_cons_of_ne_nil nonempty
    exact ⟨c, rest, rfl, hhead c rfl⟩

theorem body_written {reference : Text} {r : Reference}
    (h : Names (body reference) r.path r.first r.last) (ht : Text.trim r.written = r.written) :
    body r.written = r.path ++ r.linesText := by
  obtain ⟨c, rest, hpath, hc⟩ := head_of_names h
  unfold body
  rw [ht, written, List.dropWhile_cons_of_pos (by simp), hpath, List.cons_append,
    List.dropWhile_cons_of_neg (by simpa using hc)]

theorem getLast_body {reference : Text} {c : Char} (h : (body reference).getLast? = some c) :
    Text.isBlank c = false := by
  obtain ⟨before, hbefore⟩ := List.dropWhile_suffix (· = '@') (l := Text.trim reference)
  refine Text.getLast_trim (t := reference) ?_
  rw [← hbefore]
  exact List.mem_getLast?_append_of_mem_getLast? h

/-- A path without lines does not end with a blank, nor does a range. -/
theorem trim_written {reference : Text} {r : Reference}
    (h : Names (body reference) r.path r.first r.last) : Text.trim r.written = r.written := by
  obtain ⟨raw, path, first, last⟩ := r
  have hlast (c : Char) (hc : (body reference).getLast? = some c) : Text.isBlank c = false :=
    getLast_body hc
  dsimp only at h
  generalize body reference = text at h hlast
  rw [Text.trim_eq_self_iff]
  refine ⟨fun c hc => ?_, fun c hc => ?_⟩
  · obtain rfl : '@' = c := Option.some.inj hc
    decide
  · unfold written linesText at hc
    cases h with
    | file nonempty plain =>
      dsimp only at hc
      rw [List.append_nil, List.getLast?_cons_of_ne_nil nonempty] at hc
      exact hlast c hc
    | lines nonempty plain range =>
      dsimp only at hc
      rw [← List.cons_append, List.getLast?_append_of_ne_nil _ (List.cons_ne_nil _ _),
        List.getLast?_cons_of_ne_nil (rangeText_ne_nil _ _)] at hc
      exact (isRange_rangeText range).noBlank c (List.mem_of_getLast? hc)

theorem read_written {reference : Text} {r : Reference} (h : read reference = .ok r) :
    read r.written = .ok { r with raw := r.written } := by
  obtain ⟨-, hnames⟩ := names_of_read h
  have ht := trim_written hnames
  have hwritten : Names (body r.written) r.path r.first r.last := by
    rw [body_written hnames ht]
    exact names_written hnames
  rw [read_of_names hwritten, ht]

/-- A reference is read from the texts of the grammar and from no others, as what they name. What
was read is read again as it is written. -/
theorem reads_grammar (reference : Text) :
    (∀ r, read reference = .ok r ↔
      r.raw = Text.trim reference ∧ Names (body reference) r.path r.first r.last) ∧
    ∀ r, read reference = .ok r → read r.written = .ok { r with raw := r.written } :=
  ⟨fun _ => read_eq_ok_iff, fun _ => read_written⟩

/-- A number loses the zeros in front of it when it is written again, and the path keeps the blank
at its end. -/
theorem padded_range_is_reread :
    ∃ r, read " @@src/my lib.rs #L007-12\n".toList = .ok r ∧ r.path = "src/my lib.rs ".toList ∧
      r.first = some 7 ∧ r.last = some 12 ∧ r.written = "@src/my lib.rs #L7-L12".toList ∧
      read r.written = .ok { r with raw := r.written } := by
  have h : read " @@src/my lib.rs #L007-12\n".toList = .ok _ := rfl
  exact ⟨_, h, rfl, rfl, rfl, rfl, (reads_grammar _).2 _ h⟩

/-- The digits of another script have the shape of a range and are no numeral. -/
example : read "@a#L٣".toList = .error (.invalidRange "@a#L٣" .tooLarge) := rfl

end Reference

end ConversationFlow
