import ConversationFlow.Json.Printer
import ConversationFlow.Json.Reader
import ConversationFlow.Proofs.Value.Numbers

/-!
# JSON that is written and read again

The indented text of a value is read as that value: its strings are escaped so that they end where
they end, its whole numbers fit what is read, and its lists and objects are nested no deeper than
reading goes. Numbers with a fraction are left out: whether they come back depends on binary
rounding.
-/

namespace ConversationFlow.Json

/-! ## Strings -/

/-- The piece of a string stands for the character: as itself, or a control by its number. -/
def StandsFor (piece : Char ⊕ Nat) (c : Char) : Prop :=
  piece = .inl c ∨ piece = .inr c.toNat ∧ c.toNat < 0x20

theorem joined?_cons {piece : Char ⊕ Nat} {c : Char} (h : StandsFor piece c)
    (ps : List (Char ⊕ Nat)) : joined? (piece :: ps) = (joined? ps).map (c :: ·) := by
  rcases h with rfl | ⟨rfl, hlt⟩
  · rfl
  · rw [joined?.eq_def]
    dsimp only
    rw [if_neg (by omega), if_neg (by omega), Char.ofNat_toNat]

theorem unit?_hexDigits : ∀ n < 0x20,
    unit? '0' '0' (hexDigit (n / 16)) (hexDigit (n % 16)) = some n := by decide

/-- An escaped character is read as one piece. -/
theorem pieces?_escaped (c : Char) : ∃ piece, StandsFor piece c ∧ ∀ rest,
    pieces? (escaped c ++ rest) = (pieces? rest).map fun (ps, r) => (piece :: ps, r) := by
  unfold escaped
  split_ifs with hquote hslash hline hreturn htab hback hform hcontrol
  · exact ⟨.inl c, .inl rfl, fun rest => by simp [hquote, pieces?, shortEscape?]⟩
  · exact ⟨.inl c, .inl rfl, fun rest => by simp [hslash, pieces?, shortEscape?]⟩
  · exact ⟨.inl c, .inl rfl, fun rest => by simp [hline, pieces?, shortEscape?]⟩
  · exact ⟨.inl c, .inl rfl, fun rest => by simp [hreturn, pieces?, shortEscape?]⟩
  · exact ⟨.inl c, .inl rfl, fun rest => by simp [htab, pieces?, shortEscape?]⟩
  · have hc : c = Char.ofNat 8 := by rw [← hback, Char.ofNat_toNat]
    exact ⟨.inl c, .inl rfl, fun rest => by simp [hc, pieces?, shortEscape?]⟩
  · have hc : c = Char.ofNat 12 := by rw [← hform, Char.ofNat_toNat]
    exact ⟨.inl c, .inl rfl, fun rest => by simp [hc, pieces?, shortEscape?]⟩
  · refine ⟨.inr c.toNat, .inr ⟨rfl, hcontrol⟩, fun rest => ?_⟩
    simp only [List.cons_append, List.nil_append, pieces?, unit?_hexDigits c.toNat hcontrol]
  · refine ⟨.inl c, .inl rfl, fun rest => ?_⟩
    simp [pieces?, hslash, hcontrol]

/-- A text between quotes is read as that text, whatever follows it. -/
theorem string?_quoted (t rest : Text) :
    string? false (t.flatMap escaped ++ '"' :: rest) = some (t, rest) := by
  have hpieces : ∃ ps, pieces? (t.flatMap escaped ++ '"' :: rest) = some (ps, rest) ∧
      joined? ps = some t := by
    induction t with
    | nil => exact ⟨[], by rw [List.flatMap_nil, List.nil_append, pieces?], rfl⟩
    | cons c t ih =>
      obtain ⟨ps, hps, hjoined⟩ := ih
      obtain ⟨piece, hpiece, hread⟩ := pieces?_escaped c
      refine ⟨piece :: ps, ?_, ?_⟩
      · rw [List.flatMap_cons, List.append_assoc, hread, hps]
        rfl
      · rw [joined?_cons hpiece, hjoined]
        rfl
  obtain ⟨ps, hps, hjoined⟩ := hpieces
  unfold string?
  rw [hps]
  dsimp only
  rw [if_neg Bool.false_ne_true, hjoined]
  rfl

/-! ## Numbers -/

/-- No number but zero is written with a zero in front. -/
theorem head_ofNat {n : Nat} (h : 0 < n) : (Text.ofNat n).head? ≠ some '0' := by
  have hdigit : ∀ n < 10, 0 < n → [n.digitChar].head? ≠ some '0' := by decide
  induction n using Nat.strongRecOn with
  | ind n ih =>
    unfold Text.ofNat at ih ⊢
    by_cases hn : n < 10
    · rw [Nat.toDigits_of_lt_base hn]
      exact hdigit n hn h
    · rw [Nat.toDigits_of_base_le (by decide) (by omega),
        List.head?_append_of_ne_nil _ Nat.toDigits_ne_nil]
      exact ih (n / 10) (by omega) (by omega)

/-- The text cannot go on with a number: it is at its end, or at what follows a value. -/
def Stops (rest : Text) : Prop := ∀ c ∈ rest.head?, c = ',' ∨ c = '\n'

theorem Stops.span_digits {rest : Text} (h : Stops rest) (n : Nat) :
    (Text.ofNat n ++ rest).takeWhile Text.isDigit = Text.ofNat n ∧
      (Text.ofNat n ++ rest).dropWhile Text.isDigit = rest := by
  refine Text.span_append (fun c => Text.isDigit_of_mem_ofNat) fun c hc => ?_
  rcases h c hc with rfl | rfl <;> rfl

/-- A whole number that fits is read up to where it stops. -/
theorem number?_ofNat {rest : Text} (h : Stops rest) {n : Nat} (hn : n < wordSize 64) :
    number? false false (Text.ofNat n ++ rest) = some (.int n, rest) := by
  obtain ⟨htake, hdrop⟩ := h.span_digits n
  have hlead : ¬((Text.ofNat n).length > 1 && (Text.ofNat n).head? == some '0') = true := by
    intro hzero
    obtain ⟨hlength, hhead⟩ := Bool.and_eq_true_iff.mp hzero
    rcases Nat.eq_zero_or_pos n with rfl | hpos
    · exact absurd (of_decide_eq_true hlength) (by decide)
    · exact head_ofNat hpos (eq_of_beq hhead)
  unfold number?
  rw [htake, hdrop]
  dsimp only
  rw [Text.toNat_ofNat]
  dsimp only [bind, Option.bind]
  rw [if_neg hlead]
  -- Neither a fraction nor an exponent begins where the number stops.
  cases rest with
  | nil => simp [exponent?, hn]
  | cons c rest => rcases h c rfl with rfl | rfl <;> simp [exponent?, hn]

/-! ## Values -/

mutual

/-- All numbers in the value are natural numbers that fit in a word. -/
def IsCounted : Json → Prop
  | .int n => ∃ m : Nat, n = m ∧ m < wordSize 64
  | .real _ => False
  | .arr items => AreCounted items
  | .obj fields => HoldCounted fields
  | _ => True

def AreCounted : List Json → Prop
  | [] => True
  | v :: vs => IsCounted v ∧ AreCounted vs

def HoldCounted : List (Text × Json) → Prop
  | [] => True
  | (_, v) :: fs => IsCounted v ∧ HoldCounted fs

end

theorem skipGap_newLine (level : Nat) (t : Text) : skipGap (newLine level ++ t) = skipGap t := by
  have hgap : ∀ c ∈ newLine level, isGap c = true := by
    intro c hc
    rcases List.mem_cons.mp hc with rfl | hc
    · rfl
    · rw [List.eq_of_mem_replicate hc]
      rfl
  exact List.dropWhile_append_of_pos hgap

theorem skipGap_cons {c : Char} (h : isGap c = false) (t : Text) : skipGap (c :: t) = c :: t :=
  List.dropWhile_cons_of_neg (by rw [h]; exact Bool.false_ne_true)

theorem isGap_of_isDigit {c : Char} (h : Text.isDigit c = true) : isGap c = false := by
  by_contra hgap
  have hcases : c = ' ' ∨ c = '\n' ∨ c = '\t' ∨ c = '\r' := by
    rw [Bool.not_eq_false] at hgap
    simpa only [isGap, Bool.or_eq_true, decide_eq_true_eq, or_assoc] using hgap
  rcases hcases with rfl | rfl | rfl | rfl <;> cases h

/-- A value begins with a character that is neither a gap nor the end of a list. -/
theorem exists_indented (level : Nat) (v : Json) (hv : IsCounted v) :
    ∃ c t, indented level v = c :: t ∧ isGap c = false ∧ c ≠ ']' := by
  cases v with
  | null => exact ⟨'n', _, rfl, rfl, by decide⟩
  | bool b => cases b <;> exact ⟨_, _, rfl, rfl, by decide⟩
  | int n =>
    obtain ⟨m, rfl, -⟩ := hv
    cases hm : Text.ofNat m with
    | nil => exact absurd hm (Text.ofNat_ne_nil m)
    | cons c t =>
      have hc : Text.isDigit c = true :=
        Text.isDigit_of_mem_ofNat (n := m) (by rw [hm]; exact List.mem_cons_self)
      refine ⟨c, t, hm, isGap_of_isDigit hc, ?_⟩
      rintro rfl
      cases hc
  | real x => exact absurd hv id
  | str t => exact ⟨'"', _, rfl, rfl, by decide⟩
  | arr items => cases items <;> exact ⟨'[', _, rfl, rfl, by decide⟩
  | obj fields => cases fields <;> exact ⟨'\x7b', _, rfl, rfl, by decide⟩

/-- Gaps in front of a value are passed over, in whatever form they come. -/
theorem value?_of_gap {s t : Text} (h : skipGap s = skipGap t) (fuel levels : Nat) :
    value? false fuel levels s = value? false fuel levels t := by
  cases fuel with
  | zero => simp only [value?]
  | succ fuel => simp only [value?, h]

theorem elements?_of_gap {s t : Text} (h : skipGap s = skipGap t) (fuel levels : Nat) :
    elements? false fuel levels s = elements? false fuel levels t := by
  cases fuel with
  | zero => simp only [elements?]
  | succ fuel => simp only [elements?, value?_of_gap h]

theorem members?_of_gap {s t : Text} (h : skipGap s = skipGap t) (passes : Text → Bool)
    (fuel levels : Nat) : members? false passes fuel levels s = members? false passes fuel levels t := by
  cases fuel with
  | zero => simp only [members?]
  | succ fuel => simp only [members?, h]

theorem skipGap_skipGap (t : Text) : skipGap (skipGap t) = skipGap t :=
  List.dropWhile_idempotent isGap t

theorem stops_comma (t : Text) : Stops (',' :: t) := fun _ hc => .inl (Option.some.inj hc).symm

theorem stops_newLine (level : Nat) (t : Text) : Stops (newLine level ++ t) :=
  fun _ hc => .inr (Option.some.inj hc).symm

theorem value?_ofNat {fuel levels n : Nat} {rest : Text} (hn : n < wordSize 64) (hrest : Stops rest) :
    value? false (fuel + 1) levels (Text.ofNat n ++ rest) = some (.int n, rest) := by
  have hnumber := number?_ofNat hrest hn
  cases ht : Text.ofNat n with
  | nil => exact absurd ht (Text.ofNat_ne_nil n)
  | cons c t =>
    have hc : Text.isDigit c = true :=
      Text.isDigit_of_mem_ofNat (n := n) (by rw [ht]; exact List.mem_cons_self)
    rw [ht] at hnumber
    rw [value?, List.cons_append, skipGap_cons (isGap_of_isDigit hc)]
    split
    · next heq => cases (List.cons.inj heq).1; cases hc
    · next heq => cases (List.cons.inj heq).1; cases hc
    · next heq => cases (List.cons.inj heq).1; cases hc
    · next heq => cases (List.cons.inj heq).1; cases hc
    · next heq =>
      obtain ⟨rfl, rfl⟩ := List.cons.inj heq
      rw [if_pos hc]
      exact hnumber
    · next heq => cases heq

/-! The items of a list, and the fields of an object, stand on lines of their own. -/

theorem indentedItems_cons (level : Nat) (v w : Json) (ws : List Json) :
    indentedItems level (v :: w :: ws) =
      newLine level ++ (indented level v ++ ',' :: indentedItems level (w :: ws)) := by
  rw [indentedItems, List.append_assoc]
  exact List.cons_ne_nil w ws

theorem indentedFields_cons (level : Nat) (name : Text) (v : Json) (f : Text × Json)
    (fs : List (Text × Json)) :
    indentedFields level ((name, v) :: f :: fs) =
      newLine level ++ (quoted name ++ ':' :: ' ' ::
        (indented level v ++ ',' :: indentedFields level (f :: fs))) := by
  rw [indentedFields, List.append_assoc]
  exact List.cons_ne_nil f fs

theorem indentedFields_single (level : Nat) (name : Text) (v : Json) :
    indentedFields level [(name, v)] =
      newLine level ++ (quoted name ++ ':' :: ' ' :: indented level v) := by
  rw [indentedFields, List.append_assoc]

theorem skipGap_indentedItems {v : Json} (hv : IsCounted v) (level : Nat) (vs : List Json)
    (rest : Text) :
    ∃ c t, skipGap (indentedItems level (v :: vs) ++ rest) = c :: t ∧ c ≠ ']' := by
  obtain ⟨c, t, hhead, hgap, hclose⟩ := exists_indented level v hv
  cases vs with
  | nil =>
    rw [indentedItems, List.append_assoc, skipGap_newLine, hhead, List.cons_append,
      skipGap_cons hgap]
    exact ⟨c, _, rfl, hclose⟩
  | cons w ws =>
    rw [indentedItems_cons, List.append_assoc, skipGap_newLine, hhead, List.cons_append,
      List.cons_append, skipGap_cons hgap]
    exact ⟨c, _, rfl, hclose⟩

theorem skipGap_indentedFields (level : Nat) (f : Text × Json) (fs : List (Text × Json))
    (rest : Text) : ∃ t, skipGap (indentedFields level (f :: fs) ++ rest) = '"' :: t := by
  obtain ⟨name, v⟩ := f
  cases fs with
  | nil =>
    rw [indentedFields_single, List.append_assoc, skipGap_newLine]
    exact ⟨_, rfl⟩
  | cons g gs =>
    rw [indentedFields_cons, List.append_assoc, skipGap_newLine]
    exact ⟨_, rfl⟩

/-! A list or an object is opened where a level is left for it. -/

theorem value?_openArr (fuel : Nat) {levels : Nat} {rest t : Text} {c : Char} (hlevels : 0 < levels)
    (ht : skipGap rest = c :: t) (hc : c ≠ ']') :
    value? false (fuel + 1) levels ('[' :: rest) =
      (elements? false fuel (levels - 1) rest).map fun (items, r) => (.arr items, r) := by
  have hopen : ¬(levels = 0 && !false) = true := by simp; omega
  rw [value?, skipGap_cons rfl]
  refine (if_neg hopen).trans ?_
  split
  · next r heq => exact absurd (List.cons.inj (ht.symm.trans heq)).1 hc
  · rw [elements?_of_gap (skipGap_skipGap rest)]

theorem value?_openObj (fuel : Nat) {levels : Nat} {rest t : Text} (hlevels : 0 < levels)
    (ht : skipGap rest = '"' :: t) :
    value? false (fuel + 1) levels ('\x7b' :: rest) =
      (members? false (fun _ => false) fuel (levels - 1) rest).map fun (fields, r) =>
        (.obj fields, r) := by
  have hopen : ¬(levels = 0 && !false) = true := by simp; omega
  rw [value?, skipGap_cons rfl]
  refine (if_neg hopen).trans ?_
  rw [← members?_of_gap (skipGap_skipGap rest), ht]
  rfl

/-- What a member consists of: its name, a colon and its value. -/
theorem members?_quoted {passes : Text → Bool} {fuel levels : Nat} {name rest : Text} :
    members? false passes (fuel + 1) levels (quoted name ++ ':' :: ' ' :: rest) =
      match value? (passes name) fuel levels (' ' :: rest) with
      | none => none
      | some (v, rest) =>
        match skipGap rest with
        | ',' :: rest =>
          (members? false passes fuel levels rest).map fun (fs, r) => ((name, v) :: fs, r)
        | '\x7d' :: rest => some ([(name, v)], rest)
        | _ => none := by
  have hquoted : quoted name ++ ':' :: ' ' :: rest =
      '"' :: (name.flatMap escaped ++ '"' :: ':' :: ' ' :: rest) := by simp [quoted]
  rw [hquoted, members?, skipGap_cons rfl]
  simp only [string?_quoted]
  rfl

mutual

/-- The indented text of a value is read as that value, whatever follows it that is no part of a
number. -/
theorem value?_indented (v : Json) (hv : IsCounted v) {level fuel levels : Nat} {rest : Text}
    (hlevels : v.depth ≤ levels) (hfuel : 2 * (indented level v).length ≤ fuel)
    (hrest : Stops rest) : value? false fuel levels (indented level v ++ rest) = some (v, rest) := by
  obtain ⟨c, t, hhead, hgap, hclose⟩ := exists_indented level v hv
  obtain ⟨fuel, rfl⟩ : ∃ n, fuel = n + 1 := by
    rw [hhead, List.length_cons] at hfuel
    exact ⟨fuel - 1, by omega⟩
  cases v with
  | null => rfl
  | bool b => cases b <;> rfl
  | int n =>
    obtain ⟨m, rfl, hm⟩ := hv
    exact value?_ofNat hm hrest
  | real x => exact absurd hv id
  | str text =>
    change value? false (fuel + 1) levels ('"' :: (text.flatMap escaped ++ ['"'] ++ rest)) = _
    rw [value?, skipGap_cons rfl, List.append_assoc]
    change (string? false (text.flatMap escaped ++ '"' :: rest)).map _ = _
    rw [string?_quoted]
    rfl
  | arr items =>
    rw [Json.depth] at hlevels
    cases items with
    | nil =>
      rw [value?]
      exact if_neg (by simp; omega)
    | cons v vs =>
      rw [IsCounted] at hv
      have hitems : elements? false fuel (levels - 1)
          (indentedItems (level + 1) (v :: vs) ++ (newLine level ++ ']' :: rest)) =
            some (v :: vs, rest) :=
        elements?_indented (v :: vs) (List.cons_ne_nil v vs) hv (by omega)
          (by simp [indented] at hfuel; omega)
      rw [AreCounted] at hv
      obtain ⟨c, t, hhead, hclose⟩ := skipGap_indentedItems hv.1 (level + 1) vs
        (newLine level ++ ']' :: rest)
      have hopen := value?_openArr fuel (show 0 < levels by omega) hhead hclose
      rw [hitems] at hopen
      simpa [indented] using hopen
  | obj fields =>
    rw [Json.depth] at hlevels
    cases fields with
    | nil =>
      rw [value?]
      exact if_neg (by simp; omega)
    | cons f fs =>
      rw [IsCounted] at hv
      have hfields : members? false (fun _ => false) fuel (levels - 1)
          (indentedFields (level + 1) (f :: fs) ++ (newLine level ++ '\x7d' :: rest)) =
            some (f :: fs, rest) :=
        members?_indented (f :: fs) (List.cons_ne_nil f fs) hv (by omega)
          (by simp [indented] at hfuel; omega)
      obtain ⟨t, hhead⟩ := skipGap_indentedFields (level + 1) f fs
        (newLine level ++ '\x7d' :: rest)
      have hopen := value?_openObj fuel (show 0 < levels by omega) hhead
      rw [hfields] at hopen
      simpa [indented] using hopen

theorem elements?_indented (items : List Json) (hne : items ≠ []) (hitems : AreCounted items)
    {level outer fuel levels : Nat} {rest : Text} (hlevels : depthOfItems items ≤ levels)
    (hfuel : 2 * (indentedItems level items).length ≤ fuel) :
    elements? false fuel levels (indentedItems level items ++ (newLine outer ++ ']' :: rest)) =
      some (items, rest) := by
  have hline : 1 ≤ (newLine level).length := Nat.le_add_left 1 _
  match items with
  | [] => exact absurd rfl hne
  | [v] =>
    rw [AreCounted] at hitems
    rw [depthOfItems] at hlevels
    rw [indentedItems, List.length_append] at hfuel
    obtain ⟨fuel, rfl⟩ : ∃ n, fuel = n + 1 := ⟨fuel - 1, by omega⟩
    rw [indentedItems, List.append_assoc, elements?_of_gap (skipGap_newLine _ _), elements?,
      value?_indented v hitems.1 (by omega) (by omega) (stops_newLine outer _)]
    dsimp only
    rw [skipGap_newLine, skipGap_cons rfl]
    rfl
  | v :: w :: ws =>
    rw [AreCounted] at hitems
    rw [depthOfItems] at hlevels
    rw [indentedItems_cons, List.length_append, List.length_append, List.length_cons] at hfuel
    obtain ⟨fuel, rfl⟩ : ∃ n, fuel = n + 1 := ⟨fuel - 1, by omega⟩
    rw [indentedItems_cons, List.append_assoc, elements?_of_gap (skipGap_newLine _ _),
      List.append_assoc, List.cons_append, elements?,
      value?_indented v hitems.1 (by omega) (by omega) (stops_comma _)]
    dsimp only
    rw [skipGap_cons rfl]
    have hrest : elements? false fuel levels
        (indentedItems level (w :: ws) ++ (newLine outer ++ ']' :: rest)) = some (w :: ws, rest) :=
      elements?_indented (w :: ws) (List.cons_ne_nil w ws) hitems.2 (by omega) (by omega)
    change (elements? false fuel levels _).map _ = _
    rw [hrest]
    rfl

theorem members?_indented (fields : List (Text × Json)) (hne : fields ≠ [])
    (hfields : HoldCounted fields) {level outer fuel levels : Nat} {rest : Text}
    (hlevels : depthOfFields fields ≤ levels)
    (hfuel : 2 * (indentedFields level fields).length ≤ fuel) :
    members? false (fun _ => false) fuel levels
        (indentedFields level fields ++ (newLine outer ++ '\x7d' :: rest)) =
      some (fields, rest) := by
  have hline : 1 ≤ (newLine level).length := Nat.le_add_left 1 _
  have hblank (t : Text) : skipGap (' ' :: t) = skipGap t := rfl
  match fields with
  | [] => exact absurd rfl hne
  | [(name, v)] =>
    rw [HoldCounted] at hfields
    rw [depthOfFields] at hlevels
    rw [indentedFields_single, List.length_append, List.length_append, List.length_cons,
      List.length_cons] at hfuel
    obtain ⟨fuel, rfl⟩ : ∃ n, fuel = n + 1 := ⟨fuel - 1, by omega⟩
    rw [indentedFields_single, List.append_assoc, members?_of_gap (skipGap_newLine _ _),
      List.append_assoc, List.cons_append, List.cons_append, members?_quoted,
      value?_of_gap (hblank _),
      value?_indented v hfields.1 (by omega) (by omega) (stops_newLine outer _)]
    dsimp only
    rw [skipGap_newLine, skipGap_cons rfl]
    rfl
  | (name, v) :: f :: fs =>
    rw [HoldCounted] at hfields
    rw [depthOfFields] at hlevels
    rw [indentedFields_cons, List.length_append, List.length_append, List.length_cons,
      List.length_cons, List.length_append, List.length_cons] at hfuel
    obtain ⟨fuel, rfl⟩ : ∃ n, fuel = n + 1 := ⟨fuel - 1, by omega⟩
    rw [indentedFields_cons, List.append_assoc, members?_of_gap (skipGap_newLine _ _),
      List.append_assoc, List.cons_append, List.cons_append, members?_quoted,
      value?_of_gap (hblank _), List.append_assoc, List.cons_append,
      value?_indented v hfields.1 (by omega) (by omega) (stops_comma _)]
    dsimp only
    rw [skipGap_cons rfl]
    have hrest : members? false (fun _ => false) fuel levels
        (indentedFields level (f :: fs) ++ (newLine outer ++ '\x7d' :: rest)) =
          some (f :: fs, rest) :=
      members?_indented (f :: fs) (List.cons_ne_nil f fs) hfields.2 (by omega) (by omega)
    change (members? false (fun _ => false) fuel levels _).map _ = _
    rw [hrest]
    rfl

end

theorem areCounted_map {α : Type} {f : α → Json} {as : List α} (h : ∀ a ∈ as, IsCounted (f a)) :
    AreCounted (as.map f) := by
  induction as with
  | nil => trivial
  | cons a as ih =>
    obtain ⟨ha, has⟩ := List.forall_mem_cons.mp h
    exact ⟨ha, ih has⟩

theorem depthOfItems_map_le {α : Type} {f : α → Json} {as : List α} {n : Nat}
    (h : ∀ a ∈ as, (f a).depth ≤ n) : depthOfItems (as.map f) ≤ n := by
  induction as with
  | nil => exact Nat.zero_le n
  | cons a as ih =>
    obtain ⟨ha, has⟩ := List.forall_mem_cons.mp h
    exact Nat.max_le.mpr ⟨ha, ih has⟩

/-- A value of countable numbers that is nested no deeper than reading goes is read from its
indented text. -/
theorem read?_pretty {v : Json} (hv : IsCounted v) (hdepth : v.depth ≤ 127) :
    read? v.pretty = some v := by
  have hstops : Stops [] := fun _ h => by cases h
  have hvalue : value? false (2 * v.pretty.length + 2) 127 (v.pretty ++ []) = some (v, []) :=
    value?_indented v hv hdepth (Nat.le_add_right _ 2) hstops
  rw [List.append_nil] at hvalue
  unfold read?
  rw [hvalue]
  rfl

end ConversationFlow.Json
