import ConversationFlow.Proofs.Merging.Filling
import ConversationFlow.Template

/-!
# Variables in the text of a turn

The variables are put in before the outputs are, in the text that holds the marks. A variable lies
within one line, so each part of the turn is treated by itself. A mark can lose its end: its
payload holds no pair of closing braces, but the braces that close the mark also close a variable
that the payload leaves open. `Variables.Spares` says that no payload does so, and
`MergedPrompt.marks_stay_iff` that this is exactly what the marks need.

The names of the variables hold no braces, line feeds or colons here. A name with a colon could
be the beginning of a mark.
-/

namespace ConversationFlow

/-! ## Replacing in a text -/

namespace Text

variable {p q : Text}

theorem replace_go_skip (a t : Text) : replace.go p q a.length (a ++ t) = replace.go p q 0 t := by
  induction a with
  | nil => rfl
  | cons c a ih =>
    rw [List.length_cons, List.cons_append, replace.go]
    exact ih

theorem replace_append (hp : p ≠ []) (t : Text) : replace p q (p ++ t) = q ++ replace p q t := by
  obtain ⟨c, a, rfl⟩ := List.exists_cons_of_ne_nil hp
  have occurs : startsWith (c :: a) (c :: (a ++ t)) = true :=
    startsWith_iff.mpr (List.prefix_append (c :: a) t)
  unfold replace
  rw [List.cons_append, replace.go, if_pos occurs, List.length_cons, Nat.add_sub_cancel,
    replace_go_skip]

theorem replace_cons {c : Char} {t : Text} (h : ¬p <+: c :: t) :
    replace p q (c :: t) = c :: replace p q t := by
  unfold replace
  rw [replace.go, if_neg fun hs => h (startsWith_iff.mp hs)]

theorem mem_replace_go {skip : Nat} {t : Text} {c : Char} (h : c ∈ replace.go p q skip t) :
    c ∈ q ∨ c ∈ t := by
  induction t generalizing skip with
  | nil =>
    rw [replace.go] at h
    exact .inr h
  | cons d t ih =>
    cases skip with
    | succ skip =>
      rw [replace.go] at h
      exact (ih h).imp_right (List.mem_cons_of_mem d)
    | zero =>
      rw [replace.go] at h
      split at h
      · rcases List.mem_append.mp h with h | h
        · exact .inl h
        · exact (ih h).imp_right (List.mem_cons_of_mem d)
      · rcases List.mem_cons.mp h with rfl | h
        · exact .inr List.mem_cons_self
        · exact (ih h).imp_right (List.mem_cons_of_mem d)

theorem newline_not_mem_replace (t : Text) : '\n' ∉ replace ['\n'] [' '] t := by
  induction t with
  | nil => exact List.not_mem_nil
  | cons c t ih =>
    intro hm
    by_cases hc : c = '\n'
    · have blank : replace ['\n'] [' '] (c :: t) = ' ' :: replace ['\n'] [' '] t := by
        rw [hc]
        exact replace_append (by decide) t
      rw [blank] at hm
      rcases List.mem_cons.mp hm with he | hm
      · exact absurd he (by decide)
      · exact ih hm
    · rw [replace_cons fun hp => hc (List.cons_prefix_cons.mp hp).1.symm] at hm
      rcases List.mem_cons.mp hm with rfl | hm
      · exact hc rfl
      · exact ih hm

/-- Texts that hold as many line feeds as others hold at least, are those if their lines are. -/
theorem unlines_inj {ps qs : List Text}
    (h : List.Forall₂ (fun p q => q.count '\n' ≤ p.count '\n') ps qs)
    (he : unlines ps = unlines qs) : ps = qs := by
  have fewer {ps qs : List Text}
      (h : List.Forall₂ (fun p q => q.count '\n' ≤ p.count '\n') ps qs) :
      (unlines qs).count '\n' ≤ (unlines ps).count '\n' := by
    induction h with
    | nil => exact le_rfl
    | @cons p q ps qs hp hrest ih =>
      cases hrest with
      | nil => rwa [unlines_singleton, unlines_singleton]
      | cons _ _ =>
        rw [unlines_cons_cons, unlines_cons_cons, List.count_append, List.count_append,
          List.count_cons_self, List.count_cons_self]
        omega
  induction h with
  | nil => rfl
  | @cons p q ps qs hp hrest ih =>
    cases hrest with
    | nil =>
      rw [unlines_singleton, unlines_singleton] at he
      rw [he]
    | @cons p' q' ps' qs' hp' hrest' =>
      have below := fewer (List.Forall₂.cons hp' hrest')
      rw [unlines_cons_cons, unlines_cons_cons] at he
      have counts := congrArg (List.count '\n') he
      rw [List.count_append, List.count_append, List.count_cons_self,
        List.count_cons_self] at counts
      obtain ⟨rfl, hlines⟩ := separated_inj (by omega) he
      rw [ih hlines]

/-- A text on one line that begins a part and what follows it begins the part. -/
theorem prefix_of_lineEnds {w p t : Text} (hw : '\n' ∉ w) (ht : LineEnds t) (h : w <+: p ++ t) :
    w <+: p := by
  rcases List.prefix_or_prefix_of_prefix h (List.prefix_append p t) with hwp | ⟨z, rfl⟩
  · exact hwp
  · have hz := (List.prefix_append_right_inj p).mp h
    cases z with
    | nil => exact ⟨[], by rw [List.append_nil, List.append_nil]⟩
    | cons d z =>
      obtain ⟨r, rfl⟩ := hz
      obtain rfl := ht d rfl
      exact absurd (List.mem_append_right p List.mem_cons_self) hw

end Text

/-! ## Variables in a text -/

namespace Variables

variable {vars : Variables}

/-- A text that is read as a name between braces. -/
def IsName (name : Text) : Prop := name ≠ [] ∧ ∀ c ∈ name, isBrace c = false

/-- A variable as it is written in a text. -/
def written (name : Text) : Text := openBraces ++ (name ++ closeBraces)

/-- The names of all variables are free of braces, line feeds and colons. -/
def PlainNames (vars : Variables) : Prop :=
  ∀ name value, vars.get? name = some value →
    (∀ c ∈ name, isBrace c = false) ∧ '\n' ∉ name ∧ ':' ∉ name

theorem nameAt_eq_some_iff {t name : Text} :
    nameAt? t = some name ↔ IsName name ∧ written name <+: t := by
  constructor
  · intro h
    unfold nameAt? at h
    split at h
    · next t =>
      dsimp only at h
      split at h
      · next hs =>
        obtain rfl := Option.some.inj h
        rw [Bool.and_eq_true, Bool.not_eq_true', List.isEmpty_eq_false_iff,
          Text.startsWith_iff] at hs
        refine ⟨⟨hs.1, fun c hc => by simpa using List.mem_takeWhile_imp hc⟩, ?_⟩
        obtain ⟨r, hr⟩ := hs.2
        refine ⟨r, ?_⟩
        rw [written, List.append_assoc, List.append_assoc, closeBraces, hr,
          List.takeWhile_append_dropWhile]
        rfl
      · cases h
    · cases h
  · rintro ⟨⟨hne, hbrace⟩, r, rfl⟩
    have plain : ∀ c ∈ name, (!isBrace c) = true := fun c hc => by simp [hbrace c hc]
    have hend : ∀ c ∈ (closeBraces ++ r).head?, (!isBrace c) = false := fun c hc => by
      obtain rfl : '}' = c := Option.some.inj hc
      decide
    obtain ⟨htake, hdrop⟩ := Text.span_append plain hend
    rw [← List.append_assoc] at htake hdrop
    have hclose : Text.startsWith ['}', '}'] (closeBraces ++ r) = true :=
      Text.startsWith_iff.mpr (List.prefix_append closeBraces r)
    change (if !((name ++ closeBraces ++ r).takeWhile fun c => !isBrace c).isEmpty &&
      Text.startsWith ['}', '}'] ((name ++ closeBraces ++ r).dropWhile fun c => !isBrace c)
      then some ((name ++ closeBraces ++ r).takeWhile fun c => !isBrace c) else none) = some name
    rw [htake, hdrop, if_pos]
    rw [hclose, Bool.and_true, Bool.not_eq_true', List.isEmpty_eq_false_iff]
    exact hne

theorem substitute_go_skip (a t : Text) :
    substitute.go vars a.length (a ++ t) = substitute.go vars 0 t := by
  induction a with
  | nil => rfl
  | cons c a ih =>
    rw [List.length_cons, List.cons_append, substitute.go]
    exact ih

/-- Where no variable is written, the scan goes on behind the character. -/
theorem substitute_cons {c : Char} {t : Text}
    (h : ∀ name value, IsName name → vars.get? name = some value → ¬written name <+: c :: t) :
    vars.substitute (c :: t) = c :: vars.substitute t := by
  have nothing : ((nameAt? (c :: t)).bind fun name => (vars.get? name).map (name, ·)) = none := by
    rw [Option.bind_eq_none_iff]
    intro name hname
    obtain ⟨isName, starts⟩ := nameAt_eq_some_iff.mp hname
    rw [Option.map_eq_none_iff, Option.eq_none_iff_forall_ne_some]
    exact fun value hv => h name value isName hv starts
  unfold substitute
  rw [substitute.go, nothing]

theorem substitute_written {name value : Text} (hname : IsName name)
    (hv : vars.get? name = some value) (t : Text) :
    vars.substitute (written name ++ t) = value ++ vars.substitute t := by
  have found : nameAt? (written name ++ t) = some name :=
    nameAt_eq_some_iff.mpr ⟨hname, List.prefix_append _ t⟩
  have shape : written name ++ t = '{' :: (('{' :: (name ++ closeBraces)) ++ t) := rfl
  have length : ('{' :: (name ++ closeBraces)).length = name.length + 3 := by
    simp [closeBraces]
  rw [shape] at found ⊢
  unfold substitute
  rw [substitute.go, found, Option.bind_some, hv]
  dsimp only [Option.map_some]
  rw [← length, substitute_go_skip]

theorem substitute_plain {p t : Text} (h : '{' ∉ p) :
    vars.substitute (p ++ t) = p ++ vars.substitute t := by
  induction p with
  | nil => rfl
  | cons c p ih =>
    rw [List.cons_append, substitute_cons, ih fun hm => h (List.mem_cons_of_mem c hm),
      List.cons_append]
    intro name value _ _ starts
    exact h (by rw [(List.cons_prefix_cons.mp starts).1]; exact List.mem_cons_self)

/-- What stands on lines of its own is treated by itself. -/
theorem substitute_append (plain : vars.PlainNames) {p t : Text} (ht : Text.LineEnds t) :
    vars.substitute (p ++ t) = vars.substitute p ++ vars.substitute t := by
  induction hn : p.length using Nat.strong_induction_on generalizing p with
  | h n ih =>
    cases p with
    | nil => rfl
    | cons c p =>
      by_cases hvar : ∃ name value, IsName name ∧ vars.get? name = some value ∧
          written name <+: c :: p
      · obtain ⟨name, value, isName, hv, r, hr⟩ := hvar
        have shorter : r.length < n := by
          rw [← hn, ← hr, written, openBraces]
          simp
          omega
        rw [← hr, List.append_assoc, substitute_written isName hv, substitute_written isName hv,
          ih _ shorter rfl, List.append_assoc]
      · have notHere : ∀ name value, IsName name → vars.get? name = some value →
            ¬written name <+: c :: p := fun name value isName hv starts =>
          hvar ⟨name, value, isName, hv, starts⟩
        have notHere' : ∀ name value, IsName name → vars.get? name = some value →
            ¬written name <+: c :: (p ++ t) := by
          intro name value isName hv starts
          have oneLine : '\n' ∉ written name := by
            simp [written, openBraces, closeBraces, (plain name value hv).2.1]
          exact notHere name value isName hv
            (Text.prefix_of_lineEnds (p := c :: p) oneLine ht starts)
        have shorter : p.length < n := by simp [← hn]
        rw [List.cons_append, substitute_cons notHere, substitute_cons notHere',
          ih _ shorter rfl, List.cons_append]

/-- No variable begins where a mark begins, nor before its payload. -/
theorem substitute_opening (plain : vars.PlainNames) (k : CommandKind) (index : Nat) (t : Text) :
    vars.substitute (k.opening index ++ t) = k.opening index ++ vars.substitute t := by
  have beginning : k.opening index ++ t =
      '{' :: '{' :: ((k.label ++ ':' :: (Text.ofNat index ++ [':'])) ++ t) := rfl
  have noBrace : '{' ∉ k.label ++ ':' :: (Text.ofNat index ++ [':']) := by
    have digits : '{' ∉ Text.ofNat index := fun hm =>
      absurd (Text.isDigit_of_mem_ofNat hm) (by decide)
    have label : '{' ∉ k.label := by cases k <;> decide
    simp [digits, label]
  have second : ∀ name value, IsName name → vars.get? name = some value →
      ¬written name <+: '{' :: ((k.label ++ ':' :: (Text.ofNat index ++ [':'])) ++ t) := by
    intro name value _ _ starts
    have hnext := (List.cons_prefix_cons.mp starts).2
    have hlabel : ∃ c rest, k.label = c :: rest := by cases k <;> exact ⟨_, _, rfl⟩
    obtain ⟨c, rest, hlabel⟩ := hlabel
    rw [hlabel] at hnext noBrace
    have hc := (List.cons_prefix_cons.mp hnext).1
    exact noBrace (by rw [hc]; exact List.mem_cons_self)
  have first : ∀ name value, IsName name → vars.get? name = some value →
      ¬written name <+:
        '{' :: '{' :: ((k.label ++ ':' :: (Text.ofNat index ++ [':'])) ++ t) := by
    intro name value _ hv starts
    have named : name ++ closeBraces <+:
        (k.label ++ [':']) ++ (Text.ofNat index ++ [':'] ++ t) := by
      have h := (List.cons_prefix_cons.mp (List.cons_prefix_cons.mp starts).2).2
      simpa using h
    rcases List.prefix_or_prefix_of_prefix named (List.prefix_append _ _) with h | h
    · have close : '}' ∈ k.label ++ [':'] := h.mem (by simp [closeBraces])
      exact absurd close (by cases k <;> decide)
    · have colon : ':' ∈ name ++ closeBraces := h.mem (by simp)
      rcases List.mem_append.mp colon with hm | hm
      · exact (plain name value hv).2.2 hm
      · exact absurd hm (by decide)
  rw [beginning, substitute_cons first, substitute_cons second, substitute_plain noBrace]
  rfl

/-! ## Variables that a payload leaves open -/

/-- The text ends so that two closing braces behind it close a variable of this name: with the
name behind two opening braces, or with one closing brace more. -/
def LeavesOpen (text name : Text) : Prop :=
  ∃ rest, (rest = [] ∨ rest = ['}']) ∧ openBraces ++ (name ++ rest) <:+ text

/-- No variable, put in where the payload of a mark leaves it open, changes the mark. -/
def Spares (vars : Variables) (payload : Text) : Prop :=
  ∀ name value, name ≠ [] → vars.get? name = some value →
    LeavesOpen (MergedPrompt.sealed payload) name → value = written name

theorem closing_comm {rest : Text} (h : rest = [] ∨ rest = ['}']) :
    rest ++ closeBraces = closeBraces ++ rest := by
  rcases h with rfl | rfl <;> rfl

theorem substitute_rest {rest : Text} (h : rest = [] ∨ rest = ['}']) :
    vars.substitute rest = rest := by
  rcases h with rfl | rfl
  · rfl
  · exact substitute_plain (p := ['}']) (t := []) (by decide)

/-- In a text that holds no variable, two closing braces behind it close one that it leaves open. -/
theorem eq_of_closed {text name : Text} (whole : ∀ name, IsName name → ¬written name <:+: text)
    (hname : IsName name) (h : written name <+: text ++ closeBraces) :
    ∃ rest, (rest = [] ∨ rest = ['}']) ∧ text = openBraces ++ (name ++ rest) := by
  obtain ⟨z, hz⟩ := h
  have shape : openBraces ++ (name ++ (closeBraces ++ z)) = text ++ closeBraces := by
    rw [← hz, written, List.append_assoc, List.append_assoc]
  rcases List.eq_nil_or_concat z with rfl | ⟨y, b, rfl⟩
  · refine ⟨[], .inl rfl, ?_⟩
    rw [List.append_nil, ← List.append_assoc] at shape
    rw [List.append_nil, List.append_cancel_right shape]
  · rcases List.eq_nil_or_concat y with rfl | ⟨x, a, rfl⟩
    · refine ⟨['}'], .inr rfl, ?_⟩
      have split : (openBraces ++ (name ++ ['}'])) ++ ['}', b] = text ++ ['}', '}'] := by
        simpa [closeBraces] using shape
      exact (List.append_inj' split rfl).1.symm
    · have split : (written name ++ x) ++ [a, b] = text ++ ['}', '}'] := by
        change _ = text ++ closeBraces
        rw [← hz]
        simp
      have inside := (List.append_inj' split rfl).1
      exact absurd ⟨[], x, by rw [List.nil_append, inside]⟩ (whole name hname)

/-- A variable that the text leaves open is put in when two closing braces close it. -/
theorem substitute_closed {before name rest value : Text} (hname : IsName name)
    (hv : vars.get? name = some value) (hrest : rest = [] ∨ rest = ['}'])
    (whole : ∀ other, IsName other → ¬written other <:+: before ++ (openBraces ++ (name ++ rest))) :
    vars.substitute (before ++ (openBraces ++ (name ++ rest)) ++ closeBraces) =
      before ++ (value ++ rest) := by
  induction before with
  | nil =>
    have closed : openBraces ++ (name ++ rest) ++ closeBraces = written name ++ rest := by
      rw [written, List.append_assoc, List.append_assoc, List.append_assoc, List.append_assoc,
        closing_comm hrest]
    rw [List.nil_append, List.nil_append, closed, substitute_written hname hv,
      substitute_rest hrest]
  | cons c before ih =>
    have inner := ih fun other hother hi =>
      whole other hother (hi.trans (List.suffix_cons c _).isInfix)
    rw [List.cons_append, List.cons_append, substitute_cons, inner, List.cons_append]
    intro other _ hother _ starts
    obtain ⟨rest', hrest', hsame⟩ := eq_of_closed whole hother starts
    -- A variable from here on would open its braces twice.
    have twice (n r : Text) (hn : IsName n) (hr : r = [] ∨ r = ['}']) :
        (openBraces ++ (n ++ r)).count '{' = 2 := by
      have none : (n ++ r).count '{' = 0 := by
        rw [List.count_eq_zero]
        intro hm
        rcases List.mem_append.mp hm with hm | hm
        · exact absurd (hn.2 _ hm) (by decide)
        · rcases hr with rfl | rfl <;> exact absurd hm (by decide)
      rw [List.count_append, none]
      rfl
    have counts := congrArg (List.count '{') hsame
    have hc : c = '{' := (List.cons.inj hsame).1
    rw [hc, List.cons_append, List.count_cons_self, List.count_append,
      twice name rest hname hrest, twice other rest' hother hrest'] at counts
    omega

/-- Closing braces stay behind a text that holds no variable, unless they close one of another
value than itself. -/
theorem substitute_closing_iff {text : Text}
    (whole : ∀ name, IsName name → ¬written name <:+: text) :
    vars.substitute (text ++ closeBraces) = text ++ closeBraces ↔
      ∀ name value, IsName name → vars.get? name = some value → LeavesOpen text name →
        value = written name := by
  constructor
  · rintro h name value hname hv ⟨rest, hrest, before, rfl⟩
    rw [substitute_closed hname hv hrest whole, List.append_assoc, List.append_cancel_left_eq,
      List.append_assoc, List.append_assoc, closing_comm hrest, ← List.append_assoc name,
      ← List.append_assoc openBraces] at h
    exact List.append_cancel_right h
  · intro h
    induction text with
    | nil => exact substitute_plain (p := closeBraces) (t := []) (by decide)
    | cons c text ih =>
      have inner := ih
        (fun name hname hi => whole name hname (hi.trans (List.suffix_cons c _).isInfix))
        fun name value hname hv ⟨rest, hrest, hs⟩ =>
          h name value hname hv ⟨rest, hrest, hs.trans (List.suffix_cons c _)⟩
      by_cases hvar : ∃ name value, IsName name ∧ vars.get? name = some value ∧
          written name <+: c :: text ++ closeBraces
      · obtain ⟨name, value, hname, hv, starts⟩ := hvar
        obtain ⟨rest, hrest, hsame⟩ := eq_of_closed whole hname starts
        have own := h name value hname hv ⟨rest, hrest, hsame ▸ List.suffix_rfl⟩
        rw [hsame] at whole ⊢
        rw [← List.nil_append (openBraces ++ _), substitute_closed hname hv hrest whole, own,
          written]
        simp only [List.nil_append, List.append_assoc, closing_comm hrest]
      · rw [List.cons_append, substitute_cons, inner]
        exact fun name value hname hv starts => hvar ⟨name, value, hname, hv, starts⟩

end Variables

/-! ## Marks and variables -/

namespace MergedPrompt

open Step Variables

variable {vars : Variables}

/-- A text without closing braces that a sealed payload begins with is followed by a sealed one. -/
theorem sealed_split {p r t : Text} (hp : '}' ∉ p)
    (h : p ++ r = Text.replace closeBraces ['}', ' ', '}'] t) :
    ∃ t', r = Text.replace closeBraces ['}', ' ', '}'] t' := by
  induction p generalizing t with
  | nil => exact ⟨t, h⟩
  | cons c p ih =>
    have hc : c ≠ '}' := fun he => hp (by rw [he]; exact List.mem_cons_self)
    cases t with
    | nil => cases h
    | cons d t =>
      by_cases hd : closeBraces <+: d :: t
      · obtain ⟨s, hs⟩ := hd
        rw [← hs, Text.replace_append (by decide)] at h
        exact absurd (List.cons.inj h).1 hc
      · rw [Text.replace_cons hd] at h
        exact ih (fun hm => hp (List.mem_cons_of_mem c hm)) (List.cons.inj h).2

/-- Two closing braces do not begin a sealed payload. -/
theorem not_prefix_sealed (t : Text) :
    ¬closeBraces <+: Text.replace closeBraces ['}', ' ', '}'] t := by
  intro hclose
  cases t with
  | nil => exact absurd hclose (by decide)
  | cons c t =>
    by_cases hc : closeBraces <+: c :: t
    · obtain ⟨s, hs⟩ := hc
      rw [← hs, Text.replace_append (by decide)] at hclose
      have second := (List.cons_prefix_cons.mp hclose).2
      exact absurd (List.cons_prefix_cons.mp second).1 (by decide)
    · rw [Text.replace_cons hc] at hclose
      obtain ⟨rfl, hnext⟩ := List.cons_prefix_cons.mp hclose
      cases t with
      | nil => exact absurd hnext (by decide)
      | cons d t =>
        by_cases hd : closeBraces <+: d :: t
        · exact hc (List.cons_prefix_cons.mpr ⟨rfl, (List.prefix_append ['}'] ['}']).trans hd⟩)
        · rw [Text.replace_cons hd] at hnext
          refine hc (List.cons_prefix_cons.mpr ⟨rfl, ?_⟩)
          exact List.cons_prefix_cons.mpr ⟨(List.cons_prefix_cons.mp hnext).1, List.nil_prefix⟩

/-- A sealed payload holds no variable. -/
theorem written_not_infix_sealed (payload : Text) {name : Text} (hname : IsName name) :
    ¬Variables.written name <:+: sealed payload := by
  unfold sealed
  generalize Text.replace ['\n'] [' '] payload = line
  induction hn : line.length using Nat.strong_induction_on generalizing line with
  | h n ih =>
    cases line with
    | nil => exact fun hi => absurd (List.infix_nil.mp hi) (by simp [Variables.written, openBraces])
    | cons c t =>
      by_cases hc : closeBraces <+: c :: t
      · obtain ⟨s, hs⟩ := hc
        have shorter : s.length < n := by
          rw [← hn, ← hs, closeBraces, List.length_append]
          simp
        rw [← hs, Text.replace_append (by decide)]
        intro hi
        -- The three characters put in do not begin a variable.
        rcases List.infix_cons_iff.mp hi with hp | hi
        · exact absurd (List.cons_prefix_cons.mp hp).1 (by decide)
        rcases List.infix_cons_iff.mp hi with hp | hi
        · exact absurd (List.cons_prefix_cons.mp hp).1 (by decide)
        rcases List.infix_cons_iff.mp hi with hp | hi
        · exact absurd (List.cons_prefix_cons.mp hp).1 (by decide)
        exact ih _ shorter _ rfl hi
      · have shorter : t.length < n := by simp [← hn]
        intro hi
        have hi' := hi
        rw [Text.replace_cons hc] at hi'
        rcases List.infix_cons_iff.mp hi' with ⟨r, hr⟩ | hi'
        · rw [← Text.replace_cons hc, Variables.written, List.append_assoc, List.append_assoc,
            ← List.append_assoc openBraces] at hr
          have open_ : '}' ∉ openBraces ++ name := by
            intro hm
            rcases List.mem_append.mp hm with hm | hm
            · exact absurd hm (by decide)
            · exact absurd (hname.2 _ hm) (by decide)
          obtain ⟨t', ht'⟩ := sealed_split open_ hr
          exact not_prefix_sealed t' ⟨r, ht'⟩
        · exact ih _ shorter _ rfl hi'

theorem newline_not_mem_sealed (payload : Text) : '\n' ∉ sealed payload := by
  intro hm
  rcases Text.mem_replace_go hm with hm | hm
  · exact absurd hm (by decide)
  · exact Text.newline_not_mem_replace payload hm

theorem newline_not_mem_mark (c : Command) : '\n' ∉ c.mark := by
  have digits : '\n' ∉ Text.ofNat c.index := fun hm =>
    absurd (Text.isDigit_of_mem_ofNat hm) (by decide)
  have label : '\n' ∉ c.kind.label := by cases c.kind <;> decide
  rw [Command.mark, placeholder_eq, CommandKind.opening]
  simp [openBraces, closeBraces, digits, label, newline_not_mem_sealed]

/-- A mark stays as it is where its payload leaves no variable open. -/
theorem substitute_mark_iff (plain : vars.PlainNames) (c : Command) :
    vars.substitute c.mark = c.mark ↔ vars.Spares (c.kind.shown c.text) := by
  rw [Command.mark, placeholder_eq, substitute_opening plain, List.append_cancel_left_eq,
    substitute_closing_iff fun name => written_not_infix_sealed _]
  constructor
  · intro h name value hne hv hopen
    exact h name value ⟨hne, (plain name value hv).1⟩ hv hopen
  · intro h name value hname hv hopen
    exact h name value hname.1 hv hopen

/-- The variables are put in part by part. -/
theorem substitute_partsBy (plain : vars.PlainNames) (before members : List Step) :
    vars.substitute (Text.unlines (partsBy Command.mark id before members)) =
      Text.unlines (partsBy (fun c => vars.substitute c.mark) vars.substitute before members) := by
  refine Text.scan_unlines rfl (fun t => ?_)
    (forall₂_partsBy (fun c _ t ht => ?_) fun s _ t ht => ?_)
  · exact substitute_plain (p := ['\n']) (by decide)
  · exact substitute_append plain ht
  · exact substitute_append plain ht

end MergedPrompt

namespace Step

/-- Two ways to write commands give the same parts where they agree on every command. -/
theorem partsBy_inj {command command' : Command → Text} (own : Text → Text)
    {before members : List Step} :
    partsBy command own before members = partsBy command' own before members ↔
      ∀ c ∈ commands before members, command c = command' c := by
  induction members generalizing before with
  | nil => simp [partsBy, commands]
  | cons s rest ih =>
    rw [partsBy, partsBy, commands]
    cases hs : command? before s with
    | none => simp [ih]
    | some c => simp [ih]

end Step

namespace MergedPrompt

open Step Variables

variable {vars : Variables} {members : List Step}

/-- Putting in the variables changes the texts of a turn and none of its marks exactly if the
variables spare every payload that a mark shows. -/
theorem marks_stay_iff (foldable : ∀ s ∈ members, s.Foldable) (plain : vars.PlainNames) :
    vars.substitute (ofSteps members).content =
        Text.unlines (partsBy Command.mark vars.substitute [] members) ↔
      ∀ c ∈ commands [] members, vars.Spares (c.kind.shown c.text) := by
  have survives : (∀ c ∈ commands [] members, vars.substitute c.mark = c.mark) ↔
      ∀ c ∈ commands [] members, vars.Spares (c.kind.shown c.text) :=
    forall₂_congr fun c _ => substitute_mark_iff plain c
  rw [content_ofSteps foldable, substitute_partsBy plain, ← survives,
    ← partsBy_inj vars.substitute]
  constructor
  · refine Text.unlines_inj (forall₂_partsBy (fun c _ => ?_) fun s _ => le_rfl)
    rw [List.count_eq_zero.mpr (newline_not_mem_mark c)]
    exact Nat.zero_le _
  · exact congrArg Text.unlines

/-- A command that ends with an open variable loses its mark to the value of the variable. -/
theorem open_variable_takes_mark :
    let vars : Variables := .ofList [("X".toList, "v".toList)]
    let members : List Step := [.run ⟨"echo \x7b\x7bX".toList, 0, none⟩ [] [], .prompt "hi".toList]
    vars.substitute (ofSteps members).content = "\x7b\x7bRUN:0:echo v\nhi".toList ∧
      vars.substitute (ofSteps members).content ≠
        Text.unlines (partsBy Command.mark vars.substitute [] members) := by
  intro vars members
  have plain : vars.PlainNames := by
    intro name value hv
    have only : name = "X".toList := by
      by_contra hne
      have single : vars = Dictionary.empty.insert "X".toList "v".toList := rfl
      rw [single, Dictionary.get?_insert, if_neg hne] at hv
      cases hv
    rw [only]
    exact ⟨List.forall_mem_singleton.mpr (by decide), by decide, by decide⟩
  refine ⟨by decide, fun stays => ?_⟩
  have spares := (marks_stay_iff (by decide) plain).mp stays _ List.mem_cons_self
  have own := spares "X".toList "v".toList (by decide) (by decide)
    ⟨[], .inl rfl, "echo ".toList, by decide⟩
  exact absurd own (by decide)

end MergedPrompt

end ConversationFlow
