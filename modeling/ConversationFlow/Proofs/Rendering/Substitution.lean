import ConversationFlow.Proofs.Merging.Variables

/-!
# One pass over a text with variables

A text is read from the left as variables and single characters (`Variables.Scans`). The reading is
settled by the text alone: it does not depend on which variables have values, nor on the values.
What is put in for a variable is therefore not read again, whatever braces it holds.
-/

namespace ConversationFlow.Variables

variable {vars : Variables} {t : Text} {name : Text}

/-- What a text is read as from the left. -/
inductive Piece where
  | named (name : Text)
  | plain (c : Char)

namespace Piece

/-- The piece as it stands in the text. -/
def text : Piece → Text
  | .named name => written name
  | .plain c => [c]

/-- The piece with the value of its variable, if that has one. -/
def filled (vars : Variables) : Piece → Text
  | .named name => (vars.get? name).getD (written name)
  | .plain c => [c]

end Piece

/-- The reading of a text from the left: a variable where one stands, and behind it the rest; else
one character. The braces around a name make it the longest run of other characters there. -/
inductive Scans : Text → List Piece → Prop
  | done : Scans [] []
  | named {t rest name : Text} {ps : List Piece} (isName : IsName name)
      (stands : t = written name ++ rest) (tail : Scans rest ps) : Scans t (.named name :: ps)
  | plain {c : Char} {rest : Text} {ps : List Piece}
      (none : ∀ name, IsName name → ¬written name <+: c :: rest) (tail : Scans rest ps) :
      Scans (c :: rest) (.plain c :: ps)

/-! ## A text has one reading -/

/-- At most one variable stands at the front of a text. -/
theorem name_unique {name' : Text} (hn : IsName name) (hn' : IsName name')
    (h : written name <+: t) (h' : written name' <+: t) : name' = name := by
  have hat := nameAt_eq_some_iff.mpr ⟨hn, h⟩
  have hat' := nameAt_eq_some_iff.mpr ⟨hn', h'⟩
  exact Option.some.inj (hat'.symm.trans hat)

theorem length_written (name : Text) : (written name).length = name.length + 4 := by
  simp [written, openBraces, closeBraces]

theorem exists_scans (t : Text) : ∃ ps, Scans t ps := by
  induction hn : t.length using Nat.strong_induction_on generalizing t with
  | h n ih =>
    cases t with
    | nil => exact ⟨[], .done⟩
    | cons c rest =>
      by_cases hvar : ∃ name, IsName name ∧ written name <+: c :: rest
      · obtain ⟨name, isName, behind, hbehind⟩ := hvar
        have shorter : behind.length < n := by
          rw [← hn, ← hbehind, List.length_append, length_written]
          omega
        obtain ⟨ps, hps⟩ := ih _ shorter behind rfl
        exact ⟨_, .named isName hbehind.symm hps⟩
      · obtain ⟨ps, hps⟩ := ih _ (by simp [← hn]) rest rfl
        exact ⟨_, .plain (fun name isName h => hvar ⟨name, isName, h⟩) hps⟩

theorem Scans.unique {ps qs : List Piece} (h : Scans t ps) (h' : Scans t qs) : qs = ps := by
  induction h generalizing qs with
  | done =>
    cases h' with
    | done => rfl
    | named isName stands tail => cases stands
  | @named t rest name ps isName stands tail ih =>
    cases h' with
    | done => cases stands
    | @named _ rest' name' qs isName' stands' tail' =>
      obtain rfl := name_unique isName isName' ⟨rest, stands.symm⟩ ⟨rest', stands'.symm⟩
      obtain rfl := List.append_cancel_left (stands'.symm.trans stands)
      rw [ih tail']
    | plain none tail' => exact absurd ⟨rest, stands.symm⟩ (none name isName)
  | plain none tail ih =>
    cases h' with
    | @named _ rest' name' qs isName' stands' tail' =>
      exact absurd ⟨rest', stands'.symm⟩ (none name' isName')
    | plain none' tail' => rw [ih tail']

/-- Nothing of the text is lost. -/
theorem Scans.text_eq {ps : List Piece} (h : Scans t ps) : ps.flatMap Piece.text = t := by
  induction h with
  | done => rfl
  | named isName stands tail ih => rw [List.flatMap_cons, ih, stands, Piece.text]
  | plain none tail ih => rw [List.flatMap_cons, ih]; rfl

/-! ## The pass -/

/-- A variable without a value stays as it stands, and the pass goes on behind it. -/
theorem substitute_unknown (hn : IsName name) (hv : vars.get? name = none) (t : Text) :
    vars.substitute (written name ++ t) = written name ++ vars.substitute t := by
  have shape (t : Text) : written name ++ t = '{' :: '{' :: ((name ++ closeBraces) ++ t) := rfl
  have first : ∀ name' value, IsName name' → vars.get? name' = some value →
      ¬written name' <+: '{' :: '{' :: ((name ++ closeBraces) ++ t) := by
    intro name' value hn' hv' h
    rw [name_unique hn hn' ⟨t, shape t⟩ h, hv] at hv'
    cases hv'
  have second : ∀ name' value, IsName name' → vars.get? name' = some value →
      ¬written name' <+: '{' :: ((name ++ closeBraces) ++ t) := by
    intro name' value _ _ h
    obtain ⟨c, more, rfl⟩ := List.exists_cons_of_ne_nil hn.1
    have hc := (List.cons_prefix_cons.mp (List.cons_prefix_cons.mp h).2).1
    have hbrace := hn.2 c List.mem_cons_self
    rw [← hc] at hbrace
    exact absurd hbrace (by decide)
  have noBrace : '{' ∉ name ++ closeBraces := by
    intro hm
    rcases List.mem_append.mp hm with hm | hm
    · exact absurd (hn.2 _ hm) (by decide)
    · exact absurd hm (by decide)
  rw [shape, substitute_cons first, substitute_cons second, substitute_plain noBrace, shape]

theorem Scans.substitute_eq {ps : List Piece} (h : Scans t ps) (vars : Variables) :
    vars.substitute t = ps.flatMap (Piece.filled vars) := by
  induction h with
  | done => rfl
  | @named t rest name ps isName stands tail ih =>
    rw [stands, List.flatMap_cons, Piece.filled, ← ih]
    cases hv : vars.get? name with
    | none => exact substitute_unknown isName hv rest
    | some value => exact substitute_written isName hv rest
  | plain none tail ih =>
    rw [List.flatMap_cons, ← ih]
    exact substitute_cons fun name _ isName _ => none name isName

/-- Substitution is one pass from the left. A text has exactly one reading, which loses none of it;
for all variables, substitution puts the value of each variable of the reading that has one in its
place, and leaves everything else as it stands. -/
theorem substitute_scans_once (t : Text) : ∃ ps, (∀ qs, Scans t qs ↔ qs = ps) ∧
    ps.flatMap Piece.text = t ∧
      ∀ vars : Variables, vars.substitute t = ps.flatMap (Piece.filled vars) := by
  obtain ⟨ps, h⟩ := exists_scans t
  exact ⟨ps, fun qs => ⟨h.unique, fun hq => hq ▸ h⟩, h.text_eq, h.substitute_eq⟩

example : substitute (.ofList [("A".toList, "{{B}}".toList), ("B".toList, "b".toList)])
    "{{{A}}} {A} {{B}}{{C}}".toList = "{{{B}}} {A} b{{C}}".toList := by decide

end ConversationFlow.Variables
