import ConversationFlow.Proofs.Merging.Marks
import ConversationFlow.Proofs.Text.Lines

/-!
# Outputs in the places of marks

A scan that reads parts one after the other, each as if nothing stood around it, turns the text of
all parts into the text of what it makes of each (`scan_unlines`). Filling is such a scan as long
as the texts between the marks hold no two opening braces: at a mark exactly one token of the list
fits, whatever the order of the list is, and the output is not read again.

Nothing is said about texts that hold two opening braces themselves.
-/

namespace ConversationFlow

namespace Text

/-- The text ends, or its line does. -/
def LineEnds (t : Text) : Prop := ∀ c, t.head? = some c → c = '\n'

theorem lineEnds_nil : LineEnds [] := nofun

theorem lineEnds_newline (t : Text) : LineEnds ('\n' :: t) := by
  rintro c ⟨⟩
  rfl

/-- A scan that keeps line feeds, and that makes the same of a part whatever follows on the next
lines, makes of the parts together what it makes of each. -/
theorem scan_unlines {scan : Text → Text} {ps qs : List Text} (done : scan [] = [])
    (feed : ∀ t, scan ('\n' :: t) = '\n' :: scan t)
    (h : List.Forall₂ (fun p q => ∀ t, LineEnds t → scan (p ++ t) = q ++ scan t) ps qs) :
    scan (unlines ps) = unlines qs := by
  induction h with
  | nil => exact done
  | @cons p q ps qs hp hrest ih =>
    cases hrest with
    | nil =>
      have alone := hp [] lineEnds_nil
      rw [List.append_nil, done, List.append_nil] at alone
      rw [unlines_singleton, unlines_singleton, alone]
    | cons _ _ =>
      rw [unlines_cons_cons, unlines_cons_cons, hp _ (lineEnds_newline _), feed, ih]

end Text

namespace MergedPrompt

open Step

variable {subs : List (Text × Text)}

theorem fill_go_skip (token t : Text) :
    fill.go subs token.length (token ++ t) = fill.go subs 0 t := by
  induction token with
  | nil => rfl
  | cons c token ih =>
    rw [List.length_cons, List.cons_append, fill.go]
    exact ih

/-- Where no two braces open, the scan goes on behind the character. -/
theorem fill_cons {c : Char} {t : Text} (h : ¬openBraces <+: c :: t) :
    fill subs (c :: t) = c :: fill subs t := by
  have notOpen : ¬Text.startsWith "\x7b\x7b" (c :: t) = true := fun hs =>
    h (Text.startsWith_iff.mp hs)
  unfold fill
  rw [fill.go, if_neg notOpen]

theorem fill_newline (t : Text) : fill subs ('\n' :: t) = '\n' :: fill subs t :=
  fill_cons fun h => absurd (List.cons_prefix_cons.mp h).1 (by decide)

/-- A part that holds no two opening braces stays as it is. -/
theorem fill_plain {p t : Text} (hp : ¬openBraces <:+: p) (ht : Text.LineEnds t) :
    fill subs (p ++ t) = p ++ fill subs t := by
  induction p with
  | nil => rfl
  | cons c p ih =>
    have rest := ih fun hi => hp (hi.trans (List.suffix_cons c p).isInfix)
    have notOpen : ¬openBraces <+: c :: (p ++ t) := by
      intro hopen
      obtain ⟨hc, hnext⟩ := List.cons_prefix_cons.mp hopen
      cases p with
      | nil =>
        cases t with
        | nil => exact absurd hnext (by decide)
        | cons d t =>
          have hd := ht d rfl
          exact absurd (hd.symm.trans (List.cons_prefix_cons.mp hnext).1.symm) (by decide)
      | cons d p =>
        refine hp (List.IsPrefix.isInfix ?_)
        exact List.cons_prefix_cons.mpr
          ⟨hc, List.cons_prefix_cons.mpr ⟨(List.cons_prefix_cons.mp hnext).1, List.nil_prefix⟩⟩
    rw [List.cons_append, fill_cons notOpen, rest, List.cons_append]

/-- A token that is found where it stands gives way to its output. -/
theorem fill_token {token output t : Text} (starts : openBraces <+: token)
    (h : tokenAt? subs (token ++ t) = some (token, output)) :
    fill subs (token ++ t) = output ++ fill subs t := by
  cases token with
  | nil => exact absurd starts (by decide)
  | cons c token =>
    have opens : Text.startsWith "\x7b\x7b" (c :: (token ++ t)) = true :=
      Text.startsWith_iff.mpr (starts.trans (List.prefix_append _ _))
    rw [List.cons_append] at h
    unfold fill
    rw [List.cons_append, fill.go, if_pos opens, h]
    dsimp only
    rw [List.length_cons, Nat.add_sub_cancel, fill_go_skip]

/-- Where one entry fits and no two do, the entries that fit are that one. -/
theorem filter_eq_singleton {β : Type} {p : β → Bool} {cs : List β} {c : β} (hc : c ∈ cs)
    (hp : p c = true) (single : cs.Pairwise fun a b => ¬(p a = true ∧ p b = true)) :
    cs.filter p = [c] := by
  induction cs with
  | nil => cases hc
  | cons a cs ih =>
    obtain ⟨hfirst, hrest⟩ := List.pairwise_cons.mp single
    rcases List.mem_cons.mp hc with rfl | hc
    · have others : cs.filter p = [] :=
        List.filter_eq_nil_iff.mpr fun b hb => fun hb' => hfirst b hb ⟨hp, hb'⟩
      rw [List.filter_cons_of_pos hp, others]
    · rw [List.filter_cons_of_neg fun ha => hfirst c hc ⟨ha, hp⟩]
      exact ih hc hrest

/-- At a mark of the turn its own token is found, wherever it stands in the list. -/
theorem tokenAt_mark {before members : List Step} {out : Command → Text}
    (h : subs.Perm ((commands before members).map fun c => (c.mark, out c))) {c : Command}
    (hc : c ∈ commands before members) (t : Text) :
    tokenAt? subs (c.mark ++ t) = some (c.mark, out c) := by
  have nonempty (d : Command) : d.mark.isEmpty = false := by
    rw [Command.mark, placeholder_eq]
    rfl
  have fitting : (commands before members).filter
      ((fun s : Text × Text => !s.1.isEmpty && Text.startsWith s.1 (c.mark ++ t)) ∘
        fun d => (d.mark, out d)) = [c] := by
    refine filter_eq_singleton hc ?_ ?_
    · simp [nonempty, Text.startsWith_iff]
    · refine (marks_prefixFree before members).imp fun {a b} apart fits => ?_
      obtain ⟨ha, hb⟩ := fits
      simp only [Function.comp_apply, nonempty, Bool.not_false, Bool.true_and,
        Text.startsWith_iff] at ha hb
      rcases List.prefix_or_prefix_of_prefix ha hb with hab | hba
      · exact apart.1 hab
      · exact apart.2 hba
  have found := h.filter fun s => !s.1.isEmpty && Text.startsWith s.1 (c.mark ++ t)
  rw [List.filter_map, fitting, List.map_singleton, List.perm_singleton] at found
  rw [tokenAt?, found]
  rfl

/-- Each mark gives way to the output of its command, and all else stays. -/
theorem fill_partsBy {before members : List Step} {own : Text → Text} {out : Command → Text}
    (plain : ∀ s ∈ members, ¬openBraces <:+: own s.ownText)
    (h : subs.Perm ((commands before members).map fun c => (c.mark, out c))) :
    fill subs (Text.unlines (partsBy Command.mark own before members)) =
      Text.unlines (partsBy out own before members) := by
  refine Text.scan_unlines rfl fill_newline
    (forall₂_partsBy (fun c hc t _ => ?_) fun s hs t ht => ?_)
  · refine fill_token ?_ (tokenAt_mark h hc t)
    rw [Command.mark, placeholder_eq]
    exact (List.prefix_append _ _).trans (List.prefix_append _ _)
  · exact fill_plain (plain s hs) ht

end MergedPrompt

end ConversationFlow
