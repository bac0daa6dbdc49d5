import ConversationFlow.Proofs.Directive.TextValue

/-!
# Directives laid out in a text

A text lays out directives if it is made of their names at the beginning of lines, each with the rest
of its line and with lines below that belong to its value. The lexer finds these directives
and no others (`ofDocument_of_lays`), and texts may be put behind each other. Numbers of lines are
left out: a clause is a directive without its line.
-/

namespace ConversationFlow.Directive

/-- A directive without its line. -/
abbrev Clause := DirectiveName × Text

def clause (d : Directive) : Clause := (d.name, d.value)

/-- The name of a directive in force, spelt as the lexer finds it. -/
structure IsName (registry : Registry) (n : DirectiveName) : Prop where
  known : nameOf? registry n.text = some n
  split : splitName? n.text = some (n.text, [])

variable {registry : Registry} {n : DirectiveName}

theorem Keyword.ofName_name (k : Keyword) : Keyword.ofName? k.name = some k := by
  cases k <;> decide

theorem isName_builtin (k : Keyword) : IsName registry (.builtin k) := by
  constructor
  · rw [nameOf?, DirectiveName.text, Keyword.ofName_name]
  · cases k <;> decide

theorem isBlank_of_isNameChar {c : Char} (h : isNameChar c = true) : Text.isBlank c = false := by
  unfold isNameChar Text.isUpperLetter Text.isDigit at h
  unfold Text.isBlank
  simp only [Bool.or_eq_true, Bool.and_eq_true, decide_eq_true_eq, Char.le_def,
    UInt32.le_iff_toNat_le] at h
  have hn : c.toNat = c.val.toNat := rfl
  rcases h with (⟨hl, hr⟩ | ⟨hl, hr⟩) | rfl
  · have h1 : 65 ≤ c.toNat := hl
    have h2 : c.toNat ≤ 90 := hr
    simp
    omega
  · have h1 : 48 ≤ c.toNat := hl
    have h2 : c.toNat ≤ 57 := hr
    simp
    omega
  · decide

theorem IsName.chars (h : IsName registry n) :
    (∃ c t, n.text = c :: t ∧ Text.isUpperLetter c = true) ∧ ∀ c ∈ n.text, isNameChar c = true := by
  have hs := h.split
  unfold splitName? at hs
  split at hs
  · next c t ht =>
    split at hs
    · next hu =>
      refine ⟨⟨c, t, ht, hu⟩, ?_⟩
      split at hs
      · next hd => exact List.dropWhile_eq_nil_iff.mp hd
      · split at hs <;> simp at hs
    · cases hs
  · cases hs

/-- What may stand behind a name on its line. -/
def IsRest (rest : Text) : Prop := '\n' ∉ rest ∧ ∀ c, rest.head? = some c → Text.isBlank c = true

theorem isRest_nil : IsRest [] := ⟨List.not_mem_nil, nofun⟩

theorem isRest_blank {v : Text} (h : '\n' ∉ v) : IsRest (' ' :: v) := by
  refine ⟨fun hm => ?_, fun c hc => ?_⟩
  · rcases List.mem_cons.mp hm with he | hm
    · cases he
    · exact h hm
  · cases hc
    rfl

theorem splitName_append (hn : IsName registry n) {rest : Text}
    (hr : ∀ c, rest.head? = some c → Text.isBlank c = true) :
    splitName? (n.text ++ rest) = some (n.text, rest) := by
  obtain ⟨⟨c, t, ht, hu⟩, hall⟩ := hn.chars
  obtain ⟨htake, hdrop⟩ := Text.span_append hall fun b hb => by
    by_contra hname
    rw [Bool.not_eq_false] at hname
    have hblank := hr b hb
    rw [isBlank_of_isNameChar hname] at hblank
    cases hblank
  unfold splitName?
  split
  · next c' t' hcons =>
    have hc : c' = c := by
      rw [ht, List.cons_append] at hcons
      exact (List.cons.inj hcons).1.symm
    rw [hc, if_pos hu, hdrop, htake]
    cases rest with
    | nil => rfl
    | cons b u =>
      dsimp only
      rw [if_pos (hr b rfl)]
  · next hnil =>
    rw [ht] at hnil
    cases hnil

theorem trim_name_append (hn : IsName registry n) (rest : Text) :
    Text.trim (n.text ++ rest) = n.text ++ Text.trimEnd rest := by
  obtain ⟨⟨c, t, ht, -⟩, hall⟩ := hn.chars
  have hstart : Text.trimStart (n.text ++ rest) = n.text ++ rest := by
    rw [Text.trimStart_eq_self_iff]
    intro d hd
    rw [ht, List.cons_append, List.head?_cons] at hd
    cases hd
    exact isBlank_of_isNameChar (hall c (by rw [ht]; exact List.mem_cons_self))
  rw [Text.trim, hstart]
  clear hstart
  induction rest using List.reverseRecOn with
  | nil =>
    rw [List.append_nil, Text.trimEnd_eq_self_iff.mpr]
    · rw [show Text.trimEnd [] = [] from rfl, List.append_nil]
    · intro d hd
      exact isBlank_of_isNameChar (hall d (List.mem_of_getLast? hd))
  | append_singleton before d ih =>
    rw [← List.append_assoc, Text.trimEnd_eq, Text.trimEnd_eq]
    by_cases hb : Text.isBlank d = true
    · rw [List.rdropWhile_concat_pos _ _ _ hb, List.rdropWhile_concat_pos _ _ _ hb]
      exact ih
    · rw [List.rdropWhile_concat_neg _ _ _ hb, List.rdropWhile_concat_neg _ _ _ hb,
        List.append_assoc]

/-- A name and a rest are read from one line. -/
theorem ofLine_name (hn : IsName registry n) {rest : Text} (hr : IsRest rest) (number : Nat) :
    ofLine? registry (n.text ++ rest) number = some ⟨n, Text.trim rest, number⟩ := by
  have hhead : ∀ c, (Text.trimEnd rest).head? = some c → Text.isBlank c = true :=
    fun c hc => hr.2 c (Text.head_trimEnd hc)
  unfold ofLine?
  rw [trim_name_append hn, splitName_append hn hhead]
  dsimp only
  rw [Text.trim_trimEnd, if_neg fun hm => hr.1 ((Text.trim_sublist rest).mem hm), hn.known]
  rfl

theorem classify_name (hn : IsName registry n) {rest : Text} (hr : IsRest rest) (number : Nat) :
    classify registry (n.text ++ rest) number = .starts ⟨n, Text.trim rest, number⟩ := by
  obtain ⟨⟨c, t, ht, hu⟩, hall⟩ := hn.chars
  have hc := hall c (by rw [ht]; exact List.mem_cons_self)
  have hline := ofLine_name hn hr number
  rw [ht, List.cons_append] at hline ⊢
  rw [classify, if_neg (by rw [isBlank_of_isNameChar hc]; exact nofun), if_neg, hline]
  rintro rfl
  exact absurd hu (by decide)

/-- The line of a name completes what is open and starts its directive. -/
theorem feed_name (hn : IsName registry n) {rest : Text} (hr : IsRest rest) (state : Open)
    (number : Nat) : feed registry state (n.text ++ rest) number =
      (close state ++ (start registry ⟨n, Text.trim rest, number⟩).1,
        (start registry ⟨n, Text.trim rest, number⟩).2) := by
  cases state with
  | none =>
    unfold feed
    rw [ofLine_name hn hr]
    rfl
  | some s =>
    obtain ⟨d, taken⟩ := s
    unfold feed
    rw [classify_name hn hr]

theorem ofLine_of_blank {line : Text} (h : Text.allBlank line = true) (number : Nat) :
    ofLine? registry line number = none := by
  unfold ofLine?
  rw [Text.trim_eq_nil_iff.mpr h]
  rfl

/-- A line that is empty or begins with a blank goes to the text that is open. -/
theorem classify_below {line : Text} (h : ∀ c, line.head? = some c → Text.isBlank c = true)
    (number : Nat) : classify registry line number = .text := by
  cases line with
  | nil => rfl
  | cons c t => rw [classify, if_pos (h c rfl)]

/-! ## Lines that a line feed was put behind -/

theorem lines_single_append {l : Text} (h : '\n' ∉ l) (t : Text) :
    ∃ l', (l' = l ∨ l = l' ++ ['\r']) ∧ Text.lines (l ++ '\n' :: t) = l' :: Text.lines t := by
  by_cases hr : l.getLast? = some '\r'
  · obtain ⟨before, rfl⟩ := List.getLast?_eq_some_iff.mp hr
    refine ⟨before, .inr rfl, ?_⟩
    unfold Text.lines
    rw [Text.lines_go_append h, List.append_nil, Text.lines.go, List.reverse_append]
    simp [Text.lines.closed]
  · exact ⟨l, .inl rfl, Text.lines_line_append ⟨h, hr⟩⟩

/-- The line of a name loses at most blanks at its end. -/
theorem lines_name_append (hn : IsName registry n) {rest : Text} (hr : IsRest rest) (t : Text) :
    ∃ rest', IsRest rest' ∧ Text.trim rest' = Text.trim rest ∧
      Text.lines (n.text ++ rest ++ '\n' :: t) = (n.text ++ rest') :: Text.lines t := by
  obtain ⟨⟨c, u, ht, -⟩, hall⟩ := hn.chars
  have hsingle : '\n' ∉ n.text ++ rest := by
    intro hm
    rcases List.mem_append.mp hm with hm | hm
    · exact absurd (hall _ hm) (by decide)
    · exact hr.1 hm
  obtain ⟨l', hl, hlines⟩ := lines_single_append hsingle t
  rcases hl with rfl | hl
  · exact ⟨rest, hr, rfl, hlines⟩
  · rcases List.eq_nil_or_concat rest with rfl | ⟨before, d, rfl⟩
    · rw [List.append_nil] at hl
      have hm : '\r' ∈ n.text := by rw [hl]; simp
      exact absurd (hall _ hm) (by decide)
    · rw [List.concat_eq_append] at hl hlines hr ⊢
      rw [← List.append_assoc] at hl
      obtain ⟨hbefore, hd⟩ := List.append_inj' hl rfl
      obtain rfl : d = '\r' := by simpa using hd
      refine ⟨before, ⟨fun hm => hr.1 (List.mem_append_left _ hm), fun e he => hr.2 e ?_⟩,
        (Text.trim_concat (by decide) before).symm, by rw [hlines, ← hbefore]⟩
      cases before with
      | nil => cases he
      | cons b v => exact he

/-! ## Texts that lay out directives -/

/-- A line below a name: it is empty or begins with a blank. -/
structure IsBelow (l : Text) : Prop where
  clean : Text.IsClean l
  blank : ∀ c, l.head? = some c → Text.isBlank c = true

theorem below_eq (l : Text) : below l = '\n' :: margined l := by
  unfold below margined
  split <;> rfl

theorem flatMap_below (ls : List Text) :
    ls.flatMap below ++ ['\n'] = '\n' :: Text.ended (ls.map margined) := by
  induction ls with
  | nil => rfl
  | cons l ls ih =>
    rw [List.flatMap_cons, List.append_assoc, ih, below_eq, List.map_cons, Text.ended_cons,
      List.cons_append]

theorem isBelow_margined {l : Text} (hn : '\n' ∉ l) (ht : Text.trimEnd l = l) :
    IsBelow (margined l) := by
  unfold margined
  split
  · exact ⟨Text.isClean_nil, nofun⟩
  · next hb =>
    have hc := Text.isClean_of_trimEnd hn ht
    refine ⟨⟨fun hm => ?_, fun hl => ?_⟩, fun c hc => ?_⟩
    · rcases List.mem_append.mp hm with hm | hm
      · exact absurd hm (by decide)
      · exact hn hm
    · rw [List.getLast?_append_of_ne_nil] at hl
      · exact hc.noReturn hl
      · rintro rfl
        exact hb rfl
    · cases hc
      rfl

/-- The value of a name with a rest on its line and lines below. -/
def valueOf (registry : Registry) (n : DirectiveName) (rest : Text) (body : List Text) : Text :=
  if DirectiveName.takesText registry n then taken (Text.trim rest) body else Text.trim rest

/-- The text lays out the clauses. Below a name that takes no text stand only blank lines. -/
inductive Lays (registry : Registry) : Text → List Clause → Prop
  | nil : Lays registry [] []
  | cons {n : DirectiveName} {rest : Text} {body : List Text} {t : Text} {cs : List Clause}
      (hn : IsName registry n) (hr : IsRest rest) (hb : ∀ l ∈ body, IsBelow l)
      (hs : DirectiveName.takesText registry n = false → ∀ l ∈ body, Text.allBlank l = true)
      (more : Lays registry t cs) :
      Lays registry (n.text ++ rest ++ '\n' :: (Text.ended body ++ t))
        ((n, valueOf registry n rest body) :: cs)

/-- Lines below go to the text that is open. -/
theorem ofLines_below {d : Directive} {body : List Text} (hb : ∀ l ∈ body, IsBelow l)
    (taken : List Text) (number : Nat) (ls : List Text) :
    ofLines registry (some (d, taken)) number (body ++ ls) =
      ofLines registry (some (d, body.reverse ++ taken)) (number + body.length) ls := by
  induction body generalizing taken number with
  | nil => rfl
  | cons l body ih =>
    have hf : feed registry (some (d, taken)) l number = ([], some (d, l :: taken)) := by
      unfold feed
      rw [classify_below (hb l List.mem_cons_self).blank]
    rw [List.cons_append, ofLines, hf, List.nil_append,
      ih fun m hm => hb m (List.mem_cons_of_mem l hm), List.reverse_cons, List.append_assoc,
      List.length_cons]
    congr 1
    omega

/-- Blank lines hold no directive. -/
theorem ofLines_blank {body : List Text} (hb : ∀ l ∈ body, Text.allBlank l = true) (number : Nat)
    (ls : List Text) : ofLines registry none number (body ++ ls) =
      ofLines registry none (number + body.length) ls := by
  induction body generalizing number with
  | nil => rfl
  | cons l body ih =>
    have hf : feed registry none l number = ([], none) := by
      unfold feed
      rw [ofLine_of_blank (hb l List.mem_cons_self)]
    rw [List.cons_append, ofLines, hf, List.nil_append,
      ih fun m hm => hb m (List.mem_cons_of_mem l hm), List.length_cons]
    congr 1
    omega

theorem ofLines_of_lays {t : Text} {cs : List Clause} (h : Lays registry t cs) (state : Open)
    (number : Nat) : (ofLines registry state number (Text.lines t)).map clause =
      (close state).map clause ++ cs := by
  induction h generalizing state number with
  | nil => rw [show Text.lines [] = [] from rfl, ofLines, List.append_nil]
  | @cons n rest body t cs hn hr hb hs more ih =>
    obtain ⟨rest', hr', htrim, hlines⟩ := lines_name_append hn hr (Text.ended body ++ t)
    rw [hlines, Text.lines_ended_append fun l hl => (hb l hl).clean, ofLines, feed_name hn hr',
      htrim]
    dsimp only
    rw [List.map_append, List.map_append, List.append_assoc]
    congr 1
    unfold start
    dsimp only
    cases ht : DirectiveName.takesText registry n with
    | true =>
      rw [if_pos rfl]
      dsimp only
      rw [ofLines_below hb, ih, List.append_nil, close, List.reverse_reverse, withText_eq, valueOf,
        if_pos ht]
      rfl
    | false =>
      rw [if_neg nofun]
      dsimp only
      rw [ofLines_blank (hs ht), ih, valueOf, if_neg (by rw [ht]; exact nofun)]
      rfl

/-- The lexer finds the directives that a text lays out. -/
theorem ofDocument_of_lays {t : Text} {cs : List Clause} (h : Lays registry t cs) :
    (ofDocument registry t).map clause = cs :=
  ofLines_of_lays h none 1

namespace Lays

theorem append {t u : Text} {cs ds : List Clause} (ht : Lays registry t cs)
    (hu : Lays registry u ds) : Lays registry (t ++ u) (cs ++ ds) := by
  induction ht with
  | nil => exact hu
  | @cons n rest body t cs hn hr hb hs more ih =>
    rw [List.append_assoc (n.text ++ rest), List.cons_append,
      List.append_assoc (Text.ended body)]
    exact .cons hn hr hb hs ih

/-- One directive with the lines of its value. -/
theorem single {rest : Text} (body : List Text) (hn : IsName registry n) (hr : IsRest rest)
    (hb : ∀ l ∈ body, IsBelow l)
    (hs : DirectiveName.takesText registry n = false → ∀ l ∈ body, Text.allBlank l = true) :
    Lays registry (n.text ++ rest ++ '\n' :: Text.ended body)
      [(n, valueOf registry n rest body)] := by
  have h := Lays.cons hn hr hb hs .nil
  rw [List.append_nil] at h
  exact h

/-- A blank line behind directives does not matter. -/
theorem blank {t : Text} {cs : List Clause} (h : Lays registry t cs) (hne : cs ≠ []) :
    Lays registry (t ++ ['\n']) cs := by
  induction h with
  | nil => exact absurd rfl hne
  | @cons n rest body t cs hn hr hb hs more ih =>
    by_cases hcs : cs = []
    · subst hcs
      cases more
      have hv : valueOf registry n rest body = valueOf registry n rest (body ++ [[]]) := by
        unfold valueOf taken dedent
        rw [List.reverse_append, List.reverse_singleton, List.singleton_append,
          List.dropWhile_cons_of_pos rfl]
      have hb' : ∀ l ∈ body ++ [[]], IsBelow l := by
        intro l hl
        rcases List.mem_append.mp hl with hl | hl
        · exact hb l hl
        · rw [List.mem_singleton.mp hl]
          exact ⟨Text.isClean_nil, nofun⟩
      have h := single (body ++ [[]]) hn hr hb' fun ht l hl => by
        rcases List.mem_append.mp hl with hl | hl
        · exact hs ht l hl
        · rw [List.mem_singleton.mp hl]
          rfl
      rw [hv, List.append_nil, List.append_assoc, List.cons_append]
      rw [Text.ended_append] at h
      exact h
    · rw [List.append_assoc (n.text ++ rest), List.cons_append,
        List.append_assoc (Text.ended body)]
      exact .cons hn hr hb hs (ih hcs)

/-- A directive without a value. -/
theorem name (hn : IsName registry n) : Lays registry (n.text ++ ['\n']) [(n, [])] := by
  have h := single [] hn isRest_nil (fun l hl => by cases hl) fun _ l hl => by cases hl
  have hv : valueOf registry n [] [] = [] := by
    unfold valueOf
    split <;> rfl
  rw [hv, List.append_nil] at h
  exact h

/-- A directive whose value is the rest of its line. -/
theorem line (hn : IsName registry n) (ht : DirectiveName.takesText registry n = false) {v : Text}
    (hv : '\n' ∉ v) : Lays registry (n.text ++ ' ' :: v ++ ['\n']) [(n, Text.trim v)] := by
  have h := single [] hn (isRest_blank hv) (fun l hl => by cases hl)
    fun _ l hl => by cases hl
  rw [valueOf, if_neg (by rw [ht]; exact nofun), Text.trim_cons (by decide)] at h
  exact h

/-- A directive that takes text, with a text value. -/
theorem text (hn : IsName registry n) (ht : DirectiveName.takesText registry n = true) {v : Text}
    (hv : IsBlock v) : Lays registry (written n.text v ++ ['\n']) [(n, reread v)] := by
  unfold written
  cases hl : Text.lines v with
  | nil =>
    rw [reread_nil hl]
    exact name hn
  | cons first rest =>
    have hsingle (l : Text) (hm : l ∈ first :: rest) : '\n' ∉ l :=
      Text.not_mem_of_mem_lines (hl ▸ hm)
    have hbelow : ∀ l ∈ rest.map margined, IsBelow l := by
      intro l hm
      obtain ⟨m, hrest, rfl⟩ := List.mem_map.mp hm
      exact isBelow_margined (hsingle m (List.mem_cons_of_mem first hrest))
        (hv.trimmed_below hl m hrest)
    have hread (r : Text) (hr : IsRest r) (htrim : Text.trim r = Text.trim first) :
        Lays registry (n.text ++ r ++ rest.flatMap Directive.below ++ ['\n']) [(n, reread v)] := by
      have h := single (rest.map margined) hn hr hbelow fun hf => absurd (ht.symm.trans hf) nofun
      rw [valueOf, if_pos ht, htrim] at h
      rw [List.append_assoc, flatMap_below, reread, hl]
      exact h
    dsimp only
    split
    · next he =>
      rw [List.isEmpty_iff] at he
      have h := hread [] isRest_nil (by rw [he])
      rw [List.append_nil] at h
      exact h
    · exact hread _ (isRest_blank (hsingle first List.mem_cons_self)) (Text.trim_cons (by decide) first)

end Lays

theorem lines_of_isLine {v : Text} (hv : Text.IsLine v) (hne : v ≠ []) : Text.lines v = [v] := by
  have hclean : ∀ l ∈ [v], Text.IsClean l := List.forall_mem_singleton.mpr hv.isClean
  have h := Text.lines_unlines hclean (by simpa using hne)
  rw [Text.unlines_singleton] at h
  exact h

theorem written_of_isLine {v : Text} (hv : Text.IsLine v) (hne : v ≠ []) (name : Text) :
    written name v = name ++ ' ' :: v := by
  unfold written
  rw [lines_of_isLine hv hne]
  dsimp only
  rw [if_neg (by simpa using hne), List.flatMap_nil, List.append_nil]

/-- A directive that takes no text, with a value on its line. -/
theorem Lays.written_line (hn : IsName registry n)
    (ht : DirectiveName.takesText registry n = false) {v : Text} (hv : Text.IsLine v) :
    Lays registry (written n.text v ++ ['\n']) [(n, v)] := by
  by_cases hne : v = []
  · rw [hne]
    exact name hn
  · have h := line hn ht hv.single
    rw [hv.trimmed] at h
    rw [written_of_isLine hv hne]
    exact h

end ConversationFlow.Directive
