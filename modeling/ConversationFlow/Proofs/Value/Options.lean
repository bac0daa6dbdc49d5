import ConversationFlow.Proofs.Value.Checks
import Mathlib.Data.List.Nodup

/-!
# Assignments and options that are written and read again

The values of options are quoted, but their names are written as they are and a query without quotes,
so that blanks and quotes in them are taken for something else. Options with plain names are read as
they were written.
-/

namespace ConversationFlow

/-! ## Dictionaries -/

namespace Dictionary

variable {α : Type}

theorem place_of_above {name : Text} {v : α} {es : List (Text × α)}
    (h : ∀ n ∈ es.map (·.1), n < name) : place name v es = es ++ [(name, v)] := by
  induction es with
  | nil => rfl
  | cons e es ih =>
    have he : e.1 < name := h e.1 List.mem_cons_self
    rw [place, if_neg (fun hlt => List.lt_irrefl name (List.lt_trans hlt he)), if_pos he,
      ih fun n hn => h n (List.mem_cons_of_mem _ hn)]
    rfl

/-- Entries that go on in increasing order are added at the end. -/
theorem entries_insertAll {d : Dictionary α} {es : List (Text × α)}
    (h : ((d.entries ++ es).map (·.1)).Pairwise (· < ·)) :
    (d.insertAll es).entries = d.entries ++ es := by
  unfold insertAll
  induction es generalizing d with
  | nil => exact (List.append_nil _).symm
  | cons e es ih =>
    have hplace : (d.insert e.1 e.2).entries = d.entries ++ [e] := by
      refine place_of_above fun n hn => ?_
      rw [List.map_append, List.pairwise_append] at h
      exact h.2.2 n hn e.1 (List.mem_map_of_mem List.mem_cons_self)
    rw [List.foldl_cons, ih, hplace, List.append_assoc]
    · rfl
    · rw [hplace, List.append_assoc]
      exact h

/-- A dictionary is made of its entries. -/
theorem ofList_entries (d : Dictionary α) : ofList d.entries = d := by
  have h : (ofList d.entries).entries = d.entries := entries_insertAll d.increasing
  cases hd : ofList d.entries with
  | mk entries increasing =>
    rw [hd] at h
    cases d
    cases h
    rfl

theorem nodup_names (d : Dictionary α) : (d.entries.map (·.1)).Nodup :=
  d.increasing.imp fun {a b} (hlt : a < b) (heq : a = b) => List.lt_irrefl b (heq ▸ hlt)

theorem nodup_entries (d : Dictionary α) : d.entries.Nodup := d.nodup_names.of_map _

theorem get?_eq_some_iff {d : Dictionary α} {name : Text} {v : α} :
    d.get? name = some v ↔ (name, v) ∈ d.entries := by
  unfold get?
  constructor
  · intro h
    obtain ⟨e, he, rfl⟩ := Option.map_eq_some_iff.mp h
    have hname := List.find?_some he
    obtain rfl : e.1 = name := beq_iff_eq.mp hname
    exact List.mem_of_find?_eq_some he
  · intro hmem
    have hsome : (d.entries.find? fun e => e.1 == name).isSome :=
      List.find?_isSome.mpr ⟨_, hmem, beq_self_eq_true name⟩
    obtain ⟨e, he⟩ := Option.isSome_iff_exists.mp hsome
    have hname := List.find?_some he
    obtain rfl : e = (name, v) := List.inj_on_of_nodup_map d.nodup_names
      (List.mem_of_find?_eq_some he) hmem (beq_iff_eq.mp hname)
    rw [he]
    rfl

/-- Dictionaries that give the same values are equal. -/
theorem eq_of_get? {d e : Dictionary α} (h : ∀ name, d.get? name = e.get? name) : d = e := by
  have hperm : d.entries.Perm e.entries :=
    (List.perm_ext_iff_of_nodup d.nodup_entries e.nodup_entries).mpr fun entry => by
      rw [← get?_eq_some_iff, ← get?_eq_some_iff, h]
  have hentries : d.entries = e.entries :=
    hperm.eq_of_pairwise (fun a b _ _ hab hba => absurd (List.lt_trans hab hba) (List.lt_irrefl _))
      (List.pairwise_map.mp d.increasing) (List.pairwise_map.mp e.increasing)
  cases d
  cases e
  cases hentries
  rfl

end Dictionary

/-! ## Options on one line -/

namespace Instruction

/-- Options that stand on one line. -/
def OnLine (options : Dictionary Text) : Prop :=
  ∀ e ∈ options.entries, '\n' ∉ e.1 ∧ '\n' ∉ e.2

theorem mem_entries_place {name : Text} {v : Text} {es : List (Text × Text)} {e : Text × Text}
    (h : e ∈ Dictionary.place name v es) : (e.1 = name ∧ e.2 = v) ∨ e ∈ es := by
  induction es with
  | nil =>
    rw [Dictionary.place, List.mem_singleton] at h
    exact .inl (by rw [h]; exact ⟨rfl, rfl⟩)
  | cons f es ih =>
    unfold Dictionary.place at h
    split at h
    · rcases List.mem_cons.mp h with rfl | h
      · exact .inl ⟨rfl, rfl⟩
      · exact .inr h
    · split at h
      · rcases List.mem_cons.mp h with rfl | h
        · exact .inr List.mem_cons_self
        · exact (ih h).imp_right (List.mem_cons_of_mem f)
      · next hnot habove =>
        rcases List.mem_cons.mp h with rfl | h
        · refine .inl ⟨?_, rfl⟩
          rcases Std.lt_trichotomy name f.1 with hlt | he | hgt
          · exact absurd hlt hnot
          · exact he.symm
          · exact absurd hgt habove
        · exact .inr (List.mem_cons_of_mem f h)

theorem mem_entries_insertAll {d : Dictionary Text} {es : List (Text × Text)} {e : Text × Text}
    (h : e ∈ (d.insertAll es).entries) : e ∈ d.entries ∨ e ∈ es := by
  unfold Dictionary.insertAll at h
  induction es generalizing d with
  | nil => exact .inl h
  | cons f es ih =>
    rcases ih h with hm | hm
    · rcases mem_entries_place hm with ⟨h1, h2⟩ | hm
      · exact .inr (by rw [Prod.ext h1 h2]; exact List.mem_cons_self)
      · exact .inl hm
    · exact .inr (List.mem_cons_of_mem f hm)

theorem onLine_ofList {es : List (Text × Text)} (h : ∀ e ∈ es, '\n' ∉ e.1 ∧ '\n' ∉ e.2) :
    OnLine (Dictionary.ofList es) := by
  intro e he
  exact h e ((mem_entries_insertAll he).resolve_left List.not_mem_nil)

theorem onLine_of_cutAt {w : Text} {e : Text × Text} (hw : '\n' ∉ w)
    (h : Text.cutAt? '=' w = some e) : '\n' ∉ e.1 ∧ '\n' ∉ e.2 := by
  obtain ⟨rfl, -⟩ := Text.cutAt_eq_some_iff.mp h
  exact ⟨fun hm => hw (by simp [hm]), fun hm => hw (by simp [hm])⟩

theorem onLine_of_option {w : Text} {e : Text × Text} (hw : '\n' ∉ w)
    (h : option? w = some e) : '\n' ∉ e.1 ∧ '\n' ∉ e.2 := by
  unfold option? at h
  split at h
  · next o ho =>
    have hsub : '\n' ∉ o := by
      intro hm
      rw [Text.after_eq_some_iff.mp ho] at hw
      exact hw (List.mem_append_right _ hm)
    cases hc : Text.cutAt? '=' o with
    | none =>
      rw [hc] at h
      cases h
      exact ⟨hsub, show '\n' ∉ String.toList "true" by decide⟩
    | some e' =>
      rw [hc] at h
      cases h
      exact onLine_of_cutAt hsub hc
  · exact onLine_of_cutAt hw h

theorem splitOptions_onLine {value : Text} {ws : List Text} {options : Dictionary Text}
    (hv : '\n' ∉ value) (h : splitOptions value = .ok (ws, options)) :
    (∀ w ∈ ws, '\n' ∉ w) ∧ OnLine options := by
  unfold splitOptions Words.split at h
  cases hs : Words.split? value with
  | none =>
    rw [hs] at h
    cases h
  | some all =>
    rw [hs] at h
    cases h
    have hall : ∀ w ∈ all, '\n' ∉ w := fun w hw hc => hv (Words.mem_of_split hs hw hc)
    refine ⟨fun w hw => hall w (List.mem_of_mem_filter hw), onLine_ofList fun e he => ?_⟩
    obtain ⟨w, hw, ho⟩ := List.mem_filterMap.mp he
    exact onLine_of_option (hall w hw) ho

theorem single_writtenOptions {options : Dictionary Text} (ho : OnLine options) :
    '\n' ∉ Directive.writtenOptions options := by
  intro hm
  obtain ⟨e, he, hm⟩ := List.mem_flatMap.mp hm
  obtain ⟨hk, hv⟩ := ho e he
  rcases List.mem_append.mp hm with hm | hm
  · rcases List.mem_append.mp hm with hm | hm
    · exact absurd hm (by decide)
    · exact hk hm
  · rcases List.mem_cons.mp hm with hm | hm
    · exact absurd hm (by decide)
    · exact (Words.isValue_quote hv).single hm

/-- A value is still one with options behind it. -/
theorem isValue_writtenOptions {v : Text} (hv : Text.IsValue v) {options : Dictionary Text}
    (ho : OnLine options) : Text.IsValue (v ++ Directive.writtenOptions options) := by
  unfold Directive.writtenOptions
  unfold OnLine at ho
  generalize options.entries = entries at ho
  induction entries generalizing v with
  | nil =>
    rw [List.flatMap_nil, List.append_nil]
    exact hv
  | cons e es ih =>
    obtain ⟨hk, hvalue⟩ := ho e List.mem_cons_self
    have hone : Text.IsValue (v ++ ([' ', '-', '-'] ++ e.1 ++ ['=']) ++ Words.quote e.2) := by
      refine hv.append (Words.isValue_quote hvalue) fun hm => ?_
      simp only [List.mem_append, List.mem_cons, List.not_mem_nil, or_false] at hm
      rcases hm with (hm | hm) | hm
      · exact absurd hm (by decide)
      · exact hk hm
      · cases hm
    have h := ih hone fun f hf => ho f (List.mem_cons_of_mem e hf)
    have hl : (String.toList " --" : Text) = [' ', '-', '-'] := rfl
    rw [List.flatMap_cons, ← List.append_assoc]
    have he : v ++ (String.toList " --" ++ e.1 ++ '=' :: Words.quote e.2) =
        v ++ ([' ', '-', '-'] ++ e.1 ++ ['=']) ++ Words.quote e.2 := by
      rw [hl]
      simp
    change Text.IsValue (v ++ (String.toList " --" ++ e.1 ++ '=' :: Words.quote e.2) ++ _)
    rw [he]
    exact h

/-! ## Assignments -/

/-- A variable: a name without the sign of equality, and both on one line. -/
structure IsVariable (e : Text × Text) : Prop where
  named : e.1 ≠ []
  unequal : '=' ∉ e.1
  single : '\n' ∉ e.1 ∧ '\n' ∉ e.2

theorem isVariable_of_split {w : Text} {e : Text × Text} (hw : '\n' ∉ w)
    (h : Assignment.split? w = some e) : IsVariable e := by
  unfold Assignment.split? at h
  cases hc : Text.cutAt? '=' w with
  | none =>
    rw [hc] at h
    cases h
  | some lr =>
    obtain ⟨name, value⟩ := lr
    rw [hc] at h
    dsimp only at h
    split at h
    · cases h
    · next hne =>
      cases h
      have hunequal := (Text.cutAt_eq_some_iff.mp hc).2
      exact ⟨by simpa using hne, hunequal, onLine_of_cutAt hw hc⟩

/-- An assignment as it is written. -/
def assignmentText (e : Text × Text) : Text := e.1 ++ '=' :: e.2

theorem cutAt_assignmentText {e : Text × Text} (h : '=' ∉ e.1) :
    Text.cutAt? '=' (assignmentText e) = some e :=
  Text.cutAt_eq_some_iff.mpr ⟨rfl, h⟩

theorem split_assignmentText {e : Text × Text} (h : IsVariable e) :
    Assignment.split? (assignmentText e) = some e := by
  unfold Assignment.split?
  rw [cutAt_assignmentText h.unequal]
  exact if_neg (by simpa using h.named)

theorem assignmentText_of_split {w : Text} {e : Text × Text} (h : Assignment.split? w = some e) :
    w = assignmentText e := by
  unfold Assignment.split? at h
  cases hc : Text.cutAt? '=' w with
  | none =>
    rw [hc] at h
    cases h
  | some lr =>
    rw [hc] at h
    dsimp only at h
    split at h
    · cases h
    · cases h
      exact (Text.cutAt_eq_some_iff.mp hc).1

theorem mapM_assignment {es : List (Text × Text)} (h : ∀ e ∈ es, IsVariable e) :
    (es.map assignmentText).mapM assignment = .ok es := by
  induction es with
  | nil => rfl
  | cons e es ih =>
    rw [List.map_cons, List.mapM_cons, assignment, split_assignmentText (h e List.mem_cons_self),
      ih fun f hf => h f (List.mem_cons_of_mem e hf)]
    rfl

theorem map_assignmentText {ws : List Text} {es : List (Text × Text)}
    (h : ws.mapM assignment = .ok es) : ws = es.map assignmentText := by
  induction ws generalizing es with
  | nil =>
    cases h
    rfl
  | cons w ws ih =>
    rw [List.mapM_cons, assignment] at h
    cases ha : Assignment.split? w with
    | none =>
      rw [ha] at h
      cases h
    | some e =>
      rw [ha] at h
      cases hr : ws.mapM assignment with
      | error err =>
        rw [hr] at h
        cases h
      | ok rest =>
        rw [hr] at h
        cases h
        rw [List.map_cons, ← ih hr, ← assignmentText_of_split ha]

/-! ## Options with plain names -/

/-- An option as it is written, without quotes around its value. -/
def optionText (e : Text × Text) : Text := '-' :: '-' :: assignmentText e

/-- An option whose name holds no blank, no quote and no sign of equality, and whose value does not hold
both quotes. -/
structure IsPlain (e : Text × Text) : Prop where
  name : ∀ c ∈ e.1, ¬Words.IsQuote c ∧ Text.isBlank c = false
  unequal : '=' ∉ e.1
  value : ¬Words.HoldsBothQuotes e.2

theorem option_optionText {e : Text × Text} (h : IsPlain e) : option? (optionText e) = some e := by
  have hafter : Text.after? "--" (optionText e) = some (assignmentText e) :=
    Text.after_eq_some_iff.mpr rfl
  unfold option?
  rw [hafter]
  dsimp only
  rw [cutAt_assignmentText h.unequal]
  rfl

theorem scan_writtenOptions {options : Dictionary Text} (h : ∀ e ∈ options.entries, IsPlain e)
    (r : Text) : Words.scan none (some r) (Directive.writtenOptions options) =
      some (r.reverse :: options.entries.map optionText) := by
  unfold Directive.writtenOptions
  generalize options.entries = es at h
  induction es generalizing r with
  | nil => rfl
  | cons e es ih =>
    obtain ⟨hname, -, hvalue⟩ := h e List.mem_cons_self
    have ih := ih (optionText e).reverse fun f hf => h f (List.mem_cons_of_mem e hf)
    have hsign : ¬Words.IsQuote '=' ∧ Text.isBlank '=' = false := by decide
    have hrun : ∀ c ∈ '-' :: (e.1 ++ ['=']), ¬Words.IsQuote c ∧ Text.isBlank c = false := by
      intro c hc
      simp only [List.mem_cons, List.mem_append, List.not_mem_nil, or_false] at hc
      rcases hc with rfl | hc | rfl
      · decide
      · exact hname c hc
      · exact hsign
    have htext : (" --" : Text) ++ e.1 ++ '=' :: Words.quote e.2 =
        ' ' :: '-' :: ('-' :: (e.1 ++ ['=']) ++ Words.quote e.2) := by
      change [' ', '-', '-'] ++ e.1 ++ '=' :: Words.quote e.2 = _
      simp
    rw [List.flatMap_cons]
    change Words.scan none (some r) ((" --" : Text) ++ e.1 ++ '=' :: Words.quote e.2 ++ _) = _
    rw [htext, List.cons_append, List.cons_append, List.append_assoc,
      Words.scan_blank (by decide), Words.scan_plain (by decide) (by decide), Words.scan_run hrun,
      Words.scan_quote hvalue]
    have hread : e.2.reverse ++ (some (('-' :: (e.1 ++ ['='])).reverse ++ ['-'])).getD [] =
        (optionText e).reverse := by
      simp [optionText, assignmentText]
    rw [Option.getD_none, hread, ih, List.reverse_reverse]
    rfl

/-- The words of a text are kept apart from the options behind it. -/
theorem splitOptions_written {v : Text} {ws : List Text} {options : Dictionary Text}
    (hv : Words.split? (v ++ Directive.writtenOptions options) =
      some (ws ++ options.entries.map optionText))
    (hw : ∀ w ∈ ws, option? w = none) (h : ∀ e ∈ options.entries, IsPlain e) :
    splitOptions (v ++ Directive.writtenOptions options) = .ok (ws, options) := by
  have hpos : (ws ++ options.entries.map optionText).filter (fun w => (option? w).isNone) = ws := by
    rw [List.filter_append, List.filter_eq_self.mpr fun w hm => by rw [hw w hm]; rfl,
      List.filter_eq_nil_iff.mpr, List.append_nil]
    rintro w hm
    obtain ⟨e, he, rfl⟩ := List.mem_map.mp hm
    rw [option_optionText (h e he)]
    exact Bool.false_ne_true
  have hoptions : (ws ++ options.entries.map optionText).filterMap option? = options.entries := by
    rw [List.filterMap_append, List.filterMap_eq_nil_iff.mpr hw, List.nil_append,
      List.filterMap_map]
    have hsome : ∀ e ∈ options.entries, (option? ∘ optionText) e = some e :=
      fun e he => option_optionText (h e he)
    rw [List.filterMap_congr hsome, List.filterMap_some]
  unfold splitOptions Words.split
  rw [hv]
  change Except.ok (_, _) = _
  rw [hpos, hoptions, Dictionary.ofList_entries]

/-- A check with plain options is read as it was written. -/
theorem namedCheck_written {kind : Text} {options : Dictionary Text}
    (hkind : ¬Words.HoldsBothQuotes kind) (hno : option? kind = none)
    (h : ∀ e ∈ options.entries, IsPlain e) :
    namedCheck (Words.quote kind ++ Directive.writtenOptions options) =
      .ok (.named kind options) := by
  have hsplit : Words.split? (Words.quote kind ++ Directive.writtenOptions options) =
      some ([kind] ++ options.entries.map optionText) := by
    rw [Words.split?, Words.scan_quote hkind, scan_writtenOptions h, Option.getD_none,
      List.append_nil, List.reverse_reverse]
    rfl
  unfold namedCheck
  rw [splitOptions_written hsplit (fun w hw => by rwa [List.mem_singleton.mp hw]) h]
  rfl

/-- A word of a query that is no option, and has neither blanks nor quotes. -/
structure IsQueryWord (w : Text) : Prop where
  ne_nil : w ≠ []
  plain : ∀ c ∈ w, ¬Words.IsQuote c ∧ Text.isBlank c = false
  noOption : option? w = none

theorem split_queryWords {ws : List Text} {options : Dictionary Text} (hne : ws ≠ [])
    (hw : ∀ w ∈ ws, IsQueryWord w) (h : ∀ e ∈ options.entries, IsPlain e) :
    Words.split? (Text.join [' '] ws ++ Directive.writtenOptions options) =
      some (ws ++ options.entries.map optionText) := by
  induction ws with
  | nil => exact absurd rfl hne
  | cons w ws ih =>
    obtain ⟨hwne, hplain, -⟩ := hw w List.mem_cons_self
    cases ws with
    | nil =>
      rw [Text.join, List.intercalate_singleton]
      obtain ⟨c, w, rfl⟩ := List.exists_cons_of_ne_nil hwne
      obtain ⟨hq, hb⟩ := hplain c List.mem_cons_self
      rw [Words.split?, List.cons_append, Words.scan_plain hq hb,
        Words.scan_run fun d hd => hplain d (List.mem_cons_of_mem c hd), scan_writtenOptions h]
      simp
    | cons v ws =>
      have ih := ih (List.cons_ne_nil v ws) fun u hu => hw u (List.mem_cons_of_mem w hu)
      have htext : Text.join [' '] (w :: v :: ws) ++ Directive.writtenOptions options =
          w ++ ' ' :: (Text.join [' '] (v :: ws) ++ Directive.writtenOptions options) := by
        rw [Text.join, List.intercalate_cons_cons]
        simp [Text.join]
      rw [htext, Words.split_plain_append hwne hplain, ih]
      rfl

/-- A query of plain words with plain options is read as it was written. -/
theorem query_written {ws : List Text} {options : Dictionary Text} (hne : ws ≠ [])
    (hw : ∀ w ∈ ws, IsQueryWord w) (h : ∀ e ∈ options.entries, IsPlain e) :
    query (Text.join [' '] ws ++ Directive.writtenOptions options) =
      .ok (Text.join [' '] ws, options) := by
  unfold query
  rw [splitOptions_written (split_queryWords hne hw h) (fun w hm => (hw w hm).noOption) h]
  exact if_neg (by simpa using hne)

end Instruction

/-! ## Blanks around words -/

namespace Words

/-- Where no quote is open, there is none of another kind. -/
theorem closed (c : Char) (h : none = some c) : IsQuote c := nomatch h

theorem scan_concat_blank {q : Option Char} {b : Char} (hb : Text.isBlank b = true)
    (hq : ∀ c, q = some c → IsQuote c) (word : Option Text) (t : Text) :
    scan q word (t ++ [b]) = scan q word t := by
  induction t generalizing q word with
  | nil =>
    cases q with
    | some q =>
      have hne : b ≠ q := by
        rintro rfl
        rcases hq b rfl with rfl | rfl <;> exact absurd hb (by decide)
      rw [List.nil_append, scan_inside hne]
      rfl
    | none =>
      rw [List.nil_append, scan_blank hb]
      change some (finish word ++ []) = some (finish word)
      rw [List.append_nil]
  | cons c t ih =>
    rw [List.cons_append]
    cases q with
    | some q =>
      by_cases hc : c = q
      · subst hc
        rw [scan_close, scan_close, ih closed]
      · rw [scan_inside hc, scan_inside hc, ih hq]
    | none =>
      by_cases hc : IsQuote c
      · rw [scan_open hc, scan_open hc, ih]
        intro d hd
        cases hd
        exact hc
      · cases hblank : Text.isBlank c with
        | true => rw [scan_blank hblank, scan_blank hblank, ih closed]
        | false => rw [scan_plain hc hblank, scan_plain hc hblank, ih closed]

/-- Blanks around a value do not matter to its words. -/
theorem split_trim (t : Text) : split? (Text.trim t) = split? t := by
  have hend (t : Text) : split? (Text.trimEnd t) = split? t := by
    rw [Text.trimEnd_eq]
    induction t using List.reverseRecOn with
    | nil => rfl
    | append_singleton before b ih =>
      by_cases hb : Text.isBlank b = true
      · rw [List.rdropWhile_concat_pos _ _ _ hb, ih, split?, split?, scan_concat_blank hb closed]
      · rw [List.rdropWhile_concat_neg _ _ _ hb]
  have hstart (t : Text) : split? (Text.trimStart t) = split? t := by
    unfold Text.trimStart
    induction t with
    | nil => rfl
    | cons b t ih =>
      by_cases hb : Text.isBlank b = true
      · rw [List.dropWhile_cons_of_pos hb, ih, split?, split?, scan_blank hb]
        change _ = Option.map (fun ws => ws) _
        rw [Option.map_id']
      · rw [List.dropWhile_cons_of_neg hb]
  rw [Text.trim, hend, hstart]

end Words

theorem Instruction.query_trim (t : Text) : query (Text.trim t) = query t := by
  unfold query splitOptions Words.split
  rw [Words.split_trim]

end ConversationFlow
