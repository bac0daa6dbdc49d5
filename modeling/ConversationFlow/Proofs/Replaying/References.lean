import ConversationFlow.Proofs.Context.Grammar
import ConversationFlow.Proofs.Replaying.Checks

/-!
# References that a merged turn keeps as text

A merged turn keeps the references of a step as one text, with blanks between them, and splits it
at its blanks again. A reference that holds a blank falls apart. Blanks around a reference do not
matter, since a reference is read without them. In all other cases the excerpts differ wherever
there are excerpts: the first word of the reference names a shorter path, and each excerpt begins
with the path that it is taken from. An error is told apart by what it is about, which is the
reference itself or a path that ends with that of the reference.

A step may fail behind a reference that falls apart and whose words are shown: whether a merged
turn then fails with the same error is left open.
-/

namespace ConversationFlow

/-! ## Words of texts that are put together -/

namespace Text

theorem words_append_blank {b : Char} (hb : isBlank b = true) (s t : Text) :
    words (s ++ b :: t) = words s ++ words t := by
  unfold words
  rw [List.splitOnP_append_cons s t hb, List.filter_append]

/-- The words of texts with blanks between them are the words of each. -/
theorem words_join_eq_flatMap (ts : List Text) : words (join [' '] ts) = ts.flatMap words := by
  unfold join
  induction ts with
  | nil => rfl
  | cons t ts ih =>
    cases ts with
    | nil => simp
    | cons u ts =>
      rw [List.intercalate_cons_cons, List.append_assoc, List.singleton_append,
        words_append_blank (by decide), ih]
      rfl

theorem join_cons_eq_flatMap (sep t : Text) (ts : List Text) :
    join sep (t :: ts) = t ++ ts.flatMap (sep ++ ·) := by
  unfold join
  induction ts generalizing t with
  | nil => simp
  | cons u ts ih =>
    rw [List.intercalate_cons_cons, ih u, List.flatMap_cons]
    simp only [List.append_assoc]

theorem flatMap_eq_of_join_eq {sep : Text} {ts us : List Text} (ht : ts ≠ []) (hu : us ≠ [])
    (h : join sep ts = join sep us) : ts.flatMap (sep ++ ·) = us.flatMap (sep ++ ·) := by
  obtain ⟨t, ts, rfl⟩ := List.exists_cons_of_ne_nil ht
  obtain ⟨u, us, rfl⟩ := List.exists_cons_of_ne_nil hu
  rw [join_cons_eq_flatMap, join_cons_eq_flatMap] at h
  rw [List.flatMap_cons, List.flatMap_cons, List.append_assoc, List.append_assoc, h]

theorem words_trim (t : Text) : words (trim t) = words t := by
  have hend (t : Text) : words (trimEnd t) = words t := by
    rw [trimEnd_eq]
    induction t using List.reverseRecOn with
    | nil => rfl
    | append_singleton before b ih =>
      by_cases hb : isBlank b = true
      · rw [List.rdropWhile_concat_pos _ _ _ hb, ih, words_append_blank hb]
        exact (List.append_nil _).symm
      · rw [List.rdropWhile_concat_neg _ _ _ hb]
  have hstart (t : Text) : words (trimStart t) = words t := by
    unfold trimStart
    induction t with
    | nil => rfl
    | cons b t ih =>
      by_cases hb : isBlank b = true
      · rw [List.dropWhile_cons_of_pos hb, ih]
        exact (words_append_blank hb [] t).symm
      · rw [List.dropWhile_cons_of_neg hb]
  rw [trim, hend, hstart]

theorem trim_of_isPiece {w : Text} (h : IsPiece isBlank w) : trim w = w := by
  rw [trim_eq_self_iff]
  exact ⟨fun c hc => h.2 c (List.mem_of_head? hc), fun c hc => h.2 c (List.mem_of_getLast? hc)⟩

/-- A text that is one word apart from blanks around it is that word. -/
theorem words_of_isPiece_trim {t : Text} (h : IsPiece isBlank (trim t)) : words t = [trim t] := by
  rw [← words_trim]
  exact pieces_of_isPiece h

/-- Texts are taken apart to themselves if and only if each of them is a word. -/
theorem words_join_eq_self_iff {ts : List Text} :
    words (join [' '] ts) = ts ↔ ∀ t ∈ ts, IsPiece isBlank t := by
  constructor
  · intro h t ht
    rw [← h] at ht
    exact (isPiece_of_mem ht).1
  · exact Instruction.words_join

/-- A text of several words begins with the first, and a blank behind it. -/
theorem first_word {t : Text} (hne : trim t ≠ []) (h : ¬IsPiece isBlank (trim t)) :
    ∃ w b rest, IsPiece isBlank w ∧ isBlank b = true ∧ trim t = w ++ b :: rest := by
  have hsplit := List.takeWhile_append_dropWhile (p := fun c => !isBlank c) (l := trim t)
  cases hrest : (trim t).dropWhile fun c => !isBlank c with
  | nil =>
    refine absurd ⟨hne, fun c hc => ?_⟩ h
    simpa using List.dropWhile_eq_nil_iff.mp hrest c hc
  | cons b rest =>
    have hb : isBlank b = true := by
      have hhead := List.head?_dropWhile_not (fun c => !isBlank c) (trim t)
      rw [hrest] at hhead
      simpa using hhead
    refine ⟨(trim t).takeWhile fun c => !isBlank c, b, rest, ⟨fun hnil => ?_, fun c hc => ?_⟩,
      hb, ?_⟩
    · rw [hnil, hrest, List.nil_append] at hsplit
      have hstart : isBlank b = false := head_trim (t := t) (by rw [← hsplit]; rfl)
      rw [hb] at hstart
      cases hstart
    · simpa using List.mem_takeWhile_imp hc
    · rw [← hrest, hsplit]

theorem words_eq_of_first_word {t w rest : Text} {b : Char} (ht : trim t = w ++ b :: rest)
    (hw : IsPiece isBlank w) (hb : isBlank b = true) : words t = w :: words rest := by
  rw [← words_trim, ht, words_append_blank hb]
  exact congrArg (· ++ words rest) (pieces_of_isPiece hw)

theorem words_ne_nil {t : Text} (h : trim t ≠ []) : words t ≠ [] := by
  by_cases hpiece : IsPiece isBlank (trim t)
  · rw [words_of_isPiece_trim hpiece]
    exact List.cons_ne_nil _ _
  · obtain ⟨w, b, rest, hw, hb, ht⟩ := first_word h hpiece
    rw [words_eq_of_first_word ht hw hb]
    exact List.cons_ne_nil _ _

end Text

/-! ## References -/

namespace Reference

theorem read_trim (reference : Text) : read (Text.trim reference) = read reference := by
  unfold read
  rw [Text.trim_trim]

theorem excerpt_trim (fs : FileSystem) (cwd dir : Path) (reference : Text) :
    excerpt fs cwd dir (Text.trim reference) = excerpt fs cwd dir reference := by
  unfold excerpt
  rw [read_trim]

/-- What a reference is read from: a path alone, or a path, the sign and a range. -/
theorem read_cases {reference : Text} {r : Reference} (h : read reference = .ok r) :
    (r.raw = Text.trim reference ∧ r.path ≠ [] ∧ '#' ∉ r.path) ∧
      (((Text.trim reference).dropWhile (· = '@') = r.path ∧ r.first = none) ∨
        ∃ t n m, (Text.trim reference).dropWhile (· = '@') = r.path ++ '#' :: t ∧
          IsRange t n m) := by
  obtain ⟨hraw, hnames⟩ := names_of_read h
  unfold body at hnames
  generalize (Text.trim reference).dropWhile (· = '@') = text at hnames ⊢
  obtain ⟨raw, path, first, last⟩ := r
  cases hnames with
  | file nonempty plain => exact ⟨⟨hraw, nonempty, plain⟩, .inl ⟨rfl, rfl⟩⟩
  | lines nonempty plain range => exact ⟨⟨hraw, nonempty, plain⟩, .inr ⟨_, _, _, rfl, range⟩⟩

/-- A path goes on behind a blank, for what stands behind the sign holds none. -/
theorem path_through_blank {reference start rest : Text} {b : Char} {r : Reference}
    (h : read reference = .ok r) (hb : Text.isBlank b = true)
    (body : (Text.trim reference).dropWhile (· = '@') = start ++ b :: rest) :
    start ++ [b] <+: r.path ∧ '#' ∉ start := by
  have hhash : b ≠ '#' := by rintro rfl; exact absurd hb (by decide)
  obtain ⟨⟨-, -, hno⟩, ⟨hpath, -⟩ | ⟨t, n, m, hpath, hrange⟩⟩ := read_cases h
  · rw [body] at hpath
    rw [← hpath] at hno ⊢
    exact ⟨⟨rest, by simp⟩, fun hm => hno (List.mem_append_left _ hm)⟩
  · rw [body] at hpath
    rcases List.append_eq_append_iff.mp hpath with ⟨more, hr, hmore⟩ | ⟨more, -, hmore⟩
    · cases more with
      | nil => exact absurd (List.head_eq_of_cons_eq hmore) hhash
      | cons d more =>
        obtain rfl := List.head_eq_of_cons_eq hmore
        rw [hr] at hno ⊢
        exact ⟨⟨more, by simp⟩, fun hm => hno (List.mem_append_left _ hm)⟩
    · cases more with
      | nil => exact absurd (List.head_eq_of_cons_eq hmore).symm hhash
      | cons d more =>
        have hin : b ∈ t := by
          rw [List.tail_eq_of_cons_eq hmore]
          exact List.mem_append_right _ List.mem_cons_self
        rw [hrange.noBlank _ hin] at hb
        cases hb

/-- A reference of several words names a longer path than its first word, which names no lines. -/
theorem read_first_word {reference w rest : Text} {b : Char} {r : Reference}
    (h : read reference = .ok r) (ht : Text.trim reference = w ++ b :: rest)
    (hw : Text.IsPiece Text.isBlank w) (hb : Text.isBlank b = true) :
    w.dropWhile (· = '@') ++ [b] <+: r.path ∧
      ∀ r', read w = .ok r' → r'.path = w.dropWhile (· = '@') ∧ r'.first = none := by
  have hat : b ≠ '@' := by rintro rfl; exact absurd hb (by decide)
  have body : (Text.trim reference).dropWhile (· = '@') = w.dropWhile (· = '@') ++ b :: rest := by
    rw [ht, List.dropWhile_append]
    split
    · next hall =>
      rw [List.isEmpty_iff.mp hall, List.dropWhile_cons_of_neg (by simpa using hat)]
      rfl
    · rfl
  obtain ⟨longer, hno⟩ := path_through_blank h hb body
  refine ⟨longer, fun r' hr' => ?_⟩
  obtain ⟨-, ⟨hpath, hfirst⟩ | ⟨t, -, -, hpath, -⟩⟩ := read_cases hr'
  · rw [Text.trim_of_isPiece hw] at hpath
    exact ⟨hpath.symm, hfirst⟩
  · rw [Text.trim_of_isPiece hw] at hpath
    refine absurd ?_ hno
    rw [hpath]
    exact List.mem_append_right _ List.mem_cons_self

/-- The path of a reference is one word if and only if the reference is, apart from blanks around
it. -/
theorem isPiece_path_iff {reference : Text} {r : Reference} (h : read reference = .ok r) :
    Text.IsPiece Text.isBlank r.path ↔ Text.IsPiece Text.isBlank (Text.trim reference) := by
  obtain ⟨⟨-, hne, -⟩, hbody⟩ := read_cases h
  have split := List.takeWhile_append_dropWhile (p := (· = '@')) (l := Text.trim reference)
  have within : ∀ c ∈ r.path, c ∈ Text.trim reference := by
    intro c hc
    rw [← split]
    refine List.mem_append_right _ ?_
    obtain ⟨hbody, -⟩ | ⟨t, -, -, hbody, -⟩ := hbody
    · rwa [hbody]
    · rw [hbody]
      exact List.mem_append_left _ hc
  constructor
  · intro hpath
    refine ⟨?_, fun c hc => ?_⟩
    · obtain ⟨c, hc⟩ := List.exists_mem_of_ne_nil _ hne
      exact List.ne_nil_of_mem (within c hc)
    rw [← split] at hc
    rcases List.mem_append.mp hc with hc | hc
    · have hat : c = '@' := by simpa using List.mem_takeWhile_imp hc
      rw [hat]
      decide
    · obtain ⟨hbody, -⟩ | ⟨t, n, m, hbody, hrange⟩ := hbody
      · rw [hbody] at hc
        exact hpath.2 c hc
      · rw [hbody] at hc
        rcases List.mem_append.mp hc with hc | hc
        · exact hpath.2 c hc
        rcases List.mem_cons.mp hc with rfl | hc
        · decide
        · exact hrange.noBlank c hc
  · exact fun hall => ⟨hne, fun c hc => hall.2 c (within c hc)⟩

end Reference

/-! ## Excerpts and errors -/

/-- The path or the text that an error is about. -/
def ContextError.subject : ContextError → Text
  | .missingFiles patterns => Text.join ", " patterns
  | .fileNotFound path | .io path _ => path.text
  | .invalidPattern text _ | .invalidRange text _ => text

theorem Path.text_join (p q : Path) :
    ∃ start, (p.join q).text = start ++ q.text ∧ ∀ c ∈ start, c ∈ p.text ∨ c = '/' := by
  unfold join
  split
  · exact ⟨[], rfl, nofun⟩
  · split
    · exact ⟨p.text, rfl, fun c hc => .inl hc⟩
    · exact ⟨p.text ++ ['/'], by simp, fun c hc => by simpa using hc⟩

namespace Reference

variable {fs : FileSystem} {cwd dir : Path} {reference : Text}

theorem subject_of_read {e : ContextError} (h : read reference = .error e) :
    e.subject = Text.trim reference := by
  unfold read at h
  dsimp only at h
  split at h
  · split at h
    · cases h
      rfl
    · split at h <;> cases h
      rfl
  · split at h
    · cases h
      rfl
    · split at h <;> cases h
      rfl

theorem exists_join_of_locate {r : Reference} {p : Path} (h : r.locate fs cwd dir = .ok p) :
    ∃ base ∈ [cwd, dir], p = base.join ⟨r.path⟩ := by
  unfold locate at h
  dsimp only at h
  split at h
  · next q hfound =>
    cases h
    have hp := List.mem_of_find?_eq_some hfound
    split at hp
    · next habsolute =>
      refine ⟨cwd, List.mem_cons_self, ?_⟩
      rw [List.mem_singleton.mp hp, Path.join, habsolute]
      rfl
    · rcases List.mem_cons.mp hp with rfl | hp
      · exact ⟨cwd, List.mem_cons_self, rfl⟩
      · exact ⟨dir, List.mem_cons_of_mem _ List.mem_cons_self, List.mem_singleton.mp hp⟩
  · cases h

/-- An error is about the reference as it is written, or about a path at which its file is
looked for. -/
theorem subject_of_excerpt {e : ContextError} (h : excerpt fs cwd dir reference = .error e) :
    e.subject = Text.trim reference ∨ ∃ r, read reference = .ok r ∧
      ∃ base ∈ [cwd, dir], e.subject = (base.join ⟨r.path⟩).text := by
  unfold excerpt at h
  rcases error_of_bind h with hr | ⟨r, hr, h⟩
  · exact .inl (subject_of_read hr)
  rcases error_of_bind h with hp | ⟨p, hp, h⟩
  · refine .inr ⟨r, hr, cwd, List.mem_cons_self, ?_⟩
    unfold locate at hp
    dsimp only at hp
    split at hp
    · cases hp
    · cases hp
      rfl
  · obtain ⟨base, hbase, rfl⟩ := exists_join_of_locate hp
    split at h
    · cases h
      exact .inr ⟨r, hr, base, hbase, rfl⟩
    · dsimp only at h
      split at h
      · cases h
      · cases h
        exact .inl (read_cases hr).1.1

/-- In directories whose paths hold no blanks, an error is about one word if and only if its
reference is one word apart from blanks around it. -/
theorem isPiece_subject_iff {e : ContextError} (h : excerpt fs cwd dir reference = .error e)
    (plain : ∀ base ∈ [cwd, dir], ∀ c ∈ base.text, Text.isBlank c = false) :
    Text.IsPiece Text.isBlank e.subject ↔ Text.IsPiece Text.isBlank (Text.trim reference) := by
  rcases subject_of_excerpt h with hs | ⟨r, hr, base, hbase, hs⟩
  · rw [hs]
  · obtain ⟨start, ht, hstart⟩ := base.text_join ⟨r.path⟩
    have hne := (read_cases hr).1.2.1
    rw [hs, ht, ← isPiece_path_iff hr]
    constructor
    · exact fun hall => ⟨hne, fun c hc => hall.2 c (List.mem_append_right _ hc)⟩
    · refine fun hall => ⟨List.append_ne_nil_of_right_ne_nil _ hne, fun c hc => ?_⟩
      rcases List.mem_append.mp hc with hc | hc
      · rcases hstart c hc with hc | rfl
        · exact plain base hbase c hc
        · decide
      · exact hall.2 c hc

/-- An excerpt begins with the path that it is taken from, and with nothing else on this line where
no lines are named. -/
theorem header_of_excerptOf {r : Reference} {lines : List Text} {text : Text}
    (h : r.excerptOf? lines = some text) :
    "### ".toList ++ r.path <+: text ∧
      (r.first = none → "### ".toList ++ r.path ++ ['\n'] <+: text) := by
  unfold excerptOf? at h
  dsimp only at h
  split at h
  · cases h
  cases hfirst : r.first with
  | none =>
    rw [hfirst] at h
    have alone : "### ".toList ++ r.path ++ ['\n'] <+: text := by
      rw [← Option.some.inj h]
      refine List.IsPrefix.trans ?_ (List.prefix_append _ _)
      refine List.IsPrefix.trans ?_ (List.prefix_append _ _)
      exact (List.prefix_append_right_inj _).mpr ⟨"```\n".toList, rfl⟩
    exact ⟨(List.prefix_append _ _).trans alone, fun _ => alone⟩
  | some n =>
    rw [hfirst] at h
    refine ⟨?_, nofun⟩
    rw [← Option.some.inj h]
    iterate 7 refine List.IsPrefix.trans ?_ (List.prefix_append _ _)
    exact List.prefix_append _ _

theorem header_of_excerpt {text : Text} (h : excerpt fs cwd dir reference = .ok text) :
    ∃ r, read reference = .ok r ∧ "### ".toList ++ r.path <+: text ∧
      (r.first = none → "### ".toList ++ r.path ++ ['\n'] <+: text) := by
  unfold excerpt at h
  obtain ⟨r, hr, h⟩ := exists_of_bind_ok h
  obtain ⟨p, -, h⟩ := exists_of_bind_ok h
  refine ⟨r, hr, ?_⟩
  split at h
  · cases h
  · dsimp only at h
    split at h
    · next t ht =>
      cases h
      exact header_of_excerptOf ht
    · cases h

/-- A reference of several words has another excerpt than its first word, whatever follows. -/
theorem excerpt_ne_of_first_word {first : Text} {text text' more more' : Text}
    (h : excerpt fs cwd dir reference = .ok text) (h' : excerpt fs cwd dir first = .ok text')
    {b : Char} {rest : Text} (ht : Text.trim reference = first ++ b :: rest)
    (hfirst : Text.IsPiece Text.isBlank first) (hb : Text.isBlank b = true)
    (oneLine : '\n' ∉ reference) : text ++ more ≠ text' ++ more' := by
  obtain ⟨r, hr, header, -⟩ := header_of_excerpt h
  obtain ⟨r', hr', -, header'⟩ := header_of_excerpt h'
  obtain ⟨longer, hpath⟩ := read_first_word hr ht hfirst hb
  obtain ⟨hpath, hlines⟩ := hpath r' hr'
  have header' := header' hlines
  rw [hpath] at header'
  intro same
  -- Behind the path of the word, one text has the blank and the other the end of the line.
  have blank : "### ".toList ++ (first.dropWhile (· = '@') ++ [b]) <+: text ++ more :=
    (((List.prefix_append_right_inj _).mpr longer).trans header).trans (List.prefix_append _ _)
  have newline := header'.trans (List.prefix_append _ more')
  rw [← List.append_assoc] at blank
  rw [← same] at newline
  have he := (List.prefix_of_prefix_length_le blank newline (by simp)).eq_of_length (by simp)
  have hnewline : b = '\n' := by simpa using List.append_cancel_left he
  refine oneLine ((Text.trim_sublist reference).mem ?_)
  rw [ht, hnewline]
  exact List.mem_append_right _ List.mem_cons_self

theorem trim_ne_nil_of_read {r : Reference} (h : read reference = .ok r) :
    Text.trim reference ≠ [] := by
  obtain ⟨⟨-, hne, -⟩, hbody⟩ := read_cases h
  intro hnil
  rw [hnil] at hbody
  obtain ⟨hbody, -⟩ | ⟨t, -, -, hbody, -⟩ := hbody
  · exact hne hbody.symm
  · exact List.append_ne_nil_of_left_ne_nil hne _ hbody.symm

/-- References whose words have the same excerpts are one word each, apart from blanks around
them. -/
theorem isPiece_of_same_excerpts {refs shown shown' : List Text}
    (h : refs.mapM (excerpt fs cwd dir) = .ok shown)
    (h' : (refs.flatMap Text.words).mapM (excerpt fs cwd dir) = .ok shown')
    (oneLine : ∀ t ∈ refs, '\n' ∉ t) (sep : Text)
    (same : shown.flatMap (sep ++ ·) = shown'.flatMap (sep ++ ·)) :
    ∀ t ∈ refs, Text.IsPiece Text.isBlank (Text.trim t) := by
  induction refs generalizing shown shown' with
  | nil => exact nofun
  | cons t refs ih =>
    obtain ⟨text, rest, ht, hrest, rfl⟩ := mapM_cons_ok h
    rw [List.flatMap_cons] at h'
    by_cases hpiece : Text.IsPiece Text.isBlank (Text.trim t)
    · rw [Text.words_of_isPiece_trim hpiece] at h'
      obtain ⟨text', rest', ht', hrest', rfl⟩ := mapM_cons_ok h'
      rw [excerpt_trim, ht] at ht'
      cases ht'
      rw [List.flatMap_cons, List.flatMap_cons, List.append_cancel_left_eq] at same
      rw [List.forall_mem_cons]
      exact ⟨hpiece, ih hrest hrest' (fun u hu => oneLine u (List.mem_cons_of_mem t hu)) same⟩
    · obtain ⟨r, hr, -⟩ := header_of_excerpt ht
      obtain ⟨w, b, behind, hw, hb, hsplit⟩ := Text.first_word (trim_ne_nil_of_read hr) hpiece
      rw [Text.words_eq_of_first_word hsplit hw hb, List.cons_append] at h'
      obtain ⟨text', rest', ht', -, rfl⟩ := mapM_cons_ok h'
      rw [List.flatMap_cons, List.flatMap_cons, List.append_assoc, List.append_assoc,
        List.append_cancel_left_eq] at same
      exact absurd same
        (excerpt_ne_of_first_word ht ht' hsplit hw hb (oneLine t List.mem_cons_self))

/-- References of one word each, apart from blanks around them, have the excerpts of their words. -/
theorem mapM_words {refs : List Text}
    (h : ∀ t ∈ refs, Text.IsPiece Text.isBlank (Text.trim t)) :
    (refs.flatMap Text.words).mapM (excerpt fs cwd dir) = refs.mapM (excerpt fs cwd dir) := by
  induction refs with
  | nil => rfl
  | cons t refs ih =>
    rw [List.forall_mem_cons] at h
    rw [List.flatMap_cons, Text.words_of_isPiece_trim h.1, List.singleton_append, List.mapM_cons,
      List.mapM_cons, excerpt_trim, ih h.2]

theorem excerpts_words {refs : List Text}
    (h : ∀ t ∈ refs, Text.IsPiece Text.isBlank (Text.trim t)) :
    excerpts fs cwd dir (refs.flatMap Text.words) = excerpts fs cwd dir refs := by
  unfold excerpts
  rw [mapM_words h]

theorem excerpts_append_error {before after : List Text} {e : ContextError}
    (h : excerpts fs cwd dir before = .error e) :
    excerpts fs cwd dir (before ++ after) = .error e := by
  unfold excerpts at h ⊢
  rcases error_of_bind h with hbefore | ⟨shown, -, h⟩
  · rw [List.mapM_append, hbefore]
    rfl
  · cases h

/-- The words of references that are shown are shown as the same text if and only if each reference
is one word, apart from blanks around it. -/
theorem excerpts_words_iff {refs : List Text} {text : Text} (hne : refs ≠ [])
    (oneLine : ∀ t ∈ refs, '\n' ∉ t) (h : excerpts fs cwd dir refs = .ok text) :
    excerpts fs cwd dir (refs.flatMap Text.words) = .ok text ↔
      ∀ t ∈ refs, Text.IsPiece Text.isBlank (Text.trim t) := by
  constructor
  · intro h'
    obtain ⟨shown, hshown, ht⟩ := exists_of_bind_ok h
    obtain ⟨shown', hshown', ht'⟩ := exists_of_bind_ok h'
    refine isPiece_of_same_excerpts hshown hshown' oneLine "\n\n"
      (Text.flatMap_eq_of_join_eq ?_ ?_ ?_)
    · obtain ⟨t, refs, rfl⟩ := List.exists_cons_of_ne_nil hne
      obtain ⟨_, _, -, -, rfl⟩ := mapM_cons_ok hshown
      exact List.cons_ne_nil _ _
    · obtain ⟨t, refs, rfl⟩ := List.exists_cons_of_ne_nil hne
      obtain ⟨_, _, hfirst, -, -⟩ := mapM_cons_ok hshown
      obtain ⟨r, hr, -⟩ := header_of_excerpt hfirst
      obtain ⟨w, ws, hw⟩ := List.exists_cons_of_ne_nil (Text.words_ne_nil (trim_ne_nil_of_read hr))
      rw [List.flatMap_cons, hw, List.cons_append] at hshown'
      obtain ⟨_, _, -, -, rfl⟩ := mapM_cons_ok hshown'
      exact List.cons_ne_nil _ _
    · exact Except.ok.inj (ht.trans ht'.symm)
  · intro hall
    rw [excerpts_words hall, h]

theorem exists_of_excerpts_error {refs : List Text} {e : ContextError}
    (h : excerpts fs cwd dir refs = .error e) : ∃ t ∈ refs, excerpt fs cwd dir t = .error e := by
  rcases error_of_bind h with hshown | ⟨shown, -, h⟩
  · exact exists_of_mapM_error hshown
  · cases h

/-! ## Replaying -/

/-- The references that a merged turn reads from the text that it keeps of a step's. -/
def reread (refs : List Text) : List Text := Text.words (Text.join [' '] refs)

/-- What comes of the text that a merged turn keeps for the references of a step. -/
structure Replayed (refs : List Text) : Prop where
  /-- In a turn that the step is a member of, its output is the excerpts of the references that are
  read from the text. -/
  kept : (Step.refcat refs).Leaves fun r _ => r.excerpts (reread refs)
  /-- These are the references of the step exactly if each of them is one word. -/
  list : reread refs = refs ↔ ∀ t ∈ refs, Text.IsPiece Text.isBlank t
  /-- If each reference is one word, apart from blanks around it, a merged turn shows what the step
  by itself shows, or fails as it does. -/
  same : (∀ t ∈ refs, Text.IsPiece Text.isBlank (Text.trim t)) →
    ∀ r : Run, r.excerpts (reread refs) = r.excerpts refs
  /-- One word each up to the first reference that fails is enough to fail as the step does. -/
  failing : ∀ (fs : FileSystem) (cwd dir : Path) (before after : List Text) (e : ContextError),
    refs = before ++ after → (∀ t ∈ before, Text.IsPiece Text.isBlank (Text.trim t)) →
      excerpts fs cwd dir before = .error e →
        excerpts fs cwd dir refs = .error e ∧ excerpts fs cwd dir (reread refs) = .error e
  /-- Where the step by itself shows its references, a merged turn shows the same exactly if each
  is one word, apart from blanks around it. -/
  shown : ∀ (fs : FileSystem) (cwd dir : Path) (text : Text),
    excerpts fs cwd dir refs = .ok text →
      (excerpts fs cwd dir (reread refs) = .ok text ↔
        ∀ t ∈ refs, Text.IsPiece Text.isBlank (Text.trim t))
  /-- The error of a reference of no word or of several is not that of a merged turn, unless the
  path of a directory holds a blank. -/
  failed : ∀ (fs : FileSystem) (cwd dir : Path),
    (∀ base ∈ [cwd, dir], ∀ c ∈ base.text, Text.isBlank c = false) →
      ∀ t ∈ refs, ¬Text.IsPiece Text.isBlank (Text.trim t) → ∀ e,
        excerpt fs cwd dir t = .error e → excerpts fs cwd dir (reread refs) ≠ .error e

end Reference

namespace Compiled

variable {fs : FileSystem} {registry : Registry} {c : Compiled} {events : List Event}

/-- The references that a merged turn reads again, for a step of a compiled conversation, are those
of the step exactly if each is one word, and show the same exactly if each is one word apart from
blanks around it. -/
theorem references_replayed (h : c.IsMadeOf fs registry events) {refs : List Text}
    (hs : .refcat refs ∈ c.steps.flatMap Step.family) : Reference.Replayed refs := by
  obtain ⟨hne, oneLine⟩ := head_of_family h.wellFormed hs
  have words (ts : List Text) : Reference.reread ts = ts.flatMap Text.words :=
    Text.words_join_eq_flatMap ts
  constructor
  · exact Run.leaves_filling rfl
  · exact Text.words_join_eq_self_iff
  · intro hall r
    unfold Run.excerpts
    rw [words]
    simp only [Reference.excerpts_words hall]
  · rintro fs' cwd dir before after e rfl hall he
    refine ⟨Reference.excerpts_append_error he, ?_⟩
    rw [words, List.flatMap_append]
    refine Reference.excerpts_append_error ?_
    rw [Reference.excerpts_words hall, he]
  · intro fs' cwd dir text htext
    rw [words]
    exact Reference.excerpts_words_iff hne oneLine htext
  · intro fs' cwd dir plain t ht hno e he hsame
    obtain ⟨w, hw, hew⟩ := Reference.exists_of_excerpts_error hsame
    obtain ⟨hpiece, -⟩ := Text.isPiece_of_mem hw
    refine hno ((Reference.isPiece_subject_iff he plain).mp ?_)
    rw [Reference.isPiece_subject_iff hew plain, Text.trim_of_isPiece hpiece]
    exact hpiece

/-- A directory with a file whose name holds a blank. -/
def notes : FileSystem :=
  ⟨[], [(["my notes.md".toList], .file (Text.toBytes "x\n"))], [], []⟩

/-- A reference between quotes is shown by itself and falls apart in a turn. -/
theorem quoted_reference_falls_apart :
    ∃ c, ofText notes .empty "REFCAT \"my notes.md\"".toList = .ok c ∧
      c.steps = [.refcat ["my notes.md".toList]] ∧
      Reference.excerpts notes "" "" ["my notes.md".toList] =
        .ok "### my notes.md\n```\n1 | x\n```".toList ∧
      Reference.excerpts notes "" "" (Reference.reread ["my notes.md".toList]) ≠
        .ok "### my notes.md\n```\n1 | x\n```".toList := by
  have hc : ofText notes .empty "REFCAT \"my notes.md\"".toList =
      .ok ⟨{ refcatRefs := ["my notes.md".toList] }, [.refcat ["my notes.md".toList]], none⟩ := by
    cbv
  have shown : Reference.excerpts notes "" "" ["my notes.md".toList] =
      .ok "### my notes.md\n```\n1 | x\n```".toList := rfl
  have replayed := references_replayed (.text hc) List.mem_cons_self
  refine ⟨_, hc, rfl, shown, fun same => ?_⟩
  have pieces := (replayed.shown _ _ _ _ shown).mp same
  exact absurd (pieces _ List.mem_cons_self) (by decide)

end Compiled

end ConversationFlow
