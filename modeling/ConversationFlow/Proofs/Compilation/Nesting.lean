import ConversationFlow.Proofs.Compilation.Clauses

/-!
# Files inside files

The stream of events is flat, and the files that it comes from are marks in it.
`Event.Expands` is the recursion behind the stream, in which an INCLUDE has the events of its file
for a part and all the ways in which a directive ends the stream have names. `Draft.Reads` follows a
compilation that succeeds along the same lines. That the recursion ends is not shown here: the
definition of the stream has shown it.
-/

namespace ConversationFlow

theorem IncludeStack.push_ok_iff {stack opened : List Location} {l : Location} :
    push stack l = .ok opened ↔ l ∉ stack ∧ opened = stack ++ [l] := by
  unfold push
  split
  · next h =>
    have hm : l ∈ stack := by simpa using h
    exact ⟨fun he => (by cases he), fun he => absurd hm he.1⟩
  · next h =>
    have hm : l ∉ stack := by simpa using h
    exact ⟨fun he => ⟨hm, (Except.ok.inj he).symm⟩, fun he => by rw [he.2]⟩

/-- An INCLUDE that can be followed, with these files open: the file that it names is found, is
none of them, and can be read. -/
structure Inclusion (src : Sources) (stack : List Location) (file : Option Path)
    (x : Directive) where
  target : Text
  location : Location
  text : Text
  named : x.instruction file = .ok (.includeFile target)
  located : src.locate (Event.includePath file target) = .ok location
  fresh : location ∉ stack
  read : src.textAt location = .ok text

namespace Inclusion

variable {src : Sources} {stack : List Location} {file : Option Path} {x : Directive}

def path (i : Inclusion src stack file x) : Path := Event.includePath file i.target

/-- The files that are open while this one is read. -/
def opened (i : Inclusion src stack file x) : List Location := stack ++ [i.location]

def directives (i : Inclusion src stack file x) (registry : Registry) : List Directive :=
  Directive.ofDocument registry i.text

theorem unique (i j : Inclusion src stack file x) : i = j := by
  obtain ⟨target, l, text, hn, hl, -, ht⟩ := i
  obtain ⟨target', l', text', hn', hl', -, ht'⟩ := j
  obtain rfl := Instruction.includeFile.inj (Except.ok.inj (hn.symm.trans hn'))
  obtain rfl := Except.ok.inj (hl.symm.trans hl')
  obtain rfl := Except.ok.inj (ht.symm.trans ht')
  rfl

theorem readText (i : Inclusion src stack file x) : src.readText i.path = .ok i.text := by
  unfold Sources.readText path
  rw [i.located]
  exact i.read

theorem events (i : Inclusion src stack file x) (registry : Registry) (ds : List Directive) :
    Event.ofDirectives src registry stack file (x :: ds) =
      .enter :: Event.ofDirectives src registry i.opened (some i.path) (i.directives registry)
        ++ .leave :: Event.ofDirectives src registry stack file ds :=
  Event.ofDirectives_include i.named i.located (IncludeStack.push_ok_iff.mpr ⟨i.fresh, rfl⟩) i.read

end Inclusion

namespace Event

/-- Why the stream ends at a directive, with these files open. -/
inductive Stops (src : Sources) (stack : List Location) (file : Option Path) (x : Directive) :
    CompileError → Prop where
  | refused {e : ParseError} : x.instruction file = .error e → Stops src stack file x (.parse e)
  | missing {target : Text} {e : FileError} : x.instruction file = .ok (.includeFile target) →
      src.locate (includePath file target) = .error e →
      Stops src stack file x (.fileNotFound (includePath file target) (some ⟨file, x.line⟩))
  | cycle {target : Text} {l : Location} {chain : List Location} :
      x.instruction file = .ok (.includeFile target) → src.locate (includePath file target) = .ok l →
      IncludeStack.push stack l = .error chain →
      Stops src stack file x (.parse (.includeCycle ⟨file, x.line⟩ (chain.map Location.path)))
  | unreadable {target : Text} {l : Location} {e : FileError} :
      x.instruction file = .ok (.includeFile target) → src.locate (includePath file target) = .ok l →
      src.textAt l = .error e → Stops src stack file x (.io (includePath file target) e)

/-- The events of some directives, file by file. -/
inductive Expands (src : Sources) (registry : Registry) :
    List Location → Option Path → List Directive → List Event → Prop where
  | done {stack : List Location} {file : Option Path} : Expands src registry stack file [] []
  | stopped {stack : List Location} {file : Option Path} {x : Directive} {ds : List Directive}
      {e : CompileError} : Stops src stack file x e →
      Expands src registry stack file (x :: ds) [.fail e]
  | plain {stack : List Location} {file : Option Path} {x : Directive} {ds : List Directive}
      {i : Instruction} {rest : List Event} :
      x.instruction file = .ok i → i.ReadsNoFile → Expands src registry stack file ds rest →
      Expands src registry stack file (x :: ds) (.instruction ⟨file, x.line⟩ i :: rest)
  | included {stack : List Location} {file : Option Path} {x : Directive} {ds : List Directive}
      {inside rest : List Event} (i : Inclusion src stack file x) :
      Expands src registry i.opened (some i.path) (i.directives registry) inside →
      Expands src registry stack file ds rest →
      Expands src registry stack file (x :: ds) (.enter :: (inside ++ .leave :: rest))

/-- The stream of some directives is what they expand to. -/
theorem expands_ofDirectives (src : Sources) (registry : Registry) (stack : List Location)
    (file : Option Path) (ds : List Directive) :
    Expands src registry stack file ds (ofDirectives src registry stack file ds) := by
  induction stack, file, ds using ofDirectives.induct src registry with
  | case1 stack file =>
    rw [ofDirectives]
    exact .done
  | case2 stack file x ds e hx =>
    rw [ofDirectives, hx]
    exact .stopped (.refused hx)
  | case3 stack file x ds target hx path e hl =>
    rw [ofDirectives, hx]
    simp only [path] at hl
    simp only [hl]
    exact .stopped (.missing hx hl)
  | case4 stack file x ds target hx path l hl chain hp =>
    rw [ofDirectives, hx]
    simp only [path] at hl
    simp only [hl]
    split
    · next hp' =>
      obtain rfl := Except.error.inj (hp.symm.trans hp')
      exact .stopped (.cycle hx hl hp)
    · next ho => cases hp.symm.trans ho
  | case5 stack file x ds target hx path l hl opened hp e ht =>
    rw [ofDirectives, hx]
    simp only [path] at hl
    simp only [hl]
    split
    · next hc => cases hp.symm.trans hc
    · split
      · next ht' =>
        obtain rfl := Except.error.inj (ht.symm.trans ht')
        exact .stopped (.unreadable hx hl ht)
      · next ht' => cases ht.symm.trans ht'
  | case6 stack file x ds target hx path l hl opened hp text ht inFile inRest =>
    obtain ⟨hfresh, rfl⟩ := IncludeStack.push_ok_iff.mp hp
    let i : Inclusion src stack file x := ⟨target, l, text, hx, hl, hfresh, ht⟩
    rw [i.events, List.cons_append]
    exact .included i inFile inRest
  | case7 stack file x ds j hj hx inRest =>
    have hno : j.ReadsNoFile := fun target ht => hj target ht
    rw [ofDirectives_plain hx hno]
    exact .plain hx hno inRest

end Event

namespace Draft

/-- Reading the directives of a file makes one draft of another. -/
inductive Reads (src : Sources) (registry : Registry) :
    List Location → Option Path → List Directive → Draft → Draft → Prop where
  | done {stack : List Location} {file : Option Path} {d : Draft} : Reads src registry stack file [] d d
  | plain {stack : List Location} {file : Option Path} {x : Directive} {ds : List Directive}
      {i : Instruction} {d next d' : Draft} :
      x.instruction file = .ok i → i.ReadsNoFile → d.apply ⟨file, x.line⟩ i = .ok next →
      Reads src registry stack file ds next d' → Reads src registry stack file (x :: ds) d d'
  | included {stack : List Location} {file : Option Path} {x : Directive} {ds : List Directive}
      {d start inside left d' : Draft} (i : Inclusion src stack file x) :
      d.feed .enter = .ok start →
      Reads src registry i.opened (some i.path) (i.directives registry) start inside →
      inside.feed .leave = .ok left →
      Reads src registry stack file ds left d' → Reads src registry stack file (x :: ds) d d'

variable {src : Sources} {registry : Registry} {stack : List Location} {file : Option Path}
  {ds : List Directive} {d d' : Draft}

theorem run_append_ok {before after : List Event} (h : d.run (before ++ after) = .ok d') :
    ∃ next, d.run before = .ok next ∧ next.run after = .ok d' := by
  unfold run at h
  rw [List.foldlM_append] at h
  exact exists_of_bind_ok h

theorem feed_instruction_ok {line : SourceLine} {i : Instruction}
    (h : d.feed (.instruction line i) = .ok d') : d.apply line i = .ok d' := by
  obtain ⟨_, _, he, ha⟩ | ⟨he | he, -⟩ := feed_ok h
  · obtain ⟨rfl, rfl⟩ := Event.instruction.inj he
    exact ha
  · cases he
  · cases he

/-- A file ends without a block of its own, and the block that is open is the one before the file. -/
theorem feed_leave_ok (h : d.feed .leave = .ok d') :
    d' = { d with entered := d.entered.tail } ∧
      ∀ b, d.block = some b → (d.entered.headD none == some b.line) = true := by
  simp only [feed] at h
  split at h
  · next b hb =>
    split at h
    · next hline =>
      cases h
      refine ⟨rfl, fun c hc => ?_⟩
      cases hb.symm.trans hc
      exact hline
    · cases h
  · next hb =>
    cases h
    exact ⟨rfl, fun c hc => by cases hb.symm.trans hc⟩

theorem withTarget_entered (d : Draft) (steps : List Step) :
    (d.withTarget steps).entered = d.entered := by
  unfold withTarget
  cases d.block <;> rfl

theorem apply_entered {line : SourceLine} {i : Instruction} (h : d.apply line i = .ok d') :
    d'.entered = d.entered := by
  cases i with
  | configure change | includeFile target =>
    cases h
    rfl
  | prologue text | epilogue text =>
    simp only [apply] at h
    split at h <;> cases h <;> rfl
  | step s change =>
    cases h
    exact withTarget_entered _ _
  | retry count prompt =>
    obtain ⟨before, c, f, s, -, rfl⟩ := retry_ok h
    exact d.withTarget_entered _
  | human consult message =>
    cases h
    unfold human
    split
    · exact d.withTarget_entered _
    · cases consult <;> rfl
  | openBlock kind =>
    obtain ⟨-, rfl, -⟩ := openBlock_ok h
    rfl
  | closeBlock =>
    obtain ⟨b, -, ⟨before, owner, -, rfl⟩ | ⟨-, rfl⟩⟩ := closeBlock_ok h <;> rfl

/-- Every file that is entered is left again. -/
theorem Reads.entered (h : Reads src registry stack file ds d d') : d'.entered = d.entered := by
  induction h with
  | done => rfl
  | plain _ _ ha _ ih => rw [ih, apply_entered ha]
  | included _ hs _ hl _ inFile inRest =>
    cases hs
    obtain ⟨rfl, -⟩ := feed_leave_ok hl
    rw [inRest]
    change List.tail _ = _
    rw [inFile]
    rfl

theorem reads_of_expands {events : List Event} (h : Event.Expands src registry stack file ds events)
    (hr : d.run events = .ok d') : Reads src registry stack file ds d d' := by
  induction h generalizing d d' with
  | done =>
    cases hr
    exact .done
  | stopped _ => cases hr
  | plain hx hno _ ih =>
    obtain ⟨next, hf, hr⟩ := run_cons_ok hr
    exact .plain hx hno (feed_instruction_ok hf) (ih hr)
  | included i _ _ inFile inRest =>
    obtain ⟨start, hstart, hr⟩ := run_cons_ok hr
    obtain ⟨inside, hinside, hr⟩ := run_append_ok hr
    obtain ⟨left, hleft, hr⟩ := run_cons_ok hr
    exact .included i hstart (inFile hinside) hleft (inRest hr)

/-- Every run over the stream of some directives that succeeds is such a reading of them. -/
theorem reads_of_run (h : d.run (Event.ofDirectives src registry stack file ds) = .ok d') :
    Reads src registry stack file ds d d' :=
  reads_of_expands (Event.expands_ofDirectives src registry stack file ds) h

theorem feed_of_apply {line : SourceLine} {i : Instruction} (h : d.apply line i = .ok d') :
    d.feed (.instruction line i) = .ok d' := by
  simp only [feed, h]

theorem run_cons_of_ok {e : Event} {next : Draft} (h : d.feed e = .ok next) (events : List Event) :
    d.run (e :: events) = next.run events := by
  rw [run, List.foldlM_cons, h]
  rfl

theorem run_append_of_ok {before : List Event} {next : Draft} (h : d.run before = .ok next)
    (after : List Event) : d.run (before ++ after) = next.run after := by
  rw [run, List.foldlM_append, show before.foldlM feed d = .ok next from h]
  rfl

theorem Reads.run (h : Reads src registry stack file ds d d') :
    d.run (Event.ofDirectives src registry stack file ds) = .ok d' := by
  induction h with
  | done =>
    rw [Event.ofDirectives]
    rfl
  | plain hx hno ha _ ih =>
    rw [Event.ofDirectives_plain hx hno, run_cons_of_ok (feed_of_apply ha)]
    exact ih
  | included i hs _ hl _ inFile inRest =>
    rw [i.events, List.cons_append, run_cons_of_ok hs, run_append_of_ok inFile, run_cons_of_ok hl]
    exact inRest

end Draft

end ConversationFlow
