import ConversationFlow.Proofs.Compilation.Flattening
import ConversationFlow.Run.State

/-!
# The time that commands may take

RUN-TIMEOUT sets the time of commands, the last one of the flat directives wins, and no other
directive touches it. A run knows the time that its conversation was compiled to, and not whether it
was written: a written time that is the default one gives way to the time of the options, any other
stays. What happens when the time is over is not said here.
-/

namespace ConversationFlow

open Directive (clause)

/-! ## The directives that set the time -/

/-- What a directive of this name and value says of the time of commands. -/
def Instruction.Times (n : DirectiveName) (value : Text) : Instruction → Prop
  | .configure change =>
    (n = .builtin .runTimeout ∧ ∃ t, Duration.read value = .ok t ∧
      ∀ s : Settings, (change s).run.timeout = t) ∨
    (n ≠ .builtin .runTimeout ∧ ∀ s : Settings, (change s).run.timeout = s.run.timeout)
  | .step _ change =>
    n ≠ .builtin .runTimeout ∧ ∀ s : Settings, (change s).run.timeout = s.run.timeout
  | _ => n ≠ .builtin .runTimeout

namespace Instruction

theorem reads_times_ofKeyword (k : Keyword) (value : Text) :
    Reads (Times (.builtin k) value) (ofKeyword k value) := by
  have other {k : Keyword} (h : k ≠ .runTimeout) :
      DirectiveName.builtin k ≠ .builtin .runTimeout :=
    fun he => h (DirectiveName.builtin.inj he)
  cases k with
  | runTimeout => exact reads_bind fun t ht => reads_ok (.inl ⟨rfl, t, refuse_ok ht, fun _ => rfl⟩)
  | runRetry =>
    refine reads_bind fun ws _ => ?_
    cases ws with
    | nil => intro i hi; cases hi
    | cons count rest => exact reads_bind fun n _ => reads_ok (other (by decide))
  | checkpoint | compact | newConversation | elide =>
    exact reads_ok ⟨other (by decide), fun _ => rfl⟩
  | pause | consult | onFailure | onSuccess | endBlock => exact reads_ok (other (by decide))
  | prologue | epilogue | includeFile => exact reads_bind fun _ _ => reads_ok (other (by decide))
  | prompt | run | verify | verifyTrace | verifyCoverage | refcat | lsp | helpInline =>
    exact reads_bind fun _ _ => reads_ok ⟨other (by decide), fun _ => rfl⟩
  | compactPreserve => exact reads_ok (.inr ⟨other (by decide), fun _ => rfl⟩)
  | _ => exact reads_bind fun _ _ => reads_ok (.inr ⟨other (by decide), fun _ => rfl⟩)

end Instruction

theorem Directive.instruction_times {x : Directive} {file : Option Path} {i : Instruction}
    (h : x.instruction file = .ok i) : i.Times x.name x.value := by
  refine x.instruction_reads (fun name hn => ?_) (fun k hk => ?_) h
  · rw [hn]
    exact ⟨DirectiveName.noConfusion, fun _ => rfl⟩
  · rw [hk]
    exact Instruction.reads_times_ofKeyword k x.value

namespace Draft

variable {d d' : Draft} {line : SourceLine}

theorem withTarget_settings (d : Draft) (steps : List Step) :
    (d.withTarget steps).settings = d.settings := by
  unfold withTarget
  cases d.block <;> rfl

theorem human_run (d : Draft) (consult : Bool) (message : Text) :
    (d.human consult message).settings.run = d.settings.run := by
  unfold human
  split
  · rw [push, withTarget_settings]
  · cases consult <;> rfl

/-- One instruction sets the time of commands, or leaves it. -/
theorem apply_timeout {n : DirectiveName} {value : Text} {i : Instruction} (hi : i.Times n value)
    (h : d.apply line i = .ok d') :
    (n = .builtin .runTimeout ∧ Duration.read value = .ok d'.settings.run.timeout) ∨
      (n ≠ .builtin .runTimeout ∧ d'.settings.run.timeout = d.settings.run.timeout) := by
  cases i with
  | configure change =>
    cases h
    rcases hi with ⟨hn, t, ht, hchange⟩ | ⟨hn, hchange⟩
    · exact .inl ⟨hn, by rw [ht, hchange]⟩
    · exact .inr ⟨hn, hchange d.settings⟩
  | prologue text | epilogue text =>
    refine .inr ⟨hi, ?_⟩
    simp only [apply] at h
    split at h <;> cases h <;> rfl
  | step s change =>
    cases h
    refine .inr ⟨hi.1, ?_⟩
    rw [push, withTarget_settings]
    exact hi.2 d.settings
  | retry count prompt =>
    obtain ⟨before, c, f, s, -, rfl⟩ := retry_ok h
    exact .inr ⟨hi, by rw [withTarget_settings]⟩
  | human consult message =>
    cases h
    exact .inr ⟨hi, by rw [human_run]⟩
  | openBlock kind =>
    obtain ⟨-, rfl, -⟩ := openBlock_ok h
    exact .inr ⟨hi, rfl⟩
  | closeBlock =>
    obtain ⟨b, -, ⟨before, owner, -, rfl⟩ | ⟨-, rfl⟩⟩ := closeBlock_ok h <;> exact .inr ⟨hi, rfl⟩
  | includeFile target =>
    cases h
    exact .inr ⟨hi, rfl⟩

/-! ## The last one wins -/

theorem carry_timeout {x : Directive} (h : d.carry (clause x) = some d') :
    (x.name = .builtin .runTimeout ∧ Duration.read x.value = .ok d'.settings.run.timeout) ∨
      (x.name ≠ .builtin .runTimeout ∧ d'.settings.run.timeout = d.settings.run.timeout) := by
  obtain ⟨i, hi, ha⟩ := Option.bind_eq_some_iff.mp h
  have htimes := Directive.instruction_times (ok_of_toOption hi)
  exact apply_timeout htimes (ok_of_toOption ha)

end Draft

/-- The time that the last RUN-TIMEOUT writes, if there is one. -/
def Directive.lastTimeout (ds : List Directive) : Except ValueError (Option Duration) :=
  ((ds.filter fun x => x.name = .builtin .runTimeout).map (·.value)).getLast?.mapM Duration.read

theorem Draft.carryAll_timeout {d d' : Draft} {ds : List Directive}
    (h : d.carryAll (ds.map clause) = some d') :
    ∃ written, Directive.lastTimeout ds = .ok written ∧
      d'.settings.run.timeout = written.getD d.settings.run.timeout := by
  induction ds using List.reverseRecOn generalizing d' with
  | nil =>
    cases h
    exact ⟨none, rfl, rfl⟩
  | append_singleton ds x ih =>
    rw [List.map_append, carryAll_append] at h
    obtain ⟨next, hnext, h⟩ := Option.bind_eq_some_iff.mp h
    rw [List.map_singleton, carryAll_singleton] at h
    unfold Directive.lastTimeout
    rw [List.filter_append, List.map_append]
    rcases carry_timeout h with ⟨hx, hread⟩ | ⟨hx, hsame⟩
    · refine ⟨some d'.settings.run.timeout, ?_, rfl⟩
      rw [List.filter_cons_of_pos (by simpa using hx), List.filter_nil, List.map_singleton,
        List.getLast?_concat, Option.mapM_some, hread]
      rfl
    · rw [List.filter_cons_of_neg (by simpa using hx), List.filter_nil, List.map_nil,
        List.append_nil, hsame]
      exact ih hnext

/-- A conversation is compiled to the time that the last of its flat directives writes. -/
theorem Compiled.IsResultOf.timeout {fs : FileSystem} {registry : Registry} {stack : List Location}
    {file : Option Path} {text : Text} {c : Compiled}
    (h : IsResultOf fs registry stack file text (.ok c)) :
    ∃ flat, Flattened fs registry false file (Directive.ofDocument registry text) flat ∧
      ∃ written, Directive.lastTimeout (flat.map (·.directive)) = .ok written ∧
        c.settings.run.timeout = written.getD RunSettings.defaultTimeout := by
  obtain ⟨d, hrun, hfinish⟩ := ofEvents_ok h.eq_ofEvents.symm
  obtain ⟨flat, hflat, hreads⟩ := (Draft.reads_of_run hrun).flat
  obtain ⟨prologues, epilogues, halone⟩ := hreads.alone [] []
  obtain ⟨-, rfl⟩ := Draft.finish_ok hfinish
  have hcarry := halone.symm.trans
    (congrArg (Draft.carryAll _) (List.map_map (f := FlatDirective.directive) (g := clause)).symm)
  exact ⟨flat, hflat, Draft.carryAll_timeout hcarry.symm⟩

/-! ## The time of a run -/

namespace Run

theorem timeout_runSettings (s : RunSettings) (o : RunOptions) : (runSettings s o).timeout =
    if s.timeout = RunSettings.defaultTimeout then o.commandTimeout.getD RunSettings.defaultTimeout
    else s.timeout := by
  unfold runSettings
  cases o.commandTimeout with
  | none =>
    dsimp only [Option.getD_none]
    split
    · next hs => exact hs
    · rfl
  | some t => dsimp only; split <;> rfl

/-- The time of the commands of a run is the one that the last RUN-TIMEOUT writes, or else the
default; where it is the default one, written or not, the time of the options takes its place. So
the written time, else that of the options, else the default is the time of the commands, except
where the default time is written and the options have another. -/
theorem written_timeout_wins_iff {fs : FileSystem} {registry : Registry} {stack : List Location}
    {file : Option Path} {text : Text} {c : Compiled} {o : RunOptions} {r : Run} {s : RunState}
    (h : Compiled.IsResultOf fs registry stack file text (.ok c))
    (hp : prepare (.ofCompiled c) o = .ok (r, s)) :
    ∃ flat, (Flattened fs registry false file (Directive.ofDocument registry text) flat ∧
        ∀ other, Flattened fs registry false file (Directive.ofDocument registry text) other →
          other = flat) ∧
      ∃ written, Directive.lastTimeout (flat.map (·.directive)) = .ok written ∧
        r.runner.settings.timeout =
          (if written.getD RunSettings.defaultTimeout = RunSettings.defaultTimeout then
            o.commandTimeout.getD RunSettings.defaultTimeout
          else written.getD RunSettings.defaultTimeout) ∧
        (r.runner.settings.timeout =
            (written.or o.commandTimeout).getD RunSettings.defaultTimeout ↔
          ¬(written = some RunSettings.defaultTimeout ∧
            ∃ t, o.commandTimeout = some t ∧ t ≠ RunSettings.defaultTimeout)) := by
  obtain ⟨flat, hflat, written, hwritten, hc⟩ := h.timeout
  obtain ⟨tracker, -, rfl, -⟩ := exists_of_prepare hp
  have htimeout := timeout_runSettings c.settings.run o
  rw [hc] at htimeout
  refine ⟨flat, ⟨hflat, fun other => hflat.unique⟩, written, hwritten, htimeout, ?_⟩
  change (runSettings c.settings.run o).timeout = _ ↔ _
  rw [htimeout]
  cases written with
  | none => cases o.commandTimeout <;> simp
  | some t =>
    by_cases ht : t = RunSettings.defaultTimeout
    · cases o.commandTimeout <;> simp [ht]
    · simp [ht]

/-- A written time, and the default one in a file that is included behind it. -/
def timed : Text := "RUN-TIMEOUT 5\nINCLUDE b\nRUN a".toList

def timedFiles : FileSystem :=
  ⟨[], [(["b".toList], .file (Text.toBytes "RUN-TIMEOUT 1m".toList))], [], []⟩

def timedFlat : List FlatDirective :=
  [⟨⟨.builtin .runTimeout, "5".toList, 1⟩, false⟩, ⟨⟨.builtin .runTimeout, "1m".toList, 1⟩, true⟩,
    ⟨⟨.builtin .run, "a".toList, 3⟩, false⟩]

def timedResult : Compiled :=
  ⟨{ run := { timeout := .ofSeconds 60 } }, [.run { command := "a".toList } [] []], none⟩

/-- The minute that is written gives way to the tenth of a second of the options. -/
theorem written_default_gives_way :
    Compiled.IsResultOf timedFiles .empty [] none timed (.ok timedResult) ∧
      Directive.lastTimeout (timedFlat.map (·.directive)) = .ok (some (.ofSeconds 60)) ∧
      ∃ r s, prepare (.ofCompiled timedResult)
          { cwd := "w", commandTimeout := some (.ofMillis 100) } = .ok (r, s) ∧
        r.runner.settings.timeout = .ofMillis 100 := by
  have hdoc : Directive.ofDocument .empty timed =
      [⟨.builtin .runTimeout, "5".toList, 1⟩, ⟨.builtin .includeFile, "b".toList, 2⟩,
        ⟨.builtin .run, "a".toList, 3⟩] := rfl
  have hincluded : Directive.ofDocument .empty "RUN-TIMEOUT 1m".toList =
      [⟨.builtin .runTimeout, "1m".toList, 1⟩] := rfl
  have htext : timedFiles.textAt ["b".toList] = .ok "RUN-TIMEOUT 1m".toList := rfl
  have hc : Compiled.ofText timedFiles .empty timed = .ok timedResult := by
    unfold Compiled.ofText
    rw [hdoc, Event.ofDirectives_plain rfl fun _ => Instruction.noConfusion,
      Event.ofDirectives_include rfl rfl rfl htext, hincluded]
    iterate 2 rw [Event.ofDirectives_plain rfl fun _ => Instruction.noConfusion]
    rw [Event.ofDirectives, Event.ofDirectives]
    rfl
  have hresult : Compiled.IsResultOf timedFiles .empty [] none timed
      (Compiled.ofText timedFiles .empty timed) := .text
  rw [hc] at hresult
  have hflat : Flattened timedFiles .empty false none (Directive.ofDocument .empty timed)
      timedFlat := by
    have hinside : Flattened timedFiles .empty true (some (Event.includePath none "b".toList))
        (Directive.ofDocument .empty "RUN-TIMEOUT 1m".toList) ((timedFlat.drop 1).take 1) := by
      rw [hincluded]
      exact .kept (by decide) .done
    have hbehind : Flattened timedFiles .empty false none
        [⟨.builtin .includeFile, "b".toList, 2⟩, ⟨.builtin .run, "a".toList, 3⟩]
        ((timedFlat.drop 1).take 1 ++ timedFlat.drop 2) :=
      .replaced rfl rfl hinside (.kept (by decide) .done)
    rw [hdoc]
    exact .kept (by decide) hbehind
  obtain ⟨r, s, hp⟩ : ∃ r s, prepare (.ofCompiled timedResult)
      { cwd := "w", commandTimeout := some (.ofMillis 100) } = .ok (r, s) := ⟨_, _, rfl⟩
  obtain ⟨flat, ⟨-, hunique⟩, written, hwritten, htimeout, -⟩ := written_timeout_wins_iff hresult hp
  obtain rfl := hunique timedFlat hflat
  have hlast : Directive.lastTimeout (timedFlat.map (·.directive)) = .ok (some (.ofSeconds 60)) := rfl
  obtain rfl := Except.ok.inj (hwritten.symm.trans hlast)
  exact ⟨hresult, hlast, r, s, hp, htimeout⟩

end Run

end ConversationFlow
