import ConversationFlow.Proofs.Json.Reading
import ConversationFlow.Proofs.Value.Options
import ConversationFlow.Rendered

/-!
# Rendered workflows that are handed on

What is written of a rendered workflow is read as that workflow: a field that is left out comes back
as missing, and a list that is empty as an empty one. The version is looked at first; the rest of a
document counts only if its version is supported, and then the version is kept as it stands.
-/

namespace ConversationFlow

/-! ## Fields -/

namespace Json

variable {α : Type} {f : α → Json} {read : Json → Option α} {j : Json} {name : String}

theorem text?_str (t : Text) : text? (.str t) = some t := rfl

theorem required_eq {v : Json} {a : α} (hget : j.get? name.toList = some v)
    (hread : read v = some a) : j.required name read = some a := by
  unfold required
  rw [hget]
  exact hread

/-- A field that is left out without a value comes back without one. -/
theorem optional_eq {v : Option α} (hget : j.get? name.toList = v.map f) (hnull : ∀ a, f a ≠ .null)
    (hread : ∀ a, read (f a) = some a) : j.optional name read = some v := by
  unfold optional
  rw [hget]
  cases v with
  | none => rfl
  | some a =>
    dsimp only [Option.map]
    split
    · next heq => cases heq
    · next heq => exact absurd (Option.some.inj heq) (hnull a)
    · next heq => rw [← Option.some.inj heq, hread]

/-- And so does a field that is null without a value. -/
theorem optional_ofOption {v : Option α} (hget : j.get? name.toList = some (ofOption f v))
    (hnull : ∀ a, f a ≠ .null) (hread : ∀ a, read (f a) = some a) :
    j.optional name read = some v := by
  cases v with
  | none =>
    unfold optional
    rw [hget]
    rfl
  | some a => exact optional_eq (v := some a) hget hnull hread

theorem nat?_nat {limit n : Nat} (h : n ≤ limit) : nat? limit (.nat n) = some n := if_pos h

/-- What is written of each item is read as the item. -/
theorem mapM_map {β : Type} {f : α → β} {read : β → Option α} {as : List α}
    (h : ∀ a ∈ as, read (f a) = some a) : (as.map f).mapM read = some as := by
  induction as with
  | nil => rfl
  | cons a as ih =>
    obtain ⟨ha, has⟩ := List.forall_mem_cons.mp h
    rw [List.map_cons, List.mapM_cons, ha, ih has]
    rfl

theorem list?_arr {as : List α} (h : ∀ a ∈ as, read (f a) = some a) :
    list? read (.arr (as.map f)) = some as := mapM_map h

theorem texts?_texts (ts : List Text) : texts? (texts ts) = some ts := list?_arr fun _ _ => rfl

end Json

theorem Dictionary.ofJson?_json (d : Dictionary Text) : Dictionary.ofJson? d.json = some d := by
  let fields := d.entries.map fun e => (e.1, Json.str e.2)
  have hincreasing : (fields.map (·.1)).Pairwise (· < ·) := by
    rw [List.map_map]
    exact d.increasing
  have hfields : (ofList fields).entries = fields := entries_insertAll hincreasing
  have hread : fields.mapM (fun f : Text × Json => f.2.text?.map (f.1, ·)) = some d.entries :=
    Json.mapM_map fun _ _ => rfl
  change ((ofList fields).entries.mapM
    (fun f : Text × Json => f.2.text?.map (f.1, ·))).map ofList = _
  rw [hfields, hread]
  exact congrArg some (ofList_entries d)

/-! ## Records -/

namespace RenderedFile

theorem ofJson?_json {f : RenderedFile} (h : f.tokens < wordSize 64) :
    ofJson? f.json = some f := by
  have hpath : f.json.get? "path".toList = some (.str f.path) := by
    unfold json
    cases f.content <;> rfl
  have hcontent : f.json.get? "content".toList = f.content.map .str := by
    unfold json
    cases f.content <;> rfl
  have htokens : f.json.get? "tokens_estimate".toList = some (.nat f.tokens) := by
    unfold json
    cases f.content <;> rfl
  unfold ofJson?
  rw [show f.json.record? ["path", "content", "tokens_estimate"] 3 = some f.json from rfl]
  simp only [Option.bind_eq_bind, Option.bind_some, Json.required_eq hpath (Json.text?_str _),
    Json.optional_eq hcontent (fun _ => nofun) Json.text?_str,
    Json.required_eq htokens (Json.nat?_nat (Nat.le_sub_one_of_lt h))]
  rfl

end RenderedFile

namespace RenderedPrompt

theorem ofJson?_json {p : RenderedPrompt} (h : p.index < wordSize 64) :
    ofJson? p.json = some p := by
  obtain ⟨hindex, hraw, hprologues, hepilogues, hresolved⟩ :
      p.json.get? "index".toList = some (.nat p.index) ∧
      p.json.get? "raw".toList = some (.str p.raw) ∧
      p.json.get? "prologues".toList = p.prologues.map Json.texts ∧
      p.json.get? "epilogues".toList = p.epilogues.map Json.texts ∧
      p.json.get? "resolved".toList = p.resolved.map .str := by
    unfold json
    cases p.prologues <;> cases p.epilogues <;> cases p.resolved <;>
      exact ⟨rfl, rfl, rfl, rfl, rfl⟩
  unfold ofJson?
  rw [show p.json.record? ["index", "raw", "prologues", "epilogues", "resolved"] 2 = some p.json
    from rfl]
  simp only [Option.bind_eq_bind, Option.bind_some,
    Json.required_eq hindex (Json.nat?_nat (Nat.le_sub_one_of_lt h)),
    Json.required_eq hraw (Json.text?_str _),
    Json.optional_eq hprologues (fun _ => nofun) Json.texts?_texts,
    Json.optional_eq hepilogues (fun _ => nofun) Json.texts?_texts,
    Json.optional_eq hresolved (fun _ => nofun) Json.text?_str]
  rfl

end RenderedPrompt

namespace RenderedCycle

/-- The numbers of the cycle fit in the words that they are kept in. -/
structure Fits (c : RenderedCycle) : Prop where
  number : c.number < wordSize 32
  files : ∀ f ∈ c.contextFiles, f.tokens < wordSize 64
  prompts : ∀ p ∈ c.prompts, p.index < wordSize 64

theorem ofJson?_json {c : RenderedCycle} (h : c.Fits) : ofJson? c.json = some c := by
  obtain ⟨hnumber, hvars, hfiles, hexcerpts, hprompts⟩ :
      c.json.get? "number".toList = some (.nat c.number) ∧
      c.json.get? "variables".toList = some c.vars.json ∧
      c.json.get? "context_files".toList = some (.arr (c.contextFiles.map RenderedFile.json)) ∧
      c.json.get? "refcat_content".toList = c.excerpts.map .str ∧
      c.json.get? "prompts".toList = some (.arr (c.prompts.map RenderedPrompt.json)) := by
    unfold json
    cases c.excerpts <;> exact ⟨rfl, rfl, rfl, rfl, rfl⟩
  have hread := Json.list?_arr fun f hf => RenderedFile.ofJson?_json (h.files f hf)
  have hreadPrompts := Json.list?_arr fun p hp => RenderedPrompt.ofJson?_json (h.prompts p hp)
  unfold ofJson?
  rw [show c.json.record? ["number", "variables", "context_files", "refcat_content", "prompts"] 5 =
    some c.json from rfl]
  simp only [Option.bind_eq_bind, Option.bind_some,
    Json.required_eq hnumber (Json.nat?_nat (Nat.le_sub_one_of_lt h.number)),
    Json.required_eq hvars c.vars.ofJson?_json, Json.required_eq hfiles hread,
    Json.optional_eq hexcerpts (fun _ => nofun) Json.text?_str,
    Json.required_eq hprompts hreadPrompts]
  rfl

end RenderedCycle

namespace RenderedWorkflow

/-- The numbers of the workflow fit in the words that they are kept in. -/
structure Fits (w : RenderedWorkflow) : Prop where
  maxCycles : w.maxCycles < wordSize 32
  cycles : ∀ c ∈ w.cycles, c.Fits

theorem mode_read (m : RenderMode) :
    ((Json.str m.text).name? false).bind modeOfText? = some m := by
  cases m <;> rfl

/-- What is written of the fields of a workflow is read, whatever its version. -/
theorem fields?_json {w : RenderedWorkflow} (h : w.Fits) : fields? w.json = some w := by
  obtain ⟨hversion, hworkflow, hname, hmode, hsession⟩ :
      w.json.get? "schema_version".toList = some (.str w.version) ∧
      w.json.get? "workflow".toList = some (.str w.workflow) ∧
      w.json.get? "workflow_name".toList = some (.str w.name) ∧
      w.json.get? "mode".toList = some (.str w.mode.text) ∧
      w.json.get? "session_mode".toList = some (.str w.sessionMode) := ⟨rfl, rfl, rfl, rfl, rfl⟩
  obtain ⟨hadapter, hmodel, hmax, hvars, hcycles⟩ :
      w.json.get? "adapter".toList = some (Json.ofOption .str w.adapter) ∧
      w.json.get? "model".toList = some (Json.ofOption .str w.model) ∧
      w.json.get? "max_cycles".toList = some (.nat w.maxCycles) ∧
      w.json.get? "template_variables".toList = some w.vars.json ∧
      w.json.get? "cycles".toList = some (.arr (w.cycles.map RenderedCycle.json)) :=
    ⟨rfl, rfl, rfl, rfl, rfl⟩
  have hread := Json.list?_arr fun c hc => RenderedCycle.ofJson?_json (h.cycles c hc)
  have hreadMode : w.json.required "mode" (fun m => (m.name? false).bind modeOfText?) =
      some w.mode := by
    unfold Json.required
    rw [hmode]
    exact mode_read w.mode
  unfold fields?
  simp only [Option.bind_eq_bind, Option.bind_some, Json.required_eq hversion (Json.text?_str _),
    Json.required_eq hworkflow (Json.text?_str _), Json.required_eq hname (Json.text?_str _),
    hreadMode, Json.required_eq hsession (Json.text?_str _),
    Json.optional_ofOption hadapter (fun _ => nofun) Json.text?_str,
    Json.optional_ofOption hmodel (fun _ => nofun) Json.text?_str,
    Json.required_eq hmax (Json.nat?_nat (Nat.le_sub_one_of_lt h.maxCycles)),
    Json.required_eq hvars w.vars.ofJson?_json, Json.required_eq hcycles hread]
  rfl

/-! ## Text -/

end RenderedWorkflow

namespace Json

/-- The value is read from its text if reading goes `levels` deep. -/
def Within (levels : Nat) (v : Json) : Prop := IsCounted v ∧ v.depth ≤ levels

variable {levels : Nat}

theorem within_null : Within levels .null := ⟨trivial, Nat.zero_le _⟩

theorem within_str (t : Text) : Within levels (.str t) := ⟨trivial, Nat.zero_le _⟩

theorem within_ofOption (t : Option Text) : Within levels (ofOption .str t) := by
  cases t with
  | none => exact within_null
  | some t => exact within_str t

theorem within_nat {n : Nat} (h : n < wordSize 64) : Within levels (.nat n) :=
  ⟨⟨n, rfl, h⟩, Nat.zero_le _⟩

theorem within_map {α : Type} {f : α → Json} {as : List α}
    (h : ∀ a ∈ as, Within levels (f a)) : Within (levels + 1) (.arr (as.map f)) :=
  ⟨areCounted_map fun a ha => (h a ha).1,
    Nat.succ_le_succ (depthOfItems_map_le fun a ha => (h a ha).2)⟩

theorem within_texts (ts : List Text) : Within (levels + 1) (texts ts) :=
  within_map fun t _ => within_str t

theorem within_obj {fields : List (Text × Json)} (h : ∀ f ∈ fields, Within levels f.2) :
    Within (levels + 1) (.obj fields) := by
  induction fields with
  | nil => exact ⟨trivial, Nat.succ_le_succ (Nat.zero_le _)⟩
  | cons f fields ih =>
    obtain ⟨⟨hcounted, hdepth⟩, hfields⟩ := List.forall_mem_cons.mp h
    obtain ⟨hrest, hdeep⟩ := ih hfields
    exact ⟨⟨hcounted, hrest⟩,
      Nat.succ_le_succ (Nat.max_le.mpr ⟨hdepth, Nat.le_of_succ_le_succ hdeep⟩)⟩

theorem within_presentField {α : Type} {name : String} {f : α → Json} {v : Option α}
    (h : ∀ a, Within levels (f a)) : ∀ g ∈ presentField name f v, Within levels g.2 := by
  cases v with
  | none => exact fun _ hmem => nomatch hmem
  | some a => exact List.forall_mem_singleton.mpr (h a)

end Json

theorem Dictionary.within_json {levels : Nat} (d : Dictionary Text) :
    Json.Within (levels + 1) d.json :=
  Json.within_obj fun f hf => by
    obtain ⟨entry, -, rfl⟩ := List.mem_map.mp hf
    exact Json.within_str entry.2

theorem RenderedFile.within_json {levels : Nat} {f : RenderedFile} (h : f.tokens < wordSize 64) :
    Json.Within (levels + 1) f.json :=
  Json.within_obj fun g hg => by
    simp only [List.mem_append, List.mem_singleton] at hg
    obtain (rfl | hg) | rfl := hg
    · exact Json.within_str f.path
    · exact Json.within_presentField Json.within_str g hg
    · exact Json.within_nat h

theorem RenderedPrompt.within_json {p : RenderedPrompt} (h : p.index < wordSize 64) :
    Json.Within 2 p.json :=
  Json.within_obj fun g hg => by
    simp only [List.mem_append, List.mem_cons, List.not_mem_nil, or_false] at hg
    obtain (((rfl | rfl) | hg) | hg) | hg := hg
    · exact Json.within_nat h
    · exact Json.within_str p.raw
    · exact Json.within_presentField Json.within_texts g hg
    · exact Json.within_presentField Json.within_texts g hg
    · exact Json.within_presentField Json.within_str g hg

theorem RenderedCycle.within_json {c : RenderedCycle} (h : c.Fits) : Json.Within 4 c.json :=
  Json.within_obj fun g hg => by
    simp only [List.mem_append, List.mem_cons, List.not_mem_nil, or_false] at hg
    obtain ((rfl | rfl | rfl) | hg) | rfl := hg
    · exact Json.within_nat (h.number.trans (by decide))
    · exact c.vars.within_json
    · exact Json.within_map fun f hf => RenderedFile.within_json (h.files f hf)
    · exact Json.within_presentField Json.within_str g hg
    · exact Json.within_map fun p hp => RenderedPrompt.within_json (h.prompts p hp)

namespace RenderedWorkflow

theorem within_json {w : RenderedWorkflow} (h : w.Fits) : Json.Within 6 w.json :=
  Json.within_obj fun g hg => by
    simp only [List.mem_cons, List.not_mem_nil, or_false] at hg
    obtain rfl | rfl | rfl | rfl | rfl | rfl | rfl | rfl | rfl | rfl := hg
    · exact Json.within_str w.version
    · exact Json.within_str w.workflow
    · exact Json.within_str w.name
    · exact Json.within_str w.mode.text
    · exact Json.within_str w.sessionMode
    · exact Json.within_ofOption w.adapter
    · exact Json.within_ofOption w.model
    · exact Json.within_nat (h.maxCycles.trans (by decide))
    · exact w.vars.within_json
    · exact Json.within_map fun c hc => RenderedCycle.within_json (h.cycles c hc)

/-- What is written of a workflow is the text of its value. -/
theorem read?_written {w : RenderedWorkflow} (h : w.Fits) : Json.read? w.written = some w.json :=
  Json.read?_pretty (within_json h).1 ((within_json h).2.trans (by decide))

/-! ## Versions -/

variable {j j' : Json} {v : Text} {w : RenderedWorkflow}

/-- A document of another major version is refused for its version, whatever else it holds. -/
theorem ofJson_otherVersion (hv : j.get? "schema_version".toList = some (.str v))
    (hmajor : majorVersion? v ≠ some Failure.supportedVersion) :
    ofJson j = .error (.unsupportedVersion v) := by
  unfold ofJson
  rw [hv]
  exact if_pos (bne_iff_ne.mpr hmajor)

/-- A document of a supported version is read by its fields. -/
theorem ofJson_ownVersion (hv : j.get? "schema_version".toList = some (.str v))
    (hmajor : majorVersion? v = some Failure.supportedVersion) :
    ofJson j = match fields? j with
      | some w => .ok w
      | none => .error (.rendered .notWorkflow) := by
  unfold ofJson
  rw [hv]
  exact if_neg fun hne => bne_iff_ne.mp hne hmajor

theorem fields?_of_ofJson (h : ofJson j = .ok w) : fields? j = some w := by
  unfold ofJson at h
  split at h
  · cases h
  · split at h
    · cases h
    · split at h
      · next hfields => rw [hfields, Except.ok.inj h]
      · cases h

/-- The fields but the version are read without it. -/
theorem fields?_otherVersion (h : fields? j = some w)
    (hsame : ∀ name ≠ "schema_version".toList, j'.get? name = j.get? name)
    (hv : j'.get? "schema_version".toList = some (.str v)) :
    fields? j' = some { w with version := v } := by
  have hrequired {α : Type} (name : String) (read : Json → Option α)
      (hne : name.toList ≠ "schema_version".toList) :
      j'.required name read = j.required name read := by
    unfold Json.required
    rw [hsame _ hne]
  have hoptional {α : Type} (name : String) (read : Json → Option α)
      (hne : name.toList ≠ "schema_version".toList) :
      j'.optional name read = j.optional name read := by
    unfold Json.optional
    rw [hsame _ hne]
  have hversion : j'.required "schema_version" Json.text? = some v :=
    Json.required_eq hv (Json.text?_str v)
  unfold fields? at h ⊢
  obtain ⟨old, -, h⟩ := Option.bind_eq_some_iff.mp h
  rw [hversion, hrequired "workflow" _ (by decide), hrequired "workflow_name" _ (by decide),
    hrequired "mode" _ (by decide), hrequired "session_mode" _ (by decide),
    hoptional "adapter" _ (by decide), hoptional "model" _ (by decide),
    hrequired "max_cycles" _ (by decide), hrequired "template_variables" _ (by decide),
    hrequired "cycles" _ (by decide)]
  simp only [Option.bind_eq_bind, Option.bind_eq_some_iff, Option.bind_some] at h ⊢
  obtain ⟨workflow, hworkflow, name, hname, mode, hmode, session, hsession, adapter, hadapter,
    model, hmodel, cycles, hcycles, vars, hvars, rendered, hrendered, hw⟩ := h
  cases hw
  exact ⟨_, hworkflow, _, hname, _, hmode, _, hsession, _, hadapter, _, hmodel, _, hcycles, _,
    hvars, _, hrendered, rfl⟩

/-- A value keeps the other fields of a workflow whose version is changed. -/
theorem get?_otherVersion (w : RenderedWorkflow) (v : Text) {name : Text}
    (h : name ≠ "schema_version".toList) :
    { w with version := v }.json.get? name = w.json.get? name := by
  have hlast (u : Text) : (Json.field "schema_version" (.str u)).1 == name ↔ False :=
    iff_false_intro fun heq => h (beq_iff_eq.mp heq).symm
  unfold json Json.get?
  simp only [List.reverse_cons, List.find?_append, List.find?_singleton, hlast, if_false]

/-- What is rendered carries the present version. -/
theorem version_of_render {fs : FileSystem} {c : Conversation} {base : Path} {vars : Variables}
    {mode : RenderMode} {cycles : Option Nat} (h : render fs c base vars mode cycles = .ok w) :
    w.version = "1.0" := by
  unfold render at h
  dsimp only at h
  cases htracker : loadContext fs c (base.within c.settings.cwd) with
  | error e => rw [htracker] at h; cases h
  | ok tracker =>
    rw [htracker] at h
    cases hexcerpts : renderExcerpts fs c.settings mode (base.within c.settings.cwd) c.baseDir with
    | error e => rw [hexcerpts] at h; cases h
    | ok excerpts =>
      rw [hexcerpts] at h
      cases h
      rfl

/-- A workflow of a supported version is read from what is written of it. -/
theorem read_written (h : w.Fits)
    (hmajor : majorVersion? w.version = some Failure.supportedVersion) : read w.written = .ok w := by
  unfold read
  rw [read?_written h]
  dsimp only
  rw [ofJson_ownVersion rfl hmajor, fields?_json h]

/-- A rendered workflow comes back as it is handed on. A document of another major version is
refused for its version whatever it holds, and one of another minor version is read as the document
of the same fields is. -/
theorem read_of_handed_on :
    (∀ fs c base vars mode cycles w, render fs c base vars mode cycles = .ok w → w.Fits →
      read w.written = .ok w) ∧
    (∀ t j v, Json.read? t = some j → j.get? "schema_version".toList = some (.str v) →
      majorVersion? v ≠ some 1 → read t = .error (.unsupportedVersion v)) ∧
    ∀ t t' j j' v w, Json.read? t = some j → Json.read? t' = some j' →
      (∀ name ≠ "schema_version".toList, j'.get? name = j.get? name) →
      j'.get? "schema_version".toList = some (.str v) → majorVersion? v = some 1 →
      read t = .ok w → read t' = .ok { w with version := v } := by
  refine ⟨?returned, ?refused, ?accepted⟩
  case returned =>
    intro fs c base vars mode cycles w hw hfits
    refine read_written hfits ?_
    rw [version_of_render hw]
    decide
  case refused =>
    intro t j v ht hv hmajor
    unfold read
    rw [ht]
    exact ofJson_otherVersion hv hmajor
  case accepted =>
    intro t t' j j' v w ht ht' hsame hv hmajor hw
    unfold read at hw ⊢
    rw [ht] at hw
    rw [ht']
    dsimp only at hw ⊢
    rw [ofJson_ownVersion hv hmajor, fields?_otherVersion (fields?_of_ofJson hw) hsame hv]

/-- A conversation that opens with a prologue. -/
def greeting : Conversation :=
  .ofCompiled ⟨{ prologues := ["be kind".toList] }, [.prompt "hi".toList], none⟩

/-- The greeting as it is rendered, with the version given. -/
def greeted (version : Text) : RenderedWorkflow where
  version
  workflow := "inline"
  name := "inline"
  mode := .full
  sessionMode := "accumulate"
  adapter := none
  model := none
  maxCycles := 1
  vars := .ofList []
  cycles := [{
    number := 1
    vars := .ofList [("CYCLE_NUMBER".toList, "1".toList), ("CYCLE_TOTAL".toList, "1".toList)]
    contextFiles := []
    excerpts := none
    prompts := [{
      index := 0
      raw := "hi"
      prologues := some ["be kind".toList]
      resolved := some "be kind\n\nhi".toList }] }]

theorem fits_greeted (version : Text) : (greeted version).Fits where
  maxCycles := show 1 < wordSize 32 by decide
  cycles := List.forall_mem_singleton.mpr
    ⟨show 1 < wordSize 32 by decide, fun _ hmem => (nomatch hmem),
      List.forall_mem_singleton.mpr (show 0 < wordSize 64 by decide)⟩

theorem greeting_handed_on :
    read (greeted "1.0").written = .ok (greeted "1.0") ∧
    read (greeted "2.0").written = .error (.unsupportedVersion "2.0") ∧
    read (greeted "1.3").written = .ok (greeted "1.3") := by
  obtain ⟨hreturned, hrefused, haccepted⟩ := read_of_handed_on
  have hrendered : render { cwd := [], nodes := [] } greeting "/" (.ofList []) .full none =
      .ok (greeted "1.0") := by decide +kernel
  have hread := hreturned _ _ _ _ _ _ _ hrendered (fits_greeted _)
  exact ⟨hread,
    hrefused _ _ _ (read?_written (fits_greeted _)) rfl (by decide),
    haccepted _ _ _ _ _ _ (read?_written (fits_greeted "1.0")) (read?_written (fits_greeted _))
      (fun _ hname => get?_otherVersion (greeted "1.0") "1.3" hname) rfl (by decide) hread⟩

end RenderedWorkflow

end ConversationFlow
