import ConversationFlow.Text.Basic

/-!
# Paths

A path is a text and is shown as that text; two paths are equal when their
components are. Repeated slashes make no component, and neither does a dot,
except at the start of a relative path.
-/

namespace ConversationFlow

/-- A step of a path: the root, the current directory, the parent, or a name. -/
inductive PathPart where
  | root
  | here
  | up
  | name (t : Text)
deriving DecidableEq

/-- A path as it was written. -/
structure Path where
  text : Text
deriving DecidableEq, Inhabited

instance : Coe String Path := ⟨fun s => ⟨s.toList⟩⟩

namespace Path

/-- A component with the offsets in the text at which it begins and ends. -/
structure Span where
  part : PathPart
  start : Nat
  stop : Nat

private def partOf (first : Bool) (segment : Text) : Option PathPart :=
  if segment.isEmpty then none
  else if segment = ['.'] then if first then some .here else none
  else if segment = ['.', '.'] then some .up
  else some (.name segment)

private def spansFrom : (offset : Nat) → List Text → List Span
  | _, [] => []
  | offset, s :: rest =>
    match partOf (offset == 0) s with
    | some p => ⟨p, offset, offset + s.length⟩ :: spansFrom (offset + s.length + 1) rest
    | none => spansFrom (offset + s.length + 1) rest

/-- The components in order, with their places. -/
def spans (p : Path) : List Span :=
  match p.text with
  | '/' :: rest => ⟨.root, 0, 1⟩ :: spansFrom 1 (rest.splitOn '/')
  | t => spansFrom 0 (t.splitOn '/')

/-- The components in order. -/
def parts (p : Path) : List PathPart := p.spans.map (·.part)

instance : BEq Path := ⟨fun a b => a.parts == b.parts⟩

def isAbsolute (p : Path) : Bool := Text.startsWith ['/'] p.text

def isEmpty (p : Path) : Bool := p.text.isEmpty

/-- The path `q` seen from `p`: an absolute path stays as it is. -/
def join (p q : Path) : Path :=
  if q.isAbsolute || p.isEmpty then q
  else if p.text.getLast? == some '/' then ⟨p.text ++ q.text⟩
  else ⟨p.text ++ '/' :: q.text⟩

/-- The path without its last component; the root and the empty path have none. -/
def parent? (p : Path) : Option Path :=
  match p.spans.reverse with
  | [] => none
  | [s] => if s.part = .root then none else some ⟨[]⟩
  | _ :: s :: _ => some ⟨p.text.take s.stop⟩

/-- The last component, if it is a name. -/
def fileName? (p : Path) : Option Text :=
  match p.parts.getLast? with
  | some (.name n) => some n
  | _ => none

/-- A name at its last dot. A dot at the start divides nothing. -/
private def divide (name : Text) : Text × Option Text :=
  match Text.cutAtLast? '.' name with
  | some ([], _) | none => (name, none)
  | some (stem, extension) => (stem, some extension)

/-- The last name up to its last dot. -/
def stem? (p : Path) : Option Text := p.fileName?.map fun n => (divide n).1

/-- The last name after its last dot. -/
def extension? (p : Path) : Option Text := p.fileName?.bind fun n => (divide n).2

/-- What follows `base` in a path that begins with its components. -/
def relativeTo? (p base : Path) : Option Path :=
  let n := base.parts.length
  if p.parts.take n = base.parts then
    match p.spans.drop n, p.spans.getLast? with
    | s :: _, some last => some ⟨(p.text.take last.stop).drop s.start⟩
    | _, _ => some ⟨[]⟩
  else none

/-- The path seen from `base` where it lies below `base`, else the path. -/
def shownFrom (p base : Path) : Path := (p.relativeTo? base).getD p

/-- The proper ancestors of a path, the nearest first. -/
def ancestors (p : Path) : List Path :=
  let spans := p.spans
  let upTo (s : Span) : Path := ⟨p.text.take s.stop⟩
  let inner := (spans.dropLast.map upTo).reverse
  match spans with
  | [] => []
  | s :: _ => if s.part = .root then inner else inner ++ [⟨[]⟩]

/-- The order of paths, component by component. -/
def before : List PathPart → List PathPart → Bool
  | [], [] => false
  | [], _ :: _ => true
  | _ :: _, [] => false
  | a :: as, b :: bs => if a = b then before as bs else partBefore a b
where
  rank : PathPart → Nat
  | .root => 0
  | .here => 1
  | .up => 2
  | .name _ => 3
  /-- Names come last and in the order of their texts. -/
  partBefore (a b : PathPart) : Bool :=
    match a, b with
    | .name s, .name t => Text.before s t
    | a, b => decide (rank a < rank b)

/-- The paths in increasing order. -/
def sort (ps : List Path) : List Path := ps.mergeSort fun a b => !before b.parts a.parts

/-! ## Segments

Between its slashes a path has segments. Those that name something are its components, and the rest
are empty or a dot. -/

/-- The segment stands for a name, and not for the directory that is reached or the one above. -/
def IsName (segment : Text) : Prop := segment ≠ [] ∧ segment ≠ ['.'] ∧ segment ≠ ['.', '.']

/-- The segment leads nowhere. -/
def IsIdle (segment : Text) : Prop := segment = [] ∨ segment = ['.']

theorem segment_cases (segment : Text) :
    IsIdle segment ∨ segment = ['.', '.'] ∨ IsName segment := by
  by_cases hempty : segment = []
  · exact .inl (.inl hempty)
  by_cases hdot : segment = ['.']
  · exact .inl (.inr hdot)
  by_cases hup : segment = ['.', '.']
  · exact .inr (.inl hup)
  · exact .inr (.inr ⟨hempty, hdot, hup⟩)

/-- What one segment adds to a walk along the components. -/
def along {α : Type} (f : α → PathPart → α) (a : α) (segment : Text) : α :=
  if segment.isEmpty || segment = ['.'] then a
  else if segment = ['.', '.'] then f a .up
  else f a (.name segment)

section Along

variable {α : Type} {f : α → PathPart → α}

theorem along_idle {segment : Text} (h : IsIdle segment) (a : α) : along f a segment = a := by
  rcases h with rfl | rfl <;> rfl

theorem along_up (a : α) : along f a ['.', '.'] = f a .up := rfl

theorem along_name {segment : Text} (h : IsName segment) (a : α) :
    along f a segment = f a (.name segment) := by
  unfold along
  rw [if_neg (by simp [h.1, h.2.1]), if_neg h.2.2]

theorem foldl_idle {segments : List Text} (h : ∀ s ∈ segments, IsIdle s) (a : α) :
    segments.foldl (along f) a = a := by
  induction segments generalizing a with
  | nil => rfl
  | cons s segments ih =>
    rw [List.foldl_cons, along_idle (h s List.mem_cons_self)]
    exact ih (fun t ht => h t (List.mem_cons_of_mem s ht)) a

end Along

/-- The component of a segment. A dot is one only where the path begins. -/
private theorem partOf_cases (first : Bool) (segment : Text) :
    partOf first segment = none ∧ IsIdle segment ∨
      partOf first segment = some .here ∧ segment = ['.'] ∨
      partOf first segment = some .up ∧ segment = ['.', '.'] ∨
      partOf first segment = some (.name segment) ∧ IsName segment := by
  unfold partOf
  by_cases hempty : segment = []
  · exact .inl ⟨by simp [hempty], .inl hempty⟩
  by_cases hdot : segment = ['.']
  · cases first with
    | true => exact .inr (.inl ⟨by simp [hdot], hdot⟩)
    | false => exact .inl ⟨by simp [hdot], .inr hdot⟩
  by_cases hup : segment = ['.', '.']
  · exact .inr (.inr (.inl ⟨by simp [hup], hup⟩))
  · exact .inr (.inr (.inr ⟨by simp [hempty, hdot, hup], hempty, hdot, hup⟩))

private theorem spansFrom_cons_none {offset : Nat} {s : Text} (h : partOf (offset == 0) s = none)
    (rest : List Text) : spansFrom offset (s :: rest) = spansFrom (offset + s.length + 1) rest := by
  rw [spansFrom, h]

private theorem spansFrom_cons_some {offset : Nat} {s : Text} {part : PathPart}
    (h : partOf (offset == 0) s = some part) (rest : List Text) :
    spansFrom offset (s :: rest) =
      ⟨part, offset, offset + s.length⟩ :: spansFrom (offset + s.length + 1) rest := by
  rw [spansFrom, h]

section Along

variable {α : Type} {f : α → PathPart → α}

private theorem foldl_spansFrom (hf : ∀ a, f a .here = a) (offset : Nat) (segments : List Text)
    (a : α) : ((spansFrom offset segments).map (·.part)).foldl f a = segments.foldl (along f) a := by
  induction segments generalizing offset a with
  | nil => rfl
  | cons s segments ih =>
    rw [List.foldl_cons, ← ih (offset + s.length + 1)]
    rcases partOf_cases (offset == 0) s with ⟨hp, hs⟩ | ⟨hp, rfl⟩ | ⟨hp, rfl⟩ | ⟨hp, hs⟩
    · rw [spansFrom_cons_none hp, along_idle hs]
    · rw [spansFrom_cons_some hp, List.map_cons, List.foldl_cons, hf, along_idle (.inr rfl)]
    · rw [spansFrom_cons_some hp]
      rfl
    · rw [spansFrom_cons_some hp, along_name hs]
      rfl

theorem splitOn_slash_cons (t : Text) : ('/' :: t).splitOn '/' = [] :: t.splitOn '/' := by
  rw [List.splitOn_eq_splitOnP, List.splitOnP_cons_eq_if_modifyHead]
  rfl

/-- A walk along the components is one along the segments, if the current directory leads nowhere. -/
theorem foldl_parts (hf : ∀ a, f a .here = a) (p : Path) (a : α) :
    p.parts.foldl f a =
      (p.text.splitOn '/').foldl (along f) (if p.isAbsolute then f a .root else a) := by
  obtain ⟨t⟩ := p
  unfold parts spans
  split
  · next rest hrest =>
    dsimp only at hrest
    subst hrest
    rw [splitOn_slash_cons]
    exact foldl_spansFrom hf 1 (rest.splitOn '/') (f a .root)
  · next hno =>
    have habsolute : isAbsolute ⟨t⟩ = false := by
      unfold isAbsolute
      cases t with
      | nil => rfl
      | cons c rest =>
        have hc : '/' ≠ c := fun he => hno rest (by rw [← he])
        simp [Text.startsWith, Text.after?, hc]
    rw [habsolute]
    exact foldl_spansFrom hf 0 (t.splitOn '/') a

end Along

/-! ### The directory of a file -/

theorem slash_not_mem {t s : Text} (h : s ∈ t.splitOn '/') : '/' ∉ s := by
  induction t generalizing s with
  | nil =>
    rw [List.splitOn_nil, List.mem_singleton] at h
    rw [h]
    exact List.not_mem_nil
  | cons c t ih =>
    rw [List.splitOn_eq_splitOnP, List.splitOnP_cons_eq_if_modifyHead,
      ← List.splitOn_eq_splitOnP] at h
    split at h
    · rcases List.mem_cons.mp h with rfl | h
      · exact List.not_mem_nil
      · exact ih h
    · next hc =>
      obtain ⟨first, rest, ht⟩ := List.exists_cons_of_ne_nil (List.splitOn_ne_nil '/' t)
      rw [ht, List.modifyHead_cons] at h
      rcases List.mem_cons.mp h with rfl | h
      · have hfirst := ih (ht ▸ List.mem_cons_self)
        have hne : c ≠ '/' := by simpa using hc
        simp [hfirst, hne.symm]
      · exact ih (ht ▸ List.mem_cons_of_mem first h)

theorem join_splitOn (t : Text) : Text.join ['/'] (t.splitOn '/') = t := List.intercalate_splitOn '/'

theorem splitOn_join_slash {before : List Text} (h : ∀ s ∈ before, '/' ∉ s) (hb : before ≠ [])
    (t : Text) : (Text.join ['/'] before ++ '/' :: t).splitOn '/' = before ++ t.splitOn '/' := by
  have hsplit : (Text.join ['/'] before).splitOn '/' = before := List.splitOn_intercalate '/' h hb
  rw [List.splitOn_eq_splitOnP, List.splitOnP_append_cons _ _ (by simp), ← List.splitOn_eq_splitOnP,
    ← List.splitOn_eq_splitOnP, hsplit]

private theorem idle_of_spansFrom_nil {offset : Nat} {segments : List Text}
    (h : spansFrom offset segments = []) : ∀ s ∈ segments, IsIdle s := by
  induction segments generalizing offset with
  | nil => exact fun s hs => by cases hs
  | cons t segments ih =>
    rcases partOf_cases (offset == 0) t with ⟨hp, ht⟩ | ⟨hp, -⟩ | ⟨hp, -⟩ | ⟨hp, -⟩
    · rw [spansFrom_cons_none hp] at h
      intro s hs
      rcases List.mem_cons.mp hs with rfl | hs
      · exact ht
      · exact ih h s hs
    all_goals
      rw [spansFrom_cons_some hp] at h
      cases h

/-- The last component ends where its segment ends, and the segments behind it are idle. -/
private theorem last_spansFrom {offset : Nat} {segments : List Text} {s : Span}
    (h : (spansFrom offset segments).getLast? = some s) :
    ∃ before segment after, segments = before ++ segment :: after ∧ segment ≠ [] ∧
      s.stop = offset + (Text.join ['/'] (before ++ [segment])).length ∧ ∀ t ∈ after, IsIdle t := by
  induction segments generalizing offset with
  | nil => cases h
  | cons t segments ih =>
    have hbehind (hlast : (spansFrom (offset + t.length + 1) segments).getLast? = some s) :
        ∃ before segment after, t :: segments = before ++ segment :: after ∧ segment ≠ [] ∧
          s.stop = offset + (Text.join ['/'] (before ++ [segment])).length ∧
          ∀ t ∈ after, IsIdle t := by
      obtain ⟨before, segment, after, rfl, hne, hstop, hafter⟩ := ih hlast
      refine ⟨t :: before, segment, after, rfl, hne, ?_, hafter⟩
      have hjoin : Text.join ['/'] (t :: (before ++ [segment])) =
          t ++ '/' :: Text.join ['/'] (before ++ [segment]) := by
        have h : Text.join ['/'] ([t] ++ (before ++ [segment])) = _ :=
          Text.join_append (List.cons_ne_nil t [])
            (List.append_ne_nil_of_right_ne_nil before (List.cons_ne_nil segment []))
        rwa [Text.join_singleton] at h
      rw [List.cons_append, hjoin, hstop, List.length_append, List.length_cons]
      omega
    rcases partOf_cases (offset == 0) t with ⟨hp, -⟩ | hsome
    · rw [spansFrom_cons_none hp] at h
      exact hbehind h
    · have hne : t ≠ [] := by
        rcases hsome with ⟨-, rfl⟩ | ⟨-, rfl⟩ | ⟨-, ht⟩
        · exact List.cons_ne_nil _ _
        · exact List.cons_ne_nil _ _
        · exact ht.1
      obtain ⟨part, hp⟩ : ∃ part, partOf (offset == 0) t = some part := by
        rcases hsome with ⟨hp, -⟩ | ⟨hp, -⟩ | ⟨hp, -⟩ <;> exact ⟨_, hp⟩
      rw [spansFrom_cons_some hp, List.getLast?_cons] at h
      cases hlast : (spansFrom (offset + t.length + 1) segments).getLast? with
      | some u =>
        rw [hlast] at h
        cases h
        exact hbehind hlast
      | none =>
        rw [hlast] at h
        cases h
        refine ⟨[], t, segments, rfl, hne, ?_,
          idle_of_spansFrom_nil (List.getLast?_eq_none_iff.mp hlast)⟩
        rw [List.nil_append, Text.join_singleton]
        rfl

private theorem spansFrom_concat_name {segment : Text} (h : IsName segment) (offset : Nat)
    (segments : List Text) : ∃ s, s.part = .name segment ∧
      spansFrom offset (segments ++ [segment]) = spansFrom offset segments ++ [s] := by
  induction segments generalizing offset with
  | nil =>
    rcases partOf_cases (offset == 0) segment with ⟨-, hs⟩ | ⟨-, rfl⟩ | ⟨-, rfl⟩ | ⟨hp, -⟩
    · exact (hs.elim h.1 h.2.1).elim
    · exact absurd rfl h.2.1
    · exact absurd rfl h.2.2
    · exact ⟨_, rfl, spansFrom_cons_some hp []⟩
  | cons t segments ih =>
    obtain ⟨s, hs, hspans⟩ := ih (offset + t.length + 1)
    refine ⟨s, hs, ?_⟩
    rw [List.cons_append]
    rcases partOf_cases (offset == 0) t with ⟨hp, -⟩ | ⟨hp, -⟩ | ⟨hp, -⟩ | ⟨hp, -⟩
    · rw [spansFrom_cons_none hp, spansFrom_cons_none hp, hspans]
    all_goals rw [spansFrom_cons_some hp, spansFrom_cons_some hp, hspans, List.cons_append]

theorem getLast?_join {before : List Text} {segment : Text} (h : segment ≠ []) :
    (Text.join ['/'] (before ++ [segment])).getLast? = segment.getLast? := by
  cases before with
  | nil => rw [List.nil_append, Text.join_singleton]
  | cons s before =>
    obtain ⟨c, rest, rfl⟩ := List.exists_cons_of_ne_nil h
    rw [Text.join_append (List.cons_ne_nil s before) (List.cons_ne_nil _ []), Text.join_singleton,
      List.getLast?_append, List.getLast?_cons_cons, List.getLast?_cons]
    rfl

theorem parent?_concat {p : Path} {front : List Span} {s last : Span}
    (h : p.spans = front ++ [last]) (hs : front.getLast? = some s) :
    p.parent? = some ⟨p.text.take s.stop⟩ := by
  obtain ⟨before, rfl⟩ := List.getLast?_eq_some_iff.mp hs
  unfold parent?
  rw [h, List.reverse_append, List.reverse_append]
  rfl

theorem parent?_single {p : Path} {s : Span} (h : p.spans = [s]) (hs : s.part ≠ .root) :
    p.parent? = some ⟨[]⟩ := by
  unfold parent?
  rw [h]
  exact if_neg hs

theorem exists_of_isAbsolute {p : Path} (h : p.isAbsolute = true) : ∃ rest, p = ⟨'/' :: rest⟩ := by
  obtain ⟨t⟩ := p
  unfold isAbsolute Text.startsWith at h
  cases t with
  | nil => cases h
  | cons c rest =>
    simp only [Text.after?] at h
    split at h
    · next hc => exact ⟨rest, by rw [hc]⟩
    · cases h

theorem isAbsolute_append {t : Text} (h : t ≠ []) (more : Text) :
    isAbsolute ⟨t ++ more⟩ = isAbsolute ⟨t⟩ := by
  obtain ⟨c, rest, rfl⟩ := List.exists_cons_of_ne_nil h
  unfold isAbsolute Text.startsWith
  simp only [List.cons_append, Text.after?]
  split <;> rfl

/-- A relative path seen from a directory whose path does not end in a slash. -/
theorem join_of_getLast? {base q : Path} (hq : q.isAbsolute = false) (hb : base.text ≠ [])
    (hlast : base.text.getLast? ≠ some '/') : base.join q = ⟨base.text ++ '/' :: q.text⟩ := by
  unfold join isEmpty
  rw [if_neg (by simp [hq, hb]), if_neg (by simpa using hlast)]

theorem spans_absolute (rest : Text) :
    spans ⟨'/' :: rest⟩ = ⟨.root, 0, 1⟩ :: spansFrom 1 (rest.splitOn '/') := rfl

theorem spans_relative {p : Path} (h : p.isAbsolute = false) :
    p.spans = spansFrom 0 (p.text.splitOn '/') := by
  obtain ⟨t⟩ := p
  unfold spans
  split
  · next rest hrest =>
    dsimp only at hrest
    subst hrest
    cases h
  · rfl

/-- A relative path seen from `base` has its segments behind those of `front`, but for idle ones. -/
def GoesOn (base : Path) (absolute : Bool) (front : List Text) : Prop :=
  ∃ before after, front = before ++ after ∧ (∀ s ∈ after, IsIdle s) ∧
    ∀ q : Path, q.isAbsolute = false →
      (base.join q).text.splitOn '/' = before ++ q.text.splitOn '/' ∧
        (base.join q).isAbsolute = absolute

theorem goesOn_root {inner : List Text} (h : ∀ s ∈ inner, IsIdle s) :
    GoesOn ⟨['/']⟩ true ([] :: inner) := by
  refine ⟨[[]], inner, rfl, h, fun q hq => ?_⟩
  have hjoin : join ⟨['/']⟩ q = ⟨'/' :: q.text⟩ := by
    unfold join
    rw [hq]
    rfl
  rw [hjoin]
  exact ⟨splitOn_slash_cons q.text, rfl⟩

theorem goesOn_empty {front : List Text} (h : ∀ s ∈ front, IsIdle s) :
    GoesOn ⟨[]⟩ false front := by
  refine ⟨[], front, rfl, h, fun q hq => ?_⟩
  have hjoin : join ⟨[]⟩ q = q := if_pos (by simp [isEmpty])
  rw [hjoin]
  exact ⟨rfl, hq⟩

/-- A path of which `lead` is the part that has no components but the root, cut behind the last
component of `front`. -/
private theorem goesOn_take (lead : Text) (opened : List Text) {text : Text}
    {front rest : List Text} {u : Span}
    (hlead : ∀ t : Text, (lead ++ t).splitOn '/' = opened ++ t.splitOn '/')
    (htext : text.splitOn '/' = front ++ rest) (hrest : rest ≠ [])
    (hu : (spansFrom lead.length front).getLast? = some u) :
    GoesOn ⟨(lead ++ text).take u.stop⟩ (isAbsolute ⟨lead ++ text⟩) (opened ++ front) := by
  obtain ⟨before, last, after, rfl, hne, hstop, hafter⟩ := last_spansFrom hu
  have hbefore : before ++ [last] ≠ [] :=
    List.append_ne_nil_of_right_ne_nil _ (List.cons_ne_nil last [])
  have hsplit : (before ++ last :: after) ++ rest = (before ++ [last]) ++ (after ++ rest) := by simp
  have hjoin : text = Text.join ['/'] (before ++ [last]) ++ '/' :: Text.join ['/'] (after ++ rest) := by
    rw [← Text.join_append hbefore (List.append_ne_nil_of_right_ne_nil _ hrest), ← hsplit, ← htext,
      join_splitOn]
  have hslash : ∀ s ∈ before ++ [last], '/' ∉ s := by
    intro s hs
    have hmem : s ∈ text.splitOn '/' := by
      rw [htext, hsplit]
      exact List.mem_append_left _ hs
    exact slash_not_mem hmem
  have htake : (lead ++ text).take u.stop = lead ++ Text.join ['/'] (before ++ [last]) := by
    rw [hjoin, ← List.append_assoc, hstop, ← List.length_append, List.take_left]
  have hlast : (lead ++ Text.join ['/'] (before ++ [last])).getLast? = last.getLast? := by
    rw [List.getLast?_append, getLast?_join hne, List.getLast?_eq_some_getLast hne]
    rfl
  have hbase : lead ++ Text.join ['/'] (before ++ [last]) ≠ [] := by
    intro h
    rw [h] at hlast
    exact hne (List.getLast?_eq_none_iff.mp hlast.symm)
  refine ⟨opened ++ (before ++ [last]), after, by simp, hafter, fun q hq => ?_⟩
  rw [htake, join_of_getLast? hq hbase]
  · constructor
    · rw [List.append_assoc lead, hlead, splitOn_join_slash hslash hbefore]
      exact (List.append_assoc _ _ _).symm
    · rw [isAbsolute_append hbase, hjoin, ← List.append_assoc, isAbsolute_append hbase]
  · rw [hlast]
    exact fun h => hslash last (by simp) (List.mem_of_getLast? h)

private theorem parent?_absolute {rest : Text} {inner : List Text} {segment : Text}
    (hrest : rest.splitOn '/' = inner ++ [segment]) (hs : IsName segment) :
    ∃ base, parent? ⟨'/' :: rest⟩ = some base ∧ GoesOn base true ([] :: inner) := by
  obtain ⟨s, -, hspans⟩ := spansFrom_concat_name hs 1 inner
  have hall : spans ⟨'/' :: rest⟩ = (⟨.root, 0, 1⟩ :: spansFrom 1 inner) ++ [s] := by
    rw [spans_absolute, hrest, hspans]
    rfl
  cases hlast : (spansFrom 1 inner).getLast? with
  | none =>
    have hnil := List.getLast?_eq_none_iff.mp hlast
    have hroot : (⟨.root, 0, 1⟩ :: spansFrom 1 inner).getLast? = some ⟨.root, 0, 1⟩ := by
      rw [hnil]
      rfl
    exact ⟨_, parent?_concat hall hroot, goesOn_root (idle_of_spansFrom_nil hnil)⟩
  | some u =>
    have hu : (⟨.root, 0, 1⟩ :: spansFrom 1 inner).getLast? = some u := by
      rw [List.getLast?_cons, hlast]
      rfl
    exact ⟨_, parent?_concat hall hu,
      goesOn_take ['/'] [[]] splitOn_slash_cons hrest (List.cons_ne_nil segment []) hlast⟩

private theorem parent?_relative {p : Path} {front : List Text} {segment : Text}
    (habsolute : p.isAbsolute = false) (hp : p.text.splitOn '/' = front ++ [segment])
    (hs : IsName segment) : ∃ base, p.parent? = some base ∧ GoesOn base false front := by
  obtain ⟨s, hname, hspans⟩ := spansFrom_concat_name hs 0 front
  have hall : p.spans = spansFrom 0 front ++ [s] := by
    rw [spans_relative habsolute, hp, hspans]
  cases hlast : (spansFrom 0 front).getLast? with
  | none =>
    have hnil := List.getLast?_eq_none_iff.mp hlast
    rw [hnil] at hall
    have hroot : s.part ≠ .root := by
      rw [hname]
      exact PathPart.noConfusion
    exact ⟨_, parent?_single hall hroot, goesOn_empty (idle_of_spansFrom_nil hnil)⟩
  | some u =>
    have hbase := goesOn_take [] [] (fun _ => rfl) hp (List.cons_ne_nil segment []) hlast
    refine ⟨_, parent?_concat hall hlast, ?_⟩
    rwa [show isAbsolute ⟨[] ++ p.text⟩ = false from habsolute] at hbase

/-- The last segment of a path is its file name, if it is a name. -/
theorem fileName?_of_splitOn {p : Path} {front : List Text} {segment : Text}
    (hp : p.text.splitOn '/' = front ++ [segment]) (hs : IsName segment) :
    p.fileName? = some segment := by
  obtain ⟨before, hparts⟩ : ∃ before, p.parts = before ++ [.name segment] := by
    unfold parts
    cases habsolute : p.isAbsolute with
    | true =>
      obtain ⟨rest, rfl⟩ := exists_of_isAbsolute habsolute
      rw [splitOn_slash_cons] at hp
      cases front with
      | nil => exact absurd (List.cons.inj hp).1.symm hs.1
      | cons t inner =>
        obtain ⟨s, hname, hspans⟩ := spansFrom_concat_name hs 1 inner
        have hrest : rest.splitOn '/' = inner ++ [segment] := (List.cons.inj hp).2
        rw [spans_absolute, hrest, hspans, ← List.cons_append, List.map_append, List.map_singleton,
          hname]
        exact ⟨_, rfl⟩
    | false =>
      obtain ⟨s, hname, hspans⟩ := spansFrom_concat_name hs 0 front
      rw [spans_relative habsolute, hp, hspans, List.map_append, List.map_singleton, hname]
      exact ⟨_, rfl⟩
  unfold fileName?
  rw [hparts, List.getLast?_concat]

private theorem spansFrom_concat_empty (offset : Nat) (segments : List Text) :
    spansFrom offset (segments ++ [[]]) = spansFrom offset segments := by
  induction segments generalizing offset with
  | nil => exact spansFrom_cons_none rfl []
  | cons s segments ih =>
    rw [List.cons_append]
    cases hp : partOf (offset == 0) s with
    | none => rw [spansFrom_cons_none hp, spansFrom_cons_none hp, ih]
    | some part => rw [spansFrom_cons_some hp, spansFrom_cons_some hp, ih]

/-- A name behind the segments of a path, which may end in a slash, is one component more. -/
theorem parts_concat_name {p q : Path} {front : List Text} {segment : Text}
    (habsolute : q.isAbsolute = p.isAbsolute)
    (hp : p.text.splitOn '/' = front ∨ p.text.splitOn '/' = front ++ [[]])
    (hq : q.text.splitOn '/' = front ++ [segment]) (hs : IsName segment) :
    q.parts = p.parts ++ [.name segment] := by
  have behind (offset : Nat) {before segments : List Text}
      (h : segments = before ∨ segments = before ++ [[]]) :
      (spansFrom offset (before ++ [segment])).map (·.part) =
        (spansFrom offset segments).map (·.part) ++ [.name segment] := by
    obtain ⟨s, hname, hspans⟩ := spansFrom_concat_name hs offset before
    have hsame : spansFrom offset segments = spansFrom offset before := by
      rcases h with rfl | rfl
      · rfl
      · exact spansFrom_concat_empty offset before
    rw [hspans, hsame, List.map_append, List.map_singleton, hname]
  unfold parts
  cases hroot : p.isAbsolute with
  | true =>
    obtain ⟨rest, rfl⟩ := exists_of_isAbsolute hroot
    obtain ⟨more, rfl⟩ := exists_of_isAbsolute (habsolute.trans hroot)
    rw [splitOn_slash_cons] at hp hq
    cases front with
    | nil => exact absurd (List.cons.inj hq).1.symm hs.1
    | cons t inner =>
      have hmore : more.splitOn '/' = inner ++ [segment] := (List.cons.inj hq).2
      have hrest : rest.splitOn '/' = inner ∨ rest.splitOn '/' = inner ++ [[]] :=
        hp.imp (fun h => (List.cons.inj h).2) fun h => (List.cons.inj h).2
      rw [spans_absolute, spans_absolute, hmore, List.map_cons, List.map_cons, behind 1 hrest,
        List.cons_append]
  | false =>
    rw [spans_relative hroot, spans_relative (habsolute.trans hroot), hq]
    exact behind 0 hp

/-- From the directory of a path that ends in a name, relative paths go on in front of that name. -/
theorem exists_parent {p : Path} {front : List Text} {segment : Text}
    (hp : p.text.splitOn '/' = front ++ [segment]) (hs : IsName segment) :
    ∃ base, p.parent? = some base ∧ GoesOn base p.isAbsolute front := by
  cases habsolute : p.isAbsolute with
  | true =>
    obtain ⟨rest, rfl⟩ := exists_of_isAbsolute habsolute
    rw [splitOn_slash_cons] at hp
    cases front with
    | nil => exact absurd (List.cons.inj hp).1.symm hs.1
    | cons s inner =>
      obtain ⟨rfl, hrest⟩ := List.cons.inj hp
      exact parent?_absolute hrest hs
  | false => exact parent?_relative habsolute hp hs

end Path

end ConversationFlow
