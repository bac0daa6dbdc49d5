import ConversationFlow.Text.Basic

/-!
# Dictionaries

A dictionary gives a value to each of finitely many names. Its entries stand in
increasing order of their names, so two dictionaries that give the same values
are equal; `get?_insert` says what an insertion changes.
-/

namespace ConversationFlow

/-- Names with values, in increasing order of the names. -/
structure Dictionary (α : Type) where
  entries : List (Text × α)
  increasing : (entries.map (·.1)).Pairwise (· < ·) := by simp

namespace Dictionary

variable {α : Type}

instance [DecidableEq α] : DecidableEq (Dictionary α) := fun a b =>
  decidable_of_iff (a.entries = b.entries) <| by
    cases a; cases b; simp

def empty : Dictionary α := ⟨[], by simp⟩

instance : Inhabited (Dictionary α) := ⟨empty⟩

/-- The value of a name. -/
def get? (d : Dictionary α) (name : Text) : Option α :=
  (d.entries.find? fun e => e.1 == name).map (·.2)

def contains (d : Dictionary α) (name : Text) : Bool := (d.get? name).isSome

def names (d : Dictionary α) : List Text := d.entries.map (·.1)

def size (d : Dictionary α) : Nat := d.entries.length

def isEmpty (d : Dictionary α) : Bool := d.entries.isEmpty

/-- Entries with one more, which takes the place of one of the same name. -/
def place (name : Text) (v : α) : List (Text × α) → List (Text × α)
  | [] => [(name, v)]
  | e :: es =>
    if name < e.1 then (name, v) :: e :: es
    else if e.1 < name then e :: place name v es
    else (e.1, v) :: es

theorem mem_names_place {name n : Text} {v : α} {es : List (Text × α)}
    (h : n ∈ (place name v es).map (·.1)) : n = name ∨ n ∈ es.map (·.1) := by
  induction es with
  | nil => simpa [place] using h
  | cons e es ih =>
    unfold place at h
    split at h
    · simpa using h
    · split at h
      · rcases List.mem_cons.1 h with h | h
        · exact Or.inr (by simp [h])
        · rcases ih h with h | h
          · exact Or.inl h
          · exact Or.inr (by simp at h ⊢; exact Or.inr h)
      · exact Or.inr (by simpa using h)

theorem increasing_place (name : Text) (v : α) :
    ∀ {es : List (Text × α)}, (es.map (·.1)).Pairwise (· < ·) →
      ((place name v es).map (·.1)).Pairwise (· < ·)
  | [], _ => by simp [place]
  | e :: es, h => by
    have ⟨first, rest⟩ := List.pairwise_cons.1 h
    unfold place
    split
    · next lt =>
      refine List.pairwise_cons.2 ⟨fun n hn => ?_, h⟩
      rcases List.mem_cons.1 hn with rfl | hn
      · exact lt
      · exact List.lt_trans lt (first n hn)
    · split
      · next lt =>
        refine List.pairwise_cons.2 ⟨fun n hn => ?_, increasing_place name v rest⟩
        rcases mem_names_place hn with rfl | hn
        · exact lt
        · exact first n hn
      · exact h

/-- Gives a name a value, in place of the one it had. -/
def insert (d : Dictionary α) (name : Text) (v : α) : Dictionary α :=
  ⟨place name v d.entries, increasing_place name v d.increasing⟩

private theorem find?_place (name n : Text) (v : α) (es : List (Text × α)) :
    ((place name v es).find? fun e => e.1 == n).map (·.2) =
      if n = name then some v else (es.find? fun e => e.1 == n).map (·.2) := by
  induction es with
  | nil =>
    by_cases h : n = name
    · simp [place, h]
    · simp [place, h, Ne.symm h]
  | cons e es ih =>
    unfold place
    split
    · by_cases h : n = name
      · simp [h]
      · have : (name == n) = false := by simpa using Ne.symm h
        rw [List.find?_cons, this, if_neg h]
    · next notBelow =>
      split
      · next below =>
        by_cases h : e.1 = n
        · have other : n ≠ name := fun same => List.lt_irrefl name (by rwa [h, same] at below)
          simp [h, other]
        · have : (e.1 == n) = false := by simpa using h
          rw [List.find?_cons, List.find?_cons, this]
          exact ih
      · next notAbove =>
        obtain rfl : name = e.1 := by
          rcases Std.lt_trichotomy name e.1 with lt | same | gt
          · exact absurd lt notBelow
          · exact same
          · exact absurd gt notAbove
        by_cases h : n = e.1
        · simp [h]
        · have : (e.1 == n) = false := by simpa using Ne.symm h
          simp [this, h]

@[simp]
theorem get?_insert (d : Dictionary α) (name n : Text) (v : α) :
    (d.insert name v).get? n = if n = name then some v else d.get? n :=
  find?_place name n v d.entries

/-- Takes a name out. -/
def erase (d : Dictionary α) (name : Text) : Dictionary α where
  entries := d.entries.filter fun e => e.1 != name
  increasing := d.increasing.sublist (List.filter_sublist.map _)

/-- Inserts the entries in order, so that the last of several for one name stays. -/
def insertAll (d : Dictionary α) (es : List (Text × α)) : Dictionary α :=
  es.foldl (fun d e => d.insert e.1 e.2) d

def ofList (es : List (Text × α)) : Dictionary α := empty.insertAll es

end Dictionary

end ConversationFlow
