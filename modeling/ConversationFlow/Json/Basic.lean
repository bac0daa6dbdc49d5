import ConversationFlow.Text.Dictionary

/-!
# JSON values

The values of JSON text, with whole numbers kept apart from numbers that carry a
fraction, an exponent or the sign of zero. Fields keep the order in which they
were written; a look-up takes the last field of a name.
-/

namespace ConversationFlow

/-- A JSON value. -/
inductive Json where
  | null
  | bool (b : Bool)
  | int (n : Int)
  | real (x : Float)
  | str (t : Text)
  | arr (items : List Json)
  | obj (fields : List (Text × Json))
deriving Inhabited

namespace Json

instance : Coe Text Json := ⟨.str⟩

/-- A string literal as a JSON string. -/
def lit (s : String) : Json := .str s.toList

/-- A field of an object under construction. -/
def field (name : String) (v : Json) : Text × Json := (name.toList, v)

def nat (n : Nat) : Json := .int n

def texts (ts : List Text) : Json := .arr (ts.map .str)

/-- The value itself, or null. -/
def ofOption {α : Type} (f : α → Json) : Option α → Json
  | some a => f a
  | none => .null

/-- The last field of a name. -/
def get? (name : Text) : Json → Option Json
  | .obj fields => (fields.reverse.find? fun f => f.1 == name).map (·.2)
  | _ => none

/-- The last field of a name, null if there is none. -/
def get (j : Json) (name : String) : Json := (j.get? name.toList).getD .null

def text? : Json → Option Text
  | .str t => some t
  | _ => none

def bool? : Json → Option Bool
  | .bool b => some b
  | _ => none

/-- A whole number from 0 to `limit`. -/
def nat? (limit : Nat) : Json → Option Nat
  | .int (.ofNat n) => if n ≤ limit then some n else none
  | _ => none

def int? : Json → Option Int
  | .int n => some n
  | _ => none

/-- Any number. -/
def float? : Json → Option Float
  | .int n => some (Float.ofInt n)
  | .real x => some x
  | _ => none

def items? : Json → Option (List Json)
  | .arr items => some items
  | _ => none

def fields? : Json → Option (List (Text × Json))
  | .obj fields => some fields
  | _ => none

/-- The object of a record. It may also be a list of the values of its fields in the order of their
names, which may leave out the last ones, down to `least` values. -/
def record? (names : List String) (least : Nat) : Json → Option Json
  | .arr items =>
    if least ≤ items.length && items.length ≤ names.length then
      some (.obj ((names.map String.toList).zip items))
    else none
  | .obj fields => some (.obj fields)
  | _ => none

/-- The name that a value is one of several by: a text, or an object with the name as its one
field. The value of that field says nothing: it is null or, where `mayBeEmpty` says so, an empty
object. -/
def name? (mayBeEmpty : Bool) : Json → Option Text
  | .str t => some t
  | .obj [(name, .null)] => some name
  | .obj [(name, .obj [])] => if mayBeEmpty then some name else none
  | _ => none

/-- The kind of a record whose field `tag` names it, and the record; of a list, its first item and
the list of the others. -/
def tagged? (tag : String) (j : Json) : Option (Json × Json) :=
  match j with
  | .arr (kind :: items) => some (kind, .arr items)
  | .obj _ => (j.get? tag.toList).map (·, j)
  | _ => none

/-- A field that must be there. -/
def required {α : Type} (j : Json) (name : String) (read : Json → Option α) : Option α :=
  (j.get? name.toList).bind read

/-- A field that may be missing or null. -/
def optional {α : Type} (j : Json) (name : String) (read : Json → Option α) :
    Option (Option α) :=
  match j.get? name.toList with
  | none | some .null => some none
  | some v => (read v).map some

/-- A field that may be missing. -/
def fieldOr {α : Type} (j : Json) (name : String) (default : α) (read : Json → Option α) :
    Option α :=
  match j.get? name.toList with
  | none => some default
  | some v => read v

/-- A list whose items are all read. -/
def list? {α : Type} (read : Json → Option α) (j : Json) : Option (List α) :=
  j.items?.bind fun items => items.mapM read

/-- A list of texts. -/
def texts? (j : Json) : Option (List Text) := j.list? text?

/-- Two texts in a list. -/
def textPair? : Json → Option (Text × Text)
  | .arr [.str a, .str b] => some (a, b)
  | _ => none

mutual

/-- The value with the fields of every object in increasing order, of several of one name the
last one. -/
def canonical : Json → Json
  | .arr items => .arr (canonicalItems items)
  | .obj fields => .obj (Dictionary.ofList (canonicalFields fields)).entries
  | v => v

private def canonicalItems : List Json → List Json
  | [] => []
  | v :: vs => canonical v :: canonicalItems vs

private def canonicalFields : List (Text × Json) → List (Text × Json)
  | [] => []
  | (name, v) :: fs => (name, canonical v) :: canonicalFields fs

end

mutual

/-- How deep lists and objects are nested. -/
def depth : Json → Nat
  | .arr items => depthOfItems items + 1
  | .obj fields => depthOfFields fields + 1
  | _ => 0

def depthOfItems : List Json → Nat
  | [] => 0
  | v :: vs => max (depth v) (depthOfItems vs)

def depthOfFields : List (Text × Json) → Nat
  | [] => 0
  | (_, v) :: fs => max (depth v) (depthOfFields fs)

end

end Json

end ConversationFlow
