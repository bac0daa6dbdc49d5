import ConversationFlow.Value.Basic
import ConversationFlow.Yaml.Lexer
import ConversationFlow.Yaml.Node

/-!
# YAML values

A value is a node of a document, behind anchors and aliases. What a scalar means is for the reader
of a field to say, from its text, from the way it is written and from its tag.
-/

namespace ConversationFlow

open Yaml in
/-- A value in a document. -/
structure Yaml where
  root : Node
  node : Node

namespace Yaml

/-- The value of a node of the same document. -/
private def inSame (v : Yaml) (n : Node) : Yaml := ⟨v.root, n.content v.root⟩

/-- Any scalar is a text. -/
def text? (v : Yaml) : Option Text :=
  match v.node with
  | .scalar t _ _ => some t
  | _ => none

/-- The value of the digits of a number in some base. -/
private def inBase? (base : Nat) (t : Text) : Option Nat :=
  let digit? (c : Char) : Option Nat :=
    let n := if Text.isDigit c then some (c.toNat - 48)
      else if Text.isLowerLetter c then some (c.toNat - 87)
      else if Text.isUpperLetter c then some (c.toNat - 55)
      else none
    n.filter fun d => d < base
  if t.isEmpty then none
  else t.foldl (fun n c => n.bind fun n => (digit? c).map (base * n + ·)) (some 0)

/-- A number in digits, without a zero before them. -/
private def unsigned? (t : Text) : Option Nat :=
  match t with
  | '0' :: 'x' :: t => inBase? 16 t
  | '0' :: 'o' :: t => inBase? 8 t
  | '0' :: 'b' :: t => inBase? 2 t
  | ['0'] => some 0
  | '0' :: _ => none
  | t => inBase? 10 t

/-- The name of a tag of the core schema. -/
private def coreTag (name : String) : Text := "tag:yaml.org,2002:".toList ++ name.toList

/-- The text of a scalar that may be of the type with this tag: a plain one, or a literal one that
has the tag. -/
private def typedText? (tag : String) (v : Yaml) : Option Text :=
  match v.node with
  | .scalar t .plain _ => some t
  | .scalar t .literal given => if given = some (coreTag tag) then some t else none
  | _ => none

/-- A whole number below `2 ^ 64`. -/
def nat? (v : Yaml) : Option Nat := do
  let t ← v.typedText? "int"
  (unsigned? (match t with | '+' :: t => t | t => t)).filter fun n => n < wordSize 64

def bool? (v : Yaml) : Option Bool := do
  let t ← v.typedText? "bool"
  if ["true", "True", "TRUE"].any fun w => t = w.toList then some true
  else if ["false", "False", "FALSE"].any fun w => t = w.toList then some false
  else none

private def isNullWord (t : Text) : Bool :=
  ["~", "null", "Null", "NULL"].any fun w => t = w.toList

/-- A value that may be null. A plain scalar with a tag is null by its tag, which must then be
true of it, and without a tag by its text. -/
def orNull {α : Type} (read : Yaml → Option α) (v : Yaml) : Option (Option α) :=
  match v.node with
  | .scalar t .plain none => if t.isEmpty || isNullWord t then some none else (read v).map some
  | .scalar t .plain (some tag) =>
    if tag = coreTag "null" then if isNullWord t then some none else none
    else (read v).map some
  | _ => (read v).map some

/-- The entries of a mapping, whose keys are scalars; a value that is left out has none. -/
def entries? (v : Yaml) : Option (List (Text × Yaml)) :=
  match v.node with
  | .map es => es.mapM fun (k, w) => ((v.inSame k).text?).map (·, v.inSame w)
  | .scalar [] .plain _ => some []
  | _ => none

/-- A field of a mapping, which may be missing and may not stand twice. -/
def fieldOr {α : Type} (es : List (Text × Yaml)) (name : String) (default : α)
    (read : Yaml → Option α) : Option α :=
  match es.filter fun e => e.1 == name.toList with
  | [] => some default
  | [e] => read e.2
  | _ => none

/-- The value of a text that holds one document; an empty text has an empty value. -/
def read? (t : Text) : Option Yaml := do
  let root := (← Node.ofTokens? (← Token.ofText? t)).getD .empty
  return ⟨root, root.content root⟩

end Yaml

end ConversationFlow
