import ConversationFlow.Decimal
import ConversationFlow.Json.Basic
import ConversationFlow.Value.Basic

/-!
# Writing JSON

The two forms of JSON text: compact, on one line without blanks, and indented by
two blanks a level. A number without digits is written as null.
-/

namespace ConversationFlow.Json

def hexDigit (n : Nat) : Char := (Nat.toDigits 16 n).headD '0'

/-- A character of a string, escaped if it would end the string or is a control. -/
def escaped (c : Char) : Text :=
  if c = '"' then ['\\', '"']
  else if c = '\\' then ['\\', '\\']
  else if c = '\n' then ['\\', 'n']
  else if c = '\r' then ['\\', 'r']
  else if c = '\t' then ['\\', 't']
  else if c.toNat = 8 then ['\\', 'b']
  else if c.toNat = 12 then ['\\', 'f']
  else if c.toNat < 0x20 then
    ['\\', 'u', '0', '0', hexDigit (c.toNat / 16), hexDigit (c.toNat % 16)]
  else [c]

/-- A text between quotes. -/
def quoted (t : Text) : Text := '"' :: (t.flatMap escaped ++ ['"'])

/-- A finite number: positional with a point from `1e-5` to below `1e16`, else with an exponent. -/
def realText (x : Float) : Text :=
  if x.isNaN || x.isInf then "null"
  else
    let sign : Text := if x.toBits.toNat / wordSize 63 = 1 then "-" else ""
    let b := Decimal.Binary.ofFloat x
    if b.mantissa = 0 then sign ++ "0.0"
    else
      let d := b.interval.shortest
      let digits := Text.ofNat d.digits
      let top : Int := digits.length + d.exponent
      if 0 ≤ d.exponent ∧ top ≤ 16 then sign ++ d.positional ++ ".0"
      else if -5 < top ∧ top ≤ 16 then sign ++ d.positional
      else
        let point : Text := if digits.length = 1 then [] else '.' :: digits.drop 1
        sign ++ digits.take 1 ++ point ++ 'e' :: Text.ofInt (top - 1)

def scalar : Json → Text
  | .null => "null"
  | .bool b => if b then "true" else "false"
  | .int n => Text.ofInt n
  | .real x => realText x
  | .str t => quoted t
  | .arr _ | .obj _ => []

mutual

/-- The compact text of a value. -/
def compact : Json → Text
  | .arr items => '[' :: (compactItems items ++ [']'])
  | .obj fields => '{' :: (compactFields fields ++ ['}'])
  | v => scalar v

private def compactItems : List Json → Text
  | [] => []
  | [v] => compact v
  | v :: vs => compact v ++ ',' :: compactItems vs

private def compactFields : List (Text × Json) → Text
  | [] => []
  | [(name, v)] => quoted name ++ ':' :: compact v
  | (name, v) :: fs => quoted name ++ ':' :: (compact v ++ ',' :: compactFields fs)

end

def newLine (level : Nat) : Text := '\n' :: List.replicate (2 * level) ' '

mutual

/-- The indented text of a value that stands `level` levels deep. -/
def indented (level : Nat) : Json → Text
  | .arr [] => "[]"
  | .arr (v :: vs) => '[' :: (indentedItems (level + 1) (v :: vs) ++ newLine level ++ [']'])
  | .obj [] => ['{', '}']
  | .obj (f :: fs) => '{' :: (indentedFields (level + 1) (f :: fs) ++ newLine level ++ ['}'])
  | v => scalar v

def indentedItems (level : Nat) : List Json → Text
  | [] => []
  | [v] => newLine level ++ indented level v
  | v :: vs => newLine level ++ indented level v ++ ',' :: indentedItems level vs

def indentedFields (level : Nat) : List (Text × Json) → Text
  | [] => []
  | [(name, v)] => newLine level ++ quoted name ++ ':' :: ' ' :: indented level v
  | (name, v) :: fs =>
    newLine level ++ quoted name ++ ':' :: ' ' :: (indented level v ++ ',' :: indentedFields level fs)

end

/-- The indented text of a value. -/
def pretty (v : Json) : Text := indented 0 v

end ConversationFlow.Json
