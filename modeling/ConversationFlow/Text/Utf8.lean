import ConversationFlow.Text.Basic

/-!
# Bytes and text

Files and the output of commands are bytes. `ofBytes?` reads them as UTF-8 and
refuses an ill-formed sequence; `ofBytesLossy` writes U+FFFD for each maximal
ill-formed piece. Both are views of one list of decoding steps.
-/

namespace ConversationFlow

/-- A sequence of bytes. -/
abbrev Bytes := List UInt8

namespace Text

/-- The bytes of a text in UTF-8. -/
def toBytes (t : Text) : Bytes := t.flatMap String.utf8EncodeChar

private def isContinuation (b : UInt8) : Bool := 0x80 ≤ b && b ≤ 0xBF

/-- The second bytes that may follow the first byte of a sequence of three or four. -/
private def secondOk (lead second : UInt8) : Bool :=
  if lead == 0xE0 then 0xA0 ≤ second && second ≤ 0xBF
  else if lead == 0xED then 0x80 ≤ second && second ≤ 0x9F
  else if lead == 0xF0 then 0x90 ≤ second && second ≤ 0xBF
  else if lead == 0xF4 then 0x80 ≤ second && second ≤ 0x8F
  else isContinuation second

private def scalar (lead : Nat) (rest : List UInt8) : Char :=
  Char.ofNat (rest.foldl (fun n b => n * 64 + (b.toNat - 0x80)) lead)

/-- The character at the front of `b :: rest`, or `none` for an ill-formed piece, and how
many bytes of `rest` belong to it. -/
private def decodeFront (b : UInt8) (rest : Bytes) : Option Char × Nat :=
  if b < 0x80 then (some (Char.ofNat b.toNat), 0)
  else if 0xC2 ≤ b && b ≤ 0xDF then
    match rest with
    | c :: _ => if isContinuation c then (some (scalar (b.toNat - 0xC0) [c]), 1) else (none, 0)
    | [] => (none, 0)
  else if 0xE0 ≤ b && b ≤ 0xEF then
    match rest with
    | c :: d :: _ =>
      if !secondOk b c then (none, 0)
      else if isContinuation d then (some (scalar (b.toNat - 0xE0) [c, d]), 2)
      else (none, 1)
    | [c] => (none, if secondOk b c then 1 else 0)
    | [] => (none, 0)
  else if 0xF0 ≤ b && b ≤ 0xF4 then
    match rest with
    | c :: d :: e :: _ =>
      if !secondOk b c then (none, 0)
      else if !isContinuation d then (none, 1)
      else if isContinuation e then (some (scalar (b.toNat - 0xF0) [c, d, e]), 3)
      else (none, 2)
    | [c, d] => (none, if !secondOk b c then 0 else if isContinuation d then 2 else 1)
    | [c] => (none, if secondOk b c then 1 else 0)
    | [] => (none, 0)
  else (none, 0)

/-- The decoding steps of a byte sequence, an ill-formed piece as `none`. -/
def decodeSteps (bytes : Bytes) : List (Option Char) := go 0 bytes
where
  /-- `skip` bytes still belong to the step just made. -/
  go : Nat → Bytes → List (Option Char)
  | _, [] => []
  | skip + 1, _ :: rest => go skip rest
  | 0, b :: rest => (decodeFront b rest).1 :: go (decodeFront b rest).2 rest

/-- The text of well-formed bytes. -/
def ofBytes? (bytes : Bytes) : Option Text := (decodeSteps bytes).mapM id

/-- The text of any bytes, with U+FFFD for each ill-formed piece. -/
def ofBytesLossy (bytes : Bytes) : Text :=
  (decodeSteps bytes).map fun c => c.getD (Char.ofNat 0xFFFD)

/-- Bytes as a text of the characters below 256 with their numbers. -/
def ofOctets (bytes : Bytes) : Text := bytes.map fun b => Char.ofNat b.toNat

/-- The bytes that the characters of a text number. -/
def toOctets (t : Text) : Bytes := t.map fun c => UInt8.ofNat c.toNat

end Text

end ConversationFlow
