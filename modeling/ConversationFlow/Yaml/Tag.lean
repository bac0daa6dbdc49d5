import ConversationFlow.Yaml.Scalar
import ConversationFlow.Yaml.Token

/-!
# YAML tags, anchors and directives

What the marks `!`, `&`, `*` and `%` begin.
-/

namespace ConversationFlow.Yaml

/-! ## Addresses -/

/-- The characters of an address besides those of a name; `isLong` adds those that would mean
something else outside of angle brackets. -/
private def isAddressChar (isLong : Bool) (c : Char) : Bool :=
  isNameChar c ||
    [';', '/', '?', ':', '@', '&', '=', '+', '$', '.', '!', '~', '*', '\'', '(', ')'].contains c ||
    (isLong && [',', '[', ']'].contains c)

/-- How many bytes a character has whose first byte this is, and that byte's part of it. -/
private def firstByte? (b : Nat) : Option (Nat × Nat) :=
  if b < 0x80 then some (1, b)
  else if b < 0xC0 then none
  else if b < 0xE0 then some (2, b - 0xC0)
  else if b < 0xF0 then some (3, b - 0xE0)
  else if b < 0xF8 then some (4, b - 0xF0)
  else none

/-- A byte after the first one of a character, written behind `%`. -/
private def nextByte? (n : Nat) (t : Text) : Option (Nat × Text) := do
  guard (t.head? = some '%')
  let b ← hexNumber? 2 (t.drop 1)
  if 0x80 ≤ b && b < 0xC0 then some (n * 64 + (b - 0x80), t.drop 3) else none

/-- The character whose bytes are written behind `%`, and how many characters that takes. -/
private def encoded? (t : Text) : Option (Char × Nat) := do
  guard (t.head? = some '%')
  let (size, high) ← firstByte? (← hexNumber? 2 (t.drop 1))
  let (n, _) ← (List.range (size - 1)).foldlM (fun (n, t) _ => nextByte? n t) (high, t.drop 3)
  return (Char.ofNat n, 3 * size)

private def addressRun (isLong : Bool) (fuel : Nat) (c : Cursor) : Option (Text × Cursor) :=
  match fuel, c.rest with
  | fuel + 1, x :: t =>
    if x = '%' then do
      let (e, n) ← encoded? (x :: t)
      (addressRun isLong fuel (c.skip n)).map fun (w, r) => (e :: w, r)
    else if isAddressChar isLong x then
      (addressRun isLong fuel (c.skip 1)).map fun (w, r) => (x :: w, r)
    else some ([], c)
  | _, _ => some ([], c)

/-- The address from here on, which may be empty. -/
private def addressAt? (isLong : Bool) (c : Cursor) : Option (Text × Cursor) :=
  addressRun isLong (c.rest.length + 1) c

/-- The address from here on, which is not empty. -/
private def address? (isLong : Bool) (c : Cursor) : Option (Text × Cursor) :=
  (addressAt? isLong c).filter fun (w, _) => !w.isEmpty

/-! ## Tags -/

/-- A mark `!`, a name and, if it stands there, another mark. -/
private def handle? (c : Cursor) : Option (Text × Cursor) :=
  if c.isAt '!' then
    let name := (c.skip 1).run isNameChar
    let next := c.skip (1 + name.length)
    some (if next.isAt '!' then ('!' :: name ++ ['!'], next.skip 1) else ('!' :: name, next))
  else none

/-- A tag is an address in angle brackets, a handle with an address behind it, or the mark `!`
with an address behind it, which may be empty. -/
private def tagAt? (c : Cursor) : Option (Token × Cursor) := do
  if (c.skip 1).isAt '<' then
    let (w, c) ← address? true (c.skip 2)
    if c.isAt '>' then some (.tag [] w, c.skip 1) else none
  else
    let (handle, next) ← handle? c
    if 1 < handle.length && handle.getLast? = some '!' then
      let (w, next) ← address? false next
      return (.tag handle w, next)
    else
      let (w, next) ← addressAt? false next
      let w := handle.drop 1 ++ w
      return (if w.isEmpty then .tag [] ['!'] else .tag ['!'] w, next)

/-- A tag, behind which a blank or, in the flow form, a comma stands. -/
def tagToken? (inFlow : Bool) (c : Cursor) : Option (Token × Cursor) :=
  (tagAt? c).filter fun (_, c) => endsHere c.rest || (inFlow && c.isAt ',')

/-! ## Anchors -/

/-- The name behind `&` or `*`. -/
def anchorName? (c : Cursor) : Option (Text × Cursor) :=
  let name := (c.skip 1).run isNameChar
  let next := c.skip (1 + name.length)
  let ends := endsHere next.rest
    || ['?', ':', ',', ']', '}', '%', '@', '`'].any fun x => next.isAt x
  if name.isEmpty || !ends then none else some (name, next)

/-! ## Directives -/

/-- Up to nine digits. -/
private def shortNumber? (c : Cursor) : Option (Nat × Cursor) :=
  let digits := c.run Text.isDigit
  if digits.length ≤ 9 then (Text.toNat? digits).map (·, c.skip digits.length) else none

private def version? (c : Cursor) : Option (Token × Cursor) := do
  let (major, c) ← shortNumber? c
  guard (c.isAt '.')
  let (minor, c) ← shortNumber? (c.skip 1)
  return (.version major minor, c)

private def tagHandle? (c : Cursor) : Option (Token × Cursor) := do
  let (handle, c) ← handle? c
  guard (handle = ['!'] || (1 < handle.length && handle.getLast? = some '!'))
  guard (c.rest.head?.any isGap)
  let (stem, c) ← address? true (c.skipRun isGap)
  guard (endsHere c.rest)
  return (.tagHandle handle stem, c)

/-- The directive behind `%`, which takes a line. -/
def directive? (c : Cursor) : Option (Token × Cursor) := do
  let name := (c.skip 1).run isNameChar
  let next := c.skip (1 + name.length)
  guard (endsHere next.rest)
  let (token, next) ←
    if name = "YAML".toList then version? (next.skipRun isGap)
    else if name = "TAG".toList then tagHandle? (next.skipRun isGap)
    else none
  return (token, ← next.restOfLine?)

end ConversationFlow.Yaml
