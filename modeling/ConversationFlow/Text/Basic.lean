/-!
# Text

A text is a list of characters. This file gives the operations that all readers
and printers share: blanks, trimming, lines, search, replacement and joining.
"Blank" is the Unicode property White_Space. Positions never appear: an
operation answers with pieces of the text it was given.
-/

namespace ConversationFlow

/-- A text is the list of its characters. -/
abbrev Text := List Char

instance : Coe String Text := ⟨String.toList⟩

namespace Text

/-- The Unicode property White_Space. -/
def isBlank (c : Char) : Bool :=
  let n := c.toNat
  (9 ≤ n && n ≤ 13) || n == 0x20 || n == 0x85 || n == 0xA0 || n == 0x1680 ||
    (0x2000 ≤ n && n ≤ 0x200A) || n == 0x2028 || n == 0x2029 || n == 0x202F ||
    n == 0x205F || n == 0x3000

/-- A text of blanks only. -/
def allBlank (t : Text) : Bool := t.all isBlank

def trimStart (t : Text) : Text := t.dropWhile isBlank

def trimEnd (t : Text) : Text := (t.reverse.dropWhile isBlank).reverse

def trim (t : Text) : Text := trimEnd (trimStart t)

/-- The blanks a text begins with. -/
def indent (t : Text) : Text := t.takeWhile isBlank

/-- The longest text that both texts begin with. -/
def sharedStart : Text → Text → Text
  | a :: s, b :: t => if a = b then a :: sharedStart s t else []
  | _, _ => []

/-- What follows `p` in a text that begins with it. -/
def after? : (p : Text) → Text → Option Text
  | [], t => some t
  | _ :: _, [] => none
  | a :: p, c :: t => if a = c then after? p t else none

/-- What precedes `s` in a text that ends with it. -/
def before? (s t : Text) : Option Text := (after? s.reverse t.reverse).map List.reverse

def startsWith (p t : Text) : Bool := (after? p t).isSome

def endsWith (s t : Text) : Bool := (before? s t).isSome

/-- Whether `p` stands somewhere in the text. -/
def includes (p : Text) : Text → Bool
  | [] => p.isEmpty
  | c :: t => startsWith p (c :: t) || includes p t

/-- The text before and the text after the first occurrence of `p`. -/
def cut? (p : Text) : Text → Option (Text × Text)
  | [] => if p.isEmpty then some ([], []) else none
  | c :: t =>
    match after? p (c :: t) with
    | some rest => some ([], rest)
    | none => (cut? p t).map fun (l, r) => (c :: l, r)

/-- The text before and the text after the first occurrence of a character. -/
def cutAt? (c : Char) (t : Text) : Option (Text × Text) := cut? [c] t

/-- The text before and the text after the last occurrence of a character. -/
def cutAtLast? (c : Char) (t : Text) : Option (Text × Text) :=
  (cutAt? c t.reverse).map fun (l, r) => (r.reverse, l.reverse)

/-- Every occurrence of the non-empty text `p`, from the left, written as `q`. -/
def replace (p q : Text) (t : Text) : Text := go 0 t
where
  /-- `skip` characters still belong to the occurrence just replaced. -/
  go : Nat → Text → Text
  | _, [] => []
  | skip + 1, _ :: t => go skip t
  | 0, c :: t => if startsWith p (c :: t) then q ++ go (p.length - 1) t else c :: go 0 t

/-- The lines of a text. A line ends with a line feed, which a carriage return may
precede; the text after the last line feed is a line if it is not empty. -/
def lines (t : Text) : List Text := go [] t
where
  /-- `seen` holds the current line in reverse. -/
  go (seen : Text) : Text → List Text
  | [] => if seen.isEmpty then [] else [seen.reverse]
  | '\n' :: t => (closed seen).reverse :: go [] t
  | c :: t => go (c :: seen) t
  /-- A closed line in reverse, without its carriage return. -/
  closed : Text → Text
  | '\r' :: seen => seen
  | seen => seen

/-- The parts with `sep` between each two of them. -/
def join (sep : Text) (parts : List Text) : Text := sep.intercalate parts

theorem join_singleton (sep t : Text) : join sep [t] = t := List.intercalate_singleton

theorem join_cons_cons {sep : Char} (s t : Text) (parts : List Text) :
    join [sep] (s :: t :: parts) = s ++ sep :: join [sep] (t :: parts) := by
  rw [join, List.intercalate_cons_cons, List.append_assoc]
  rfl

theorem join_append {sep : Char} {before after : List Text} (hb : before ≠ []) (ha : after ≠ []) :
    join [sep] (before ++ after) = join [sep] before ++ sep :: join [sep] after := by
  induction before with
  | nil => exact absurd rfl hb
  | cons s before ih =>
    cases before with
    | nil =>
      obtain ⟨t, more, rfl⟩ := List.exists_cons_of_ne_nil ha
      rw [List.singleton_append, join_cons_cons, join_singleton]
    | cons t before =>
      rw [List.cons_append, List.cons_append, join_cons_cons, ← List.cons_append,
        ih (List.cons_ne_nil t before), join_cons_cons, List.append_assoc, List.cons_append]

/-- The parts on lines of their own. -/
def unlines (parts : List Text) : Text := join ['\n'] parts

/-- The maximal runs of characters that are not blank. -/
def words (t : Text) : List Text := (t.splitOnP isBlank).filter fun w => !w.isEmpty

/-- The number of bytes of the text in UTF-8. -/
def byteLength (t : Text) : Nat := (t.map Char.utf8Size).foldr (· + ·) 0

/-- Whether `c` is one of `0` to `9`. -/
def isDigit (c : Char) : Bool := '0' ≤ c && c ≤ '9'

def isLowerLetter (c : Char) : Bool := 'a' ≤ c && c ≤ 'z'

def isUpperLetter (c : Char) : Bool := 'A' ≤ c && c ≤ 'Z'

/-- An ASCII letter or digit. -/
def isAlphanumeric (c : Char) : Bool := isDigit c || isLowerLetter c || isUpperLetter c

/-- A natural number in decimal digits. -/
def ofNat (n : Nat) : Text := Nat.toDigits 10 n

/-- An integer in decimal digits, with a minus sign before a negative one. -/
def ofInt : Int → Text
  | .ofNat n => ofNat n
  | .negSucc n => '-' :: ofNat (n + 1)

/-- The number that a non-empty run of ASCII digits writes. -/
def toNat? (t : Text) : Option Nat :=
  if t.isEmpty || !t.all isDigit then none
  else some (t.foldl (fun n c => 10 * n + (c.toNat - '0'.toNat)) 0)

/-- The text filled with blanks on its left to `width` characters. -/
def padLeft (width : Nat) (t : Text) : Text := List.replicate (width - t.length) ' ' ++ t

/-- Each ASCII letter in lower case. -/
def lowerAscii (t : Text) : Text := t.map fun c => if isUpperLetter c then c.toLower else c

/-- The order of texts by code point. -/
def before (a b : Text) : Bool := decide (a < b)

end Text

end ConversationFlow
