import ConversationFlow.Shell.Fields

/-!
# Patterns

A pattern is a text in which `*` stands for any characters, `?` for any one, and brackets
for one of a set; a backslash takes the meaning from the character behind it. A bracket
that is not closed stands for itself.
-/

namespace ConversationFlow.Shell.Pattern

/-- The characters of a class, named as in brackets. -/
private def classes : List (String × (Char → Bool)) :=
  let isPrint (c : Char) : Bool := ' ' ≤ c && c ≤ '~'
  [(":alnum:]", Text.isAlphanumeric),
    (":cntrl:]", fun c => c < ' ' || c.toNat = 127),
    (":lower:]", Text.isLowerLetter),
    (":space:]", fun c => c = ' ' || ('\t' ≤ c && c ≤ '\r')),
    (":alpha:]", fun c => Text.isLowerLetter c || Text.isUpperLetter c),
    (":digit:]", Text.isDigit),
    (":print:]", isPrint),
    (":upper:]", Text.isUpperLetter),
    (":blank:]", fun c => c = ' ' || c = '\t'),
    (":graph:]", fun c => isPrint c && c ≠ ' '),
    (":punct:]", fun c => isPrint c && c ≠ ' ' && !Text.isAlphanumeric c),
    (":xdigit:]", fun c => Text.isDigit c || ('a' ≤ c && c ≤ 'f') || ('A' ≤ c && c ≤ 'F'))]

/-- The place of a byte in the order of characters: those beyond 127 come first. -/
private def order (c : Char) : Int := if c.toNat < 128 then c.toNat else c.toNat - 256

/-- Whether a character is in the set that the text writes, up to its closing bracket, and the
text behind it. The first character of a set belongs to it whatever it is. -/
private def set? (chr : Char) : Nat → Bool → Bool → Text → Option (Bool × Text)
  | 0, _, _, _ | _, _, _, [] => none
  | fuel + 1, first, found, c :: p =>
    if c = ']' && !first then some (found, p)
    else
      let named := if c = '[' then
          classes.findSome? fun k => (Text.after? k.1.toList p).map fun rest => (k.2 chr, rest)
        else none
      match named with
      | some (isIn, rest) => set? chr fuel false (found || isIn) rest
      | none =>
        let (c, p) := match c, p with
          | '\\', d :: p => (d, p)
          | c, p => (c, p)
        match p with
        | '-' :: e :: q =>
          if e = ']' then set? chr fuel false (found || chr = c) p
          else
            match if e = '\\' then q else e :: q with
            | [] => none
            | e :: q => set? chr fuel false (found || (order c ≤ order chr && order chr ≤ order e)) q
        | p => set? chr fuel false (found || chr = c) p

/-- The ends of a text, from the whole to the empty one. -/
private def ends : Text → List Text
  | [] => [[]]
  | c :: t => (c :: t) :: ends t

private def matchesFrom : Nat → Text → Text → Bool
  | 0, _, _ => false
  | fuel + 1, p, t =>
    match p with
    | [] => t.isEmpty
    | '\\' :: c :: p =>
      match t with
      | d :: t => c = d && matchesFrom fuel p t
      | [] => false
    | '?' :: p =>
      match t with
      | _ :: t => matchesFrom fuel p t
      | [] => false
    | '*' :: p => (ends t).any (matchesFrom fuel p)
    | '[' :: p =>
      match t with
      | [] => false
      | d :: t =>
        let (inverted, q) := match p with
          | '!' :: q => (true, q)
          | q => (false, q)
        match set? d (q.length + 1) true false q with
        | some (found, rest) => found != inverted && matchesFrom fuel rest t
        | none => d = '[' && matchesFrom fuel p t
    | c :: p =>
      match t with
      | d :: t => c = d && matchesFrom fuel p t
      | [] => false

/-- Whether a whole text has the form of a pattern. -/
def accepts (pattern t : Text) : Bool := matchesFrom (pattern.length + 1) pattern t

/-- The text before the first border between arguments. A pattern sees no further. -/
private def front (t : Text) : Text := t.takeWhile (· ≠ Cell.border)

/-- The text without the shortest or longest beginning that has the form of the pattern. The longest
one is sought from behind, where the front stands for all that is longer. -/
def trimStart (longest : Bool) (pattern t : Text) : Text :=
  let start := front t
  let places := List.range ((if longest then t else start).length + 1)
  let fits (n : Nat) : Bool := accepts pattern (start.take n)
  t.drop (((if longest then places.reverse else places).find? fits).getD 0)

/-- The text without the shortest or longest end that has the form of the pattern. What is behind
the border of an end goes with it. -/
def trimEnd (longest : Bool) (pattern t : Text) : Text :=
  let places := List.range ((if longest then front t else t).length + 1)
  let fits (n : Nat) : Bool := accepts pattern (front (t.drop n))
  t.take (((if longest then places else places.reverse).find? fits).getD t.length)

end ConversationFlow.Shell.Pattern
