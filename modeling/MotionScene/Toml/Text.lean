import MotionScene.Text.Digit

/-!
# Blanks, strings and keys of TOML

Strings come in four sorts: with escapes or without, on one line or on several.
A key is a bare word or a string; a path is several keys with points between
them.
-/

namespace MotionScene
namespace Toml

/-- A blank within a line. -/
def isBlank (c : Char) : Bool :=
  c == ' ' || c == '\t'

/-- The text after leading blanks of the line. -/
def skipBlanks : List Char → List Char
  | [] => []
  | c :: rest => if isBlank c then skipBlanks rest else c :: rest

/-- Characters that may stand nowhere but as line ends. -/
def isControl (c : Char) : Bool :=
  (c.toNat < 32 && c ≠ '\t') || c.toNat = 127

/-- The text after blanks, line ends and comments. -/
def skipTrivia (inComment : Bool) : List Char → Option (List Char)
  | [] => some []
  | '\n' :: rest => skipTrivia false rest
  | '\r' :: '\n' :: rest => skipTrivia false rest
  | c :: rest =>
    if inComment then if isControl c then none else skipTrivia true rest
    else if c = '#' then skipTrivia true rest
    else if isBlank c then skipTrivia false rest
    else some (c :: rest)

/-- The text after the end of a line, which may hold a comment. -/
def lineEnd? (text : List Char) : Option (List Char) :=
  match skipBlanks text with
  | [] => some []
  | '#' :: rest => skipTrivia true rest
  | '\n' :: rest => skipTrivia false rest
  | '\r' :: '\n' :: rest => skipTrivia false rest
  | _ => none

/-! ## Strings -/

/-- The character of an escape of one letter. -/
def shortEscape? (c : Char) : Option Char :=
  match c with
  | 'b' => some '\x08'
  | 't' => some '\t'
  | 'n' => some '\n'
  | 'f' => some '\x0c'
  | 'r' => some '\r'
  | 'e' => some '\x1b'
  | '"' => some '"'
  | '\\' => some '\\'
  | _ => none

/-- The character of a number in hexadecimal digits. -/
def character? (digits : List Char) : Option Char := do
  let n ← Digit.hexNumber? digits
  if n < 0xd800 ∨ (0xdfff < n ∧ n < 0x110000) then some (Char.ofNat n) else none

/-- The string whose characters were collected last first. -/
def collected (before : List Char) : String :=
  String.ofList before.reverse

/-- The rest of a string with escapes on one line. -/
def basicTail? (before : List Char) : List Char → Option (String × List Char)
  | [] => none
  | '"' :: rest => some (collected before, rest)
  | '\\' :: 'x' :: a :: b :: rest =>
    do basicTail? ((← character? [a, b]) :: before) rest
  | '\\' :: 'u' :: a :: b :: c :: d :: rest => do
    basicTail? ((← character? [a, b, c, d]) :: before) rest
  | '\\' :: 'U' :: a :: b :: c :: d :: e :: f :: g :: h :: rest => do
    basicTail? ((← character? [a, b, c, d, e, f, g, h]) :: before) rest
  | '\\' :: c :: rest => do basicTail? ((← shortEscape? c) :: before) rest
  | c :: rest => if isControl c then none else basicTail? (c :: before) rest

/-- The rest of a string without escapes on one line. -/
def literalTail? (before : List Char) : List Char → Option (String × List Char)
  | [] => none
  | c :: rest =>
    if c = '\'' then some (collected before, rest)
    else if isControl c then none
    else literalTail? (c :: before) rest

/-- Whether only blanks are left on the line. -/
def endsLine (text : List Char) : Bool :=
  match skipBlanks text with
  | '\n' :: _ => true
  | '\r' :: '\n' :: _ => true
  | _ => false

/-- The rest of a string with escapes on several lines.  After a backslash at
the end of a line, blanks and line ends are skipped. -/
def basicBlockTail? (before : List Char) (skipping : Bool) :
    List Char → Option (String × List Char)
  | [] => none
  | '"' :: '"' :: '"' :: '"' :: '"' :: rest =>
    some (collected ('"' :: '"' :: before), rest)
  | '"' :: '"' :: '"' :: '"' :: rest => some (collected ('"' :: before), rest)
  | '"' :: '"' :: '"' :: rest => some (collected before, rest)
  | '\r' :: '\n' :: rest =>
    if skipping then basicBlockTail? before true rest
    else basicBlockTail? ('\n' :: before) false rest
  | '\n' :: rest =>
    if skipping then basicBlockTail? before true rest
    else basicBlockTail? ('\n' :: before) false rest
  | '\\' :: 'x' :: a :: b :: rest => do
    basicBlockTail? ((← character? [a, b]) :: before) false rest
  | '\\' :: 'u' :: a :: b :: c :: d :: rest => do
    basicBlockTail? ((← character? [a, b, c, d]) :: before) false rest
  | '\\' :: 'U' :: a :: b :: c :: d :: e :: f :: g :: h :: rest => do
    basicBlockTail? ((← character? [a, b, c, d, e, f, g, h]) :: before)
      false rest
  | '\\' :: c :: rest =>
    if endsLine (c :: rest) then basicBlockTail? before true (c :: rest)
    else do basicBlockTail? ((← shortEscape? c) :: before) false rest
  | c :: rest =>
    if skipping && isBlank c then basicBlockTail? before true rest
    else if isControl c then none
    else basicBlockTail? (c :: before) false rest

/-- The rest of a string without escapes on several lines. -/
def literalBlockTail? (before : List Char) :
    List Char → Option (String × List Char)
  | [] => none
  | '\'' :: '\'' :: '\'' :: '\'' :: '\'' :: rest =>
    some (collected ('\'' :: '\'' :: before), rest)
  | '\'' :: '\'' :: '\'' :: '\'' :: rest =>
    some (collected ('\'' :: before), rest)
  | '\'' :: '\'' :: '\'' :: rest => some (collected before, rest)
  | '\r' :: '\n' :: rest => literalBlockTail? ('\n' :: before) rest
  | c :: rest =>
    if isControl c && c ≠ '\n' then none
    else literalBlockTail? (c :: before) rest

/-- The text after a line end that directly follows the opening of a string. -/
def afterOpening : List Char → List Char
  | '\n' :: rest => rest
  | '\r' :: '\n' :: rest => rest
  | text => text

/-- A string of any sort. -/
def string? : List Char → Option (String × List Char)
  | '"' :: '"' :: '"' :: rest => basicBlockTail? [] false (afterOpening rest)
  | '"' :: rest => basicTail? [] rest
  | '\'' :: '\'' :: '\'' :: rest => literalBlockTail? [] (afterOpening rest)
  | '\'' :: rest => literalTail? [] rest
  | _ => none

/-! ## Keys -/

/-- What a key may consist of without quotes. -/
def isBare (c : Char) : Bool :=
  c.isAlphanum || c == '_' || c == '-'

/-- A key: a bare word, or a string on one line. -/
def key? : List Char → Option (String × List Char)
  | '"' :: rest => basicTail? [] rest
  | '\'' :: rest => literalTail? [] rest
  | text =>
    match text.takeWhile isBare with
    | [] => none
    | word => some (String.ofList word, text.dropWhile isBare)

/-- At most so many keys with points between them; the first key is separate,
since there has to be one. -/
def keys? : Nat → List Char → Option (String × List String × List Char)
  | 0, _ => none
  | limit + 1, text => do
    let (first, rest) ← key? text
    match skipBlanks rest with
    | '.' :: rest =>
      let (second, others, rest) ← keys? limit (skipBlanks rest)
      return (first, second :: others, rest)
    | rest => return (first, [], rest)

/-- A path of at most 80 keys. -/
def path? (text : List Char) : Option (String × List String × List Char) :=
  keys? 80 text

end Toml
end MotionScene
