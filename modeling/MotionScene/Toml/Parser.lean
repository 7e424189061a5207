import MotionScene.Toml.Scalar
import MotionScene.Toml.Table

/-!
# Reading TOML text

A document is a list of statements, each on a line of its own: headers of
tables, headers of series of tables, and assignments to keys.  Arrays and inline
tables nest at most 80 deep; inside them lines may end between any two parts.
-/

namespace MotionScene
namespace Toml
namespace Parser

mutual

/-- A value and the text after it; the second number is how deep containers may
still nest. -/
def value? : Nat → Nat → List Char → Option (Toml × List Char)
  | 0, _, _ => none
  | _ + 1, 0, '[' :: _ => none
  | _ + 1, 0, '\x7b' :: _ => none
  | fuel + 1, depth + 1, '[' :: rest => do
    let (items, rest) ← items? fuel depth [] rest
    return (.array items, rest)
  | fuel + 1, depth + 1, '\x7b' :: rest => do
    let (entries, rest) ← entries? fuel depth [] rest
    return (.table (finishEntries entries), rest)
  | _ + 1, _, '"' :: rest =>
    (string? ('"' :: rest)).map fun (text, rest) => (.string text, rest)
  | _ + 1, _, '\'' :: rest =>
    (string? ('\'' :: rest)).map fun (text, rest) => (.string text, rest)
  | _ + 1, _, text =>
    let (scalar, rest) := scalarText text
    (scalar? scalar).map fun value => (value, rest)

/-- The items of an array that are left; those before are given last first. -/
def items? : Nat → Nat → List Toml → List Char → Option (List Toml × List Char)
  | 0, _, _, _ => none
  | fuel + 1, depth, before, text => do
    match ← skipTrivia false text with
    | ']' :: rest => return (before.reverse, rest)
    | text =>
      let (item, rest) ← value? fuel depth text
      match ← skipTrivia false rest with
      | ',' :: rest => items? fuel depth (item :: before) rest
      | ']' :: rest => return ((item :: before).reverse, rest)
      | _ => none

/-- The entries of an inline table that are left. -/
def entries? : Nat → Nat → Entries → List Char → Option (Entries × List Char)
  | 0, _, _, _ => none
  | fuel + 1, depth, before, text => do
    match ← skipTrivia false text with
    | '\x7d' :: rest => return (before, rest)
    | text =>
      let (first, others, rest) ← path? text
      match ← skipTrivia false rest with
      | '=' :: rest =>
        let (value, rest) ← value? fuel depth (← skipTrivia false rest)
        let entries ← assign .explicit first others value before
        match ← skipTrivia false rest with
        | ',' :: rest => entries? fuel depth entries rest
        | '\x7d' :: rest => return (entries, rest)
        | _ => none
      | _ => none

end

/-- The tree so far and the table that assignments go to. -/
structure State where
  root : Entries
  current : List String

/-- The path of a header up to its closing bracket. -/
def header? (text : List Char) : Option (List String × String × List Char) := do
  let (first, others, rest) ← path? (skipBlanks text)
  let (path, last) := splitLast first others
  match rest with
  | ']' :: rest => return (path, last, rest)
  | _ => none

/-- One statement, which carries the state on to the text after it. -/
def statement? (fuel : Nat) (state : State) :
    List Char → Option (State × List Char)
  | '[' :: '[' :: text => do
    let (path, last, rest) ← header? text
    match rest with
    | ']' :: rest =>
      return (⟨← openSeries path last state.root,
        path ++ [last]⟩, ← lineEnd? rest)
    | _ => none
  | '[' :: text => do
    let (path, last, rest) ← header? text
    return (⟨← openTable path last state.root, path ++ [last]⟩, ← lineEnd? rest)
  | text => do
    let (first, others, rest) ← path? text
    match rest with
    | '=' :: rest =>
      let (value, rest) ← value? fuel 80 (skipBlanks rest)
      let root ← within false
          (fun origin entries => assign origin first others value entries)
        state.current .explicit state.root
      return ({ state with root }, ← lineEnd? rest)
    | _ => none

/-- All statements up to the end of the text. -/
def statements? (fuel : Nat) : Nat → State → List Char → Option State
  | 0, _, _ => none
  | _ + 1, state, [] => some state
  | count + 1, state, text => do
    let (state, rest) ← statement? fuel state text
    statements? fuel count state rest

end Parser

/-- The text without a byte order mark. -/
def withoutMark : List Char → List Char
  | c :: rest => if c = '\ufeff' then rest else c :: rest
  | [] => []

/-- The entries of the root table of a document.  A statement takes at least one
character, so their number is bounded by the length of the text. -/
def parse? (text : String) : Option (List (String × Toml)) := do
  let chars := withoutMark text.toList
  let fuel := chars.length + 1
  let state ← Parser.statements? fuel fuel ⟨[], []⟩ (← skipTrivia false chars)
  return finishEntries state.root

end Toml
end MotionScene
