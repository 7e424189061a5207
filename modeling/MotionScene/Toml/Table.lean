import MotionScene.Toml.Basic

/-!
# Building TOML tables

Statements fill one tree of tables.  A table may be named once by a header; a
table that a dotted key passes through can be named by no header after that, and
a value can be extended by nothing.
-/

namespace MotionScene
namespace Toml

/-- How a table came to be. -/
inductive Origin where
  /-- Named as a step on the way to another table. -/
  | implied
  /-- Named as a step of a dotted key. -/
  | dotted
  /-- Named by a header. -/
  | explicit
deriving DecidableEq, Repr

/-- A tree under construction; the tables of a series are given last first. -/
inductive Node where
  | leaf (value : Toml)
  | table (origin : Origin) (entries : List (String × Node))
  | series (tables : List (List (String × Node)))

/-- The entries of a table under construction. -/
abbrev Entries := List (String × Node)

/-- Entries with one put under a name, over one of that name. -/
def put (name : String) (node : Node) : Entries → Entries
  | [] => [(name, node)]
  | entry :: rest =>
    if entry.1 = name then (name, node) :: rest else entry :: put name node rest

/-- Changes the table at the end of a path.  Missing tables are made, by a
dotted key or on the way of a header; a table implied so far belongs to the
dotted keys once one passes through it. -/
def within (dotted : Bool) (change : Origin → Entries → Option Entries) :
    List String → Origin → Entries → Option Entries
  | [], origin, entries => change origin entries
  | name :: path, _, entries =>
    match entries.lookup name with
    | none => do
      let origin := if dotted then .dotted else .implied
      return put name
        (.table origin (← within dotted change path origin [])) entries
    | some (.leaf _) => none
    | some (.table found inner) =>
      if dotted && found = .explicit then none
      else do
        let origin := if dotted then .dotted else found
        return put name
          (.table origin (← within dotted change path origin inner)) entries
    | some (.series (last :: earlier)) => do
      return put name
        (.series ((← within dotted change path .explicit last) :: earlier))
        entries
    | some (.series []) => none

/-- The path up to the last key, and the last key. -/
def splitLast (first : String) : List String → List String × String
  | [] => ([], first)
  | second :: rest =>
    let (path, last) := splitLast second rest
    (first :: path, last)

/-- Entries with a value put under a dotted key, which has to be new. -/
def assign
    (origin : Origin)
    (first : String)
    (others : List String)
    (value : Toml)
    (entries : Entries) : Option Entries :=
  let (path, last) := splitLast first others
  within true (fun found inner =>
    if decide (found = .dotted) = path.isEmpty then none
    else if (inner.lookup last).isSome then none
    else some (put last (.leaf value) inner)) path origin entries

/-- The tree with a table named by a header. -/
def openTable (path : List String) (last : String) (root : Entries) :
    Option Entries :=
  within false (fun _ inner =>
    match inner.lookup last with
    | none => some (put last (.table .explicit []) inner)
    | some (.table .implied entries) =>
      some (put last (.table .explicit entries) inner)
    | some _ => none) path .explicit root

/-- The tree with another table of a series named by a header. -/
def openSeries (path : List String) (last : String) (root : Entries) :
    Option Entries :=
  within false (fun _ inner =>
    match inner.lookup last with
    | none => some (put last (.series [[]]) inner)
    | some (.series tables) => some (put last (.series ([] :: tables)) inner)
    | some _ => none) path .explicit root

mutual

/-- The value of a finished node. -/
def Node.finish : Node → Toml
  | .leaf value => value
  | .table _ entries => .table (finishEntries entries)
  | .series tables => .array (finishSeries tables).reverse

/-- The values of finished entries. -/
def finishEntries : List (String × Node) → List (String × Toml)
  | [] => []
  | (name, node) :: rest => (name, node.finish) :: finishEntries rest

/-- The values of finished tables. -/
def finishSeries : List (List (String × Node)) → List Toml
  | [] => []
  | entries :: rest => .table (finishEntries entries) :: finishSeries rest

end

end Toml
end MotionScene
