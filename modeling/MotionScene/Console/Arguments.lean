import MotionScene.Text.Digit

/-!
# Command line arguments

A command line names a task, its file and its options, and may name a settings
file before or after the task.  Options take one value each, after an equals
sign or as the next argument; a value of its own may not look like an option.
After two hyphens nothing is an option.
-/

namespace MotionScene
namespace Console

/-- What to do with which files. -/
inductive Task where
  /-- Writes a small document. -/
  | new (output : String)
  /-- Describes a document. -/
  | info (file : String)
  /-- Checks a document. -/
  | check (file : String)
  /-- Shows property values at a frame, of all owners or of one. -/
  | eval (file : String) (frame : Int32) (owner : Option Nat)
  /-- Sets a property and saves the document, over its file or elsewhere. -/
  | set (file owner property value : String) (output : Option String)
deriving DecidableEq, Repr

/-- What a command line asks for. -/
inductive Request where
  | version
  | run (settings : Option String) (task : Task)
deriving DecidableEq, Repr

/-! ## Numbers -/

/-- A number of decimal digits, at least one. -/
def digits? : List Char → Option Nat
  | [] => none
  | text => text.foldlM (fun n c => (Digit.decimal? c).map (10 * n + ·)) 0

/-- A number of 64 bits, perhaps with a plus sign. -/
def number? (text : String) : Option Nat := do
  let n ← match text.toList with
    | '+' :: rest => digits? rest
    | chars => digits? chars
  if n ≤ 18446744073709551615 then some n else none

/-- A frame, perhaps with a sign. -/
def frame? (text : String) : Option Int32 := do
  let n : Int ← match text.toList with
    | '-' :: rest => (digits? rest).map fun n => -(n : Int)
    | '+' :: rest => (digits? rest).map Int.ofNat
    | chars => (digits? chars).map Int.ofNat
  if -2147483648 ≤ n ∧ n ≤ 2147483647 then some (Int32.ofInt n) else none

/-- A path, which may not be empty. -/
def path? (text : String) : Option String :=
  if text.isEmpty then none else some text

/-! ## Options -/

/-- The values of options by name, and the arguments that are no options. -/
structure Parts where
  options : List (String × String) := []
  plain : List String := []

/-- Whether an argument looks like an option; a lone hyphen does not. -/
def looksLikeOption (argument : String) : Bool :=
  match argument.toList with
  | '-' :: _ :: _ => true
  | _ => false

/-- The name of a long option, and its value if there is an equals sign. -/
def longOption? (argument : String) : Option (String × Option String) :=
  match argument.toList with
  | '-' :: '-' :: rest =>
    let name := String.ofList (rest.takeWhile (· ≠ '='))
    match rest.dropWhile (· ≠ '=') with
    | [] => some (name, none)
    | _ :: value => some (name, some (String.ofList value))
  | _ => none

/-- The parts with another option, which may be given once. -/
def Parts.addOption
    (parts : Parts)
    (known : List String)
    (name value : String) :
    Option Parts :=
  if name ∈ known ∧ (parts.options.lookup name).isNone then
    some { parts with options := (name, value) :: parts.options }
  else none

/-- Sorts the arguments of a task into options and others. -/
def Parts.read (known : List String) (parts : Parts) :
    List String → Option Parts
  | [] => some parts
  | argument :: rest =>
    if argument = "--" then some { parts with plain := parts.plain ++ rest }
    else if looksLikeOption argument then
      match longOption? argument, rest with
      | some (name, some value), rest =>
        do (← parts.addOption known name value).read known rest
      | some (name, none), value :: rest =>
        if looksLikeOption value then none
        else do (← parts.addOption known name value).read known rest
      | _, _ => none
    else { parts with plain := parts.plain ++ [argument] }.read known rest

/-- An option that has to be given. -/
def Parts.required
    {α : Type}
    (parts : Parts)
    (name : String)
    (decode : String → Option α) :
    Option α :=
  (parts.options.lookup name).bind decode

/-- An option that may be missing. -/
def Parts.optional
    {α : Type}
    (parts : Parts)
    (name : String)
    (decode : String → Option α) :
    Option (Option α) :=
  match parts.options.lookup name with
  | none => some none
  | some value => (decode value).map some

/-- The one file that every task names. -/
def Parts.file? (parts : Parts) : Option String :=
  match parts.plain with
  | [file] => path? file
  | _ => none

/-! ## Command lines -/

/-- The options of a task, if there is such a task. -/
def taskOptions? (name : String) : Option (List String) :=
  match name with
  | "new" | "info" | "check" => some []
  | "eval" => some ["frame", "owner"]
  | "set" => some ["owner", "property", "value", "out"]
  | _ => none

/-- The task of a name and its arguments. -/
def task? (name : String) (parts : Parts) : Option Task := do
  let file ← parts.file?
  match name with
  | "new" => return .new file
  | "info" => return .info file
  | "check" => return .check file
  | "eval" =>
    return .eval file (← parts.required "frame" frame?)
      (← parts.optional "owner" number?)
  | "set" =>
    return .set file (← parts.required "owner" some)
      (← parts.required "property" some)
      (← parts.required "value" some) (← parts.optional "out" path?)
  | _ => none

/-- The request of a task and its arguments; settings named after the task count
before others. -/
def taskRequest?
    (settings : Option String)
    (name : String)
    (arguments : List String) :
    Option Request := do
  let parts ← Parts.read ("config" :: (← taskOptions? name)) {} arguments
  let later ← parts.optional "config" path?
  return .run (later <|> settings) (← task? name parts)

/-- The request of a command line; `settings` is what was named so far. -/
def requestAfter? (settings : Option String) : List String → Option Request
  | [] => none
  | argument :: rest =>
    if argument = "--version" then some .version
    else if looksLikeOption argument then
      match argument.toList, longOption? argument, rest with
      | '-' :: 'V' :: _, _, _ => some .version
      | _, some ("config", some value), rest =>
        if settings.isSome then none
        else do requestAfter? (some (← path? value)) rest
      | _, some ("config", none), value :: rest =>
        if settings.isSome || looksLikeOption value then none
        else do requestAfter? (some (← path? value)) rest
      | _, _, _ => none
    else taskRequest? settings argument rest

/-- The request of a command line, if it makes sense. -/
def request? (arguments : List String) : Option Request :=
  requestAfter? none arguments

end Console
end MotionScene
