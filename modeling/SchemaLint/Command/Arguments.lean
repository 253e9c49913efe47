import SchemaLint.Diagnostics

/-!
# Command-line arguments

Options are written with two dashes and a name, or with one dash and a letter,
and may come before or after other arguments. A value follows in the same
argument or is the next one. After two dashes alone everything is positional.
-/

namespace SchemaLint

/-- How often an option may be given, and whether it has a value. -/
inductive OptionKind
  | flag
  | single
  | many
deriving DecidableEq, Repr

structure OptionSpec where
  name : String
  letter : Option Char := none
  kind : OptionKind
deriving DecidableEq, Repr

inductive Argument
  | option (name : String) (value : String)
  | positional (text : String)
deriving DecidableEq, Repr

inductive ArgumentForm
  | positional
  | complete (name : String) (value : String)
  /-- An option whose value is the next argument. -/
  | needsValue (name : String)
  | unknown

/-- An option with the value that is written together with it, if there is
one. -/
def OptionSpec.form (spec : OptionSpec) (attached : Option String) :
    ArgumentForm :=
  match spec.kind, attached with
  | .flag, none => .complete spec.name ""
  | .flag, some _ => .unknown
  | _, some value => .complete spec.name value
  | _, none => .needsValue spec.name

def dropEquals : List Char → List Char
  | '=' :: rest => rest
  | chars => chars

def longForm (specs : List OptionSpec) (chars : List Char) : ArgumentForm :=
  let name := chars.takeWhile (· != '=')
  let attached :=
    if name.length < chars.length then
        some (String.ofList (chars.drop (name.length + 1)))
      else none
  match specs.find? (·.name == String.ofList name) with
  | some spec => spec.form attached
  | none => .unknown

def shortForm (specs : List OptionSpec) (letter : Char) (rest : List Char) :
    ArgumentForm :=
  match specs.find? (·.letter == some letter) with
  | some spec =>
    spec.form
      (if rest.isEmpty then none else some (String.ofList (dropEquals rest)))
  | none => .unknown

def argumentForm (specs : List OptionSpec) (text : String) : ArgumentForm :=
  match text.toList with
  | '-' :: '-' :: chars => longForm specs chars
  | '-' :: letter :: rest => shortForm specs letter rest
  | _ => .positional

def isValue (text : String) : Bool := text == "-" || !text.startsWith "-"

/-- Reads arguments, all of them or only those before the first positional one;
also what is left. -/
def readArguments (specs : List OptionSpec) (stop : Bool) :
    List String → Option (List Argument × List String)
  | [] => some ([], [])
  | text :: rest =>
    if text == "--" then if stop then none else some (rest.map .positional, [])
    else
      match argumentForm specs text with
      | .positional =>
        if stop then some ([], text :: rest)
        else
          (readArguments specs stop rest).map fun (others, left) =>
            (.positional text :: others, left)
      | .complete name value =>
        (readArguments specs stop rest).map fun (others, left) =>
          (.option name value :: others, left)
      | .needsValue name =>
        match rest with
        | [] => none
        | value :: rest =>
          if isValue value then
            (readArguments specs stop rest).map fun (others, left) =>
              (.option name value :: others, left)
          else none
      | .unknown => none

def valuesOf (arguments : List Argument) (name : String) : List String :=
  arguments.filterMap fun
    | .option other value => if other == name then some value else none
    | .positional _ => none

def positionals (arguments : List Argument) : List String :=
  arguments.filterMap fun
    | .option .. => none
    | .positional text => some text

def areCounted (specs : List OptionSpec) (arguments : List Argument) : Bool :=
  specs.all fun spec =>
    spec.kind == .many || (valuesOf arguments spec.name).length ≤ 1

end SchemaLint
