import SchemaLint.Program.Position

/-!
# Why extraction fails

An error has a position and a message. A context puts a further message, with a
position of its own, around an error.
-/

namespace SchemaLint

inductive ExtractError
  | noEntryPoint (name : String) (pos : Pos)
  | ambiguousEntryPoint (count : Nat) (pos : Pos)
  | malformed (name : String) (pos : Pos)
  | unexpectedType (pos : Pos)
  | expectedFunction (field : String) (pos : Pos)
  | context (message : String) (pos : Pos) (source : ExtractError)
deriving DecidableEq, Repr

namespace ExtractError

def message : ExtractError → String
  | noEntryPoint name _ => "no provider entry point `" ++ name ++ "` found"
  | ambiguousEntryPoint count _ =>
    "expected a single provider definition, found " ++ toString count
  | malformed name _ => "unable to parse " ++ name
  | unexpectedType _ => "unexpected type"
  | expectedFunction field _ => "expected a function for " ++ field
  | context message _ _ => message

def pos : ExtractError → Pos
  | noEntryPoint _ pos | ambiguousEntryPoint _ pos | malformed _ pos
  | unexpectedType pos | expectedFunction _ pos | context _ pos _ => pos

def chain : ExtractError → List ExtractError
  | context message pos source => context message pos source :: source.chain
  | error => [error]

def rootCause : ExtractError → ExtractError
  | context _ _ source => source.rootCause
  | error => error

def innermostPos (error : ExtractError) : Pos :=
  ((error.chain.map pos).reverse.find? Pos.isKnown).getD .unknown

/-- All messages from the outermost in, after the innermost position if the
table has it. -/
def render (error : ExtractError) (positions : PositionTable) : String :=
  let messages := ": ".intercalate (error.chain.map message)
  match positions.resolve? error.innermostPos with
  | some location => location.text ++ ": " ++ messages
  | none => messages

end ExtractError

end SchemaLint
