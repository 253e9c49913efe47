import SchemaLint.Program.Package

/-!
# Diagnostics

Analyses leave records of what they could not make out. A `Report` is the
outcome of an analysis together with all its records in order; a level chooses
which of them are shown.
-/

namespace SchemaLint

inductive LogLevel
  | off
  | warn
  | debug
  | trace
deriving DecidableEq, Repr

namespace LogLevel

def all : List LogLevel := [.off, .warn, .debug, .trace]

def name : LogLevel → String
  | off => "off"
  | warn => "warn"
  | debug => "debug"
  | trace => "trace"

def title : LogLevel → String
  | off => "Off"
  | warn => "Warn"
  | debug => "Debug"
  | trace => "Trace"

def rank : LogLevel → Nat
  | off => 0
  | warn => 1
  | debug => 2
  | trace => 3

def usual : LogLevel := .warn

/-- Reads a level's name or one of its other spellings, in any case. -/
def ofName? (text : String) : Option LogLevel :=
  match text.toLower with
  | "off" | "none" => some off
  | "warn" | "warning" => some warn
  | "debug" => some debug
  | "trace" => some trace
  | _ => none

def unknownMessage (text : String) : String :=
  "unknown log level `" ++ text ++ "`"

/-- Whether a record of level `record` is shown at this level. Nothing is
recorded as `off`. -/
def shows (level record : LogLevel) : Bool :=
  record != off && record.rank ≤ level.rank

end LogLevel

structure Record where
  level : LogLevel
  message : String
deriving DecidableEq, Repr

def LogLevel.select (level : LogLevel) (records : List Record) : List Record :=
  records.filter fun record => level.shows record.level

structure Report (ε α : Type) where
  outcome : Except ε α
  records : List Record

namespace Report

def pure (a : α) : Report ε α := ⟨.ok a, []⟩

def bind (x : Report ε α) (f : α → Report ε β) : Report ε β :=
  match x.outcome with
  | .error e => ⟨.error e, x.records⟩
  | .ok a =>
    let y := f a
    ⟨y.outcome, x.records ++ y.records⟩

instance : Monad (Report ε) where
  pure := Report.pure
  bind := Report.bind

def fail (e : ε) : Report ε α := ⟨.error e, []⟩

def log (level : LogLevel) (message : String) : Report ε Unit :=
  ⟨.ok (), [⟨level, message⟩]⟩

def warn (message : String) : Report ε Unit := log .warn message
def debug (message : String) : Report ε Unit := log .debug message

def mapError (f : ε → δ) (x : Report ε α) : Report δ α :=
  ⟨x.outcome.mapError f, x.records⟩

end Report

/-- Why an analysis has no result: its package is broken, or for a reason of its
own. -/
inductive Failure (ε : Type)
  | outside (fault : Outside)
  | cause (error : ε)
deriving DecidableEq, Repr

abbrev Analysis (ε α : Type) := Report (Failure ε) α

namespace Analysis

def ofAccess : Access α → Analysis ε α
  | .ok a => .pure a
  | .error fault => .fail (.outside fault)

instance : MonadLift (Except Outside) (Report (Failure ε)) := ⟨ofAccess⟩

def refuse (error : ε) : Analysis ε α := .fail (.cause error)

def within (wrap : ε → δ) (x : Analysis ε α) : Analysis δ α :=
  x.mapError fun
    | .outside fault => .outside fault
    | .cause error => .cause (wrap error)

end Analysis

end SchemaLint
