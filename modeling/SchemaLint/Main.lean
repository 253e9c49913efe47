import SchemaLint.Command.Basic

/-!
# The program

Runs the command on the files of the machine.
-/

namespace SchemaLint

def leadsAnywhere (path : String) : IO Bool := do
  try
    discard (IO.FS.realPath path)
    return true
  catch _ => return false

/-- The files of the machine. A directory is a path that can be followed
further. -/
def machineFiles : Files IO where
  isFile path := do
    return (← leadsAnywhere path) && !(← leadsAnywhere (path ++ "/."))
  isDir path := leadsAnywhere (path ++ "/.")
  read path := do
    try return some (← IO.FS.readFile path)
    catch _ => return none

end SchemaLint

def main (args : List String) : IO UInt32 := do
  let outcome ← SchemaLint.machineFiles.command args (← IO.getEnv "LOG_LVL")
  IO.print outcome.output
  outcome.errors.forM fun line => IO.eprintln line
  return outcome.code.toUInt32
