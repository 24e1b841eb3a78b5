/-
The command line of the inspector: reads the file named by the first argument and prints its account.
-/
import Hypervisor.Inspect

open Hypervisor

/-- the text of a file, if it can be read -/
def readText? (path : String) : IO (Option String) := do
  try
    let text ← IO.FS.readFile path
    pure (some text)
  catch _ => pure none

def main (args : List String) : IO UInt32 := do
  let path := args.head?.getD Inspect.defaultPath
  let text ← readText? path
  let account := Inspect.run path text
  IO.print (Inspect.lines account.out)
  IO.eprint (Inspect.lines account.err)
  if let some failure := account.failure then IO.eprintln failure.message
  pure account.exit.toUInt32
