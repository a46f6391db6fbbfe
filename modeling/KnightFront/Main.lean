import KnightFront.CommandLine

/-!
# The program

Reads the files that the arguments name and hands everything to the command
line, which decides what is printed and which code is returned.
-/

namespace KnightFront

/-- The text of a file, unless it cannot be read or is not UTF-8. -/
def readText (name : String) : IO (Option String) := do
  try
    let bytes ← IO.FS.readBinFile name
    return String.fromUTF8? bytes
  catch _ => return none

/-- Run the command and print what it leaves behind. -/
def runCommand (args : List String) : IO UInt32 := do
  let names :=
    match CommandLine.request? args with
    | none => []
    | some request => request.files
  let texts ← names.mapM fun name => do return (name, ← readText name)
  let contents := fun name => (texts.find? fun entry => entry.1 == name).bind Prod.snd
  let outcome := CommandLine.outcome contents args
  IO.print outcome.output
  return UInt32.ofNat outcome.code

end KnightFront

/-- Check the named source files. -/
def main (args : List String) : IO UInt32 :=
  KnightFront.runCommand args
