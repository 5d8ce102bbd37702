import CaseSuite.CommandLine.Basic

/-!
# The program

Reads the file that the arguments name and writes the listing; everything else is decided by pure
functions.
-/

namespace CaseSuite.CommandLine

/-- The number of an error of the system, which may be given with its sign changed. -/
def errorNumber (code : UInt32) : Nat := min code.toNat (Nat.pow 2 32 - code.toNat)

/-- The fault behind an error of the system. -/
def faultOf : IO.Error → FileFault
  | .noFileOrDirectory .. => .missing
  | .inappropriateType _ code _ => if errorNumber code = 20 then .notFolder else .isFolder
  | .invalidArgument _ code details =>
      if errorNumber code = 36 then .nameTooLong else .other details
  | e => .other (toString e)

/-- Read a file as text. -/
def readText (file : String) : IO (Except FileFault String) := do
  try
    return decode (← IO.FS.readBinFile file)
  catch e => return .error (faultOf e)

/-- Write the listing. -/
def writeListing (listing : String) : IO (Except FileFault Unit) := do
  try
    IO.FS.writeFile outputFile listing
    return .ok ()
  catch e => return .error (faultOf e)

/-- Print what the program leaves behind. -/
def stop (exit : Exit) : IO UInt32 := do
  IO.print exit.stdout
  IO.eprint exit.stderr
  return UInt32.ofNat exit.code

/-- Compile the file that the arguments name. -/
def runProgram (arguments : List String) : IO UInt32 := do
  match parse arguments with
  | .error exit => stop exit
  | .ok file =>
      match compileFile file (← readText file) with
      | .error exit => stop exit
      | .ok listing => stop (finish (← writeListing listing))

end CaseSuite.CommandLine

/-- The entry point. -/
def main (arguments : List String) : IO UInt32 :=
  CaseSuite.CommandLine.runProgram arguments
