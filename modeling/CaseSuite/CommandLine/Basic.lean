import CaseSuite.Report.Basic
import CaseSuite.Text.Plain
import CaseSuite.Text.Similarity

/-!
# The command line

The program takes one file, compiles it and writes the listing next to it. What it does is split at
the points where it touches files, so that each part is a function of what it was given.
-/

namespace CaseSuite.CommandLine

/-- Where the listing goes. -/
def outputFile : String := "real_test.rs"

/-- The name of the program. -/
def programName : String := "case-compiler"

/-- What the program leaves behind when it stops. -/
structure Exit where
  code : Nat
  stdout : String := ""
  stderr : String := ""
  deriving DecidableEq, Repr

/-- Why a file cannot be read or written. -/
inductive FileFault where
  | missing
  | isFolder
  | notFolder
  | nameTooLong
  | notText
  | other (reason : String)
  deriving DecidableEq, Repr

/-- The text of a fault. -/
def FileFault.reason : FileFault → String
  | missing => "No such file or directory (os error 2)"
  | isFolder => "Is a directory (os error 21)"
  | notFolder => "Not a directory (os error 20)"
  | nameTooLong => "File name too long (os error 36)"
  | notText => "stream did not contain valid UTF-8"
  | other reason => reason

/-! ## Arguments -/

/-- The flags, each of which stops the program at once. -/
inductive Flag where
  | help
  | version
  deriving DecidableEq, Repr

namespace Flag

/-- All flags, in the order in which they are listed. -/
def all : List Flag := [help, version]

/-- The name of a flag. -/
def name : Flag → String
  | help => "help"
  | version => "version"

/-- A flag as it is given by its name. -/
def long (f : Flag) : String := "--" ++ f.name

/-- The letter of a flag. -/
def letter : Flag → Char
  | help => 'h'
  | version => 'V'

/-- How like a name the name of a flag is. -/
def likeness (name : List Char) (f : Flag) : Binary64 :=
  Text.similarity name f.name.toList

/-- The one of two flags that is more like a name, and the second if they are equally like it. -/
def nearer (name : List Char) (f g : Flag) : Flag :=
  if (likeness name g).magnitude < (likeness name f).magnitude then f else g

/-- The flag that is most like a name, if one is like it at all. -/
def near? (name : List Char) : Option Flag :=
  match all.filter fun f => Text.alike (likeness name f) with
  | [] => none
  | f :: rest => some (rest.foldl (nearer name) f)

end Flag

/-- How the program is used, with the flag that is the matter if there is one. -/
def usage (flag : Option Flag) : String :=
  let flags := match flag with
    | some f => f.long ++ " "
    | none => ""
  "Usage: " ++ programName ++ " " ++ flags ++ "<FILE>"

/-- The last line of a complaint about the arguments. -/
def moreHelp : String := "For more information, try '--help'.\n"

/-- Stop with a complaint about the arguments. -/
def complain (message : String) (flag : Option Flag) : Exit :=
  { code := 2, stderr := "error: " ++ message ++ "\n\n" ++ usage flag ++ "\n\n" ++ moreHelp }

/-- No file was given. -/
def noFile : Exit :=
  complain "the following required arguments were not provided:\n  <FILE>" none

/-- What is said of an argument that has no place; it is shown as plain text. -/
def unexpectedText (argument : String) : String :=
  "unexpected argument '" ++ Text.plain argument ++ "' found"

/-- An argument has no place. -/
def unexpected (argument : String) : Exit :=
  complain (unexpectedText argument) none

/-- A flag is not known; it may have been meant as one that is, or else as a file. -/
def unknownFlag (flag : String) (near : Option Flag) : Exit :=
  let tip := match near with
    | some f => "a similar argument exists: '" ++ f.long ++ "'"
    | none =>
        "to pass '" ++ Text.plain flag ++ "' as a value, use '-- " ++ Text.plain flag ++ "'"
  complain (unexpectedText flag ++ "\n\n  tip: " ++ tip) near

/-- A flag was given a value. -/
def unwantedValue (flag : Flag) (value : String) : Exit :=
  complain ("unexpected value '" ++ Text.plain value ++ "' for '" ++ flag.long ++
    "' found; no more were expected") (some flag)

/-- The file has no name. -/
def emptyName : Exit :=
  { code := 2
    stderr := "error: a value is required for '<FILE>' but none was supplied\n\n" ++ moreHelp }

/-- What a flag does. -/
def Flag.exit : Flag → Exit
  | help =>
      { code := 0
        stdout := "Compiles a test-case file into a Rust module of runnable cases\n\n" ++
          usage none ++ "\n\nArguments:\n  <FILE>  Path to the test-case file\n\nOptions:\n" ++
          "  -h, --help     Print help\n  -V, --version  Print version\n" }
  | version => { code := 0, stdout := programName ++ " 0.1.0\n" }

/-- What an argument is as long as no `--` has been seen. -/
inductive Argument where
  | flag (flag : Flag)
  /-- A flag that was given a value. -/
  | valued (flag : Flag) (value : String)
  /-- A flag that is not known, and the one it is like. -/
  | unknown (flag : String) (near : Option Flag)
  /-- The mark after which every argument is a file. -/
  | mark
  | file (name : String)

namespace Argument

/-- Sort an argument by what follows its two dashes; a value follows the first equals sign. -/
def ofLong (cs : List Char) : Argument :=
  let name := cs.takeWhile (· != '=')
  match Flag.all.find? (·.name.toList == name), cs.dropWhile (· != '=') with
  | some f, [] => .flag f
  | some f, _ :: value => .valued f (String.ofList value)
  | none, _ => .unknown (String.ofList ('-' :: '-' :: name)) (Flag.near? name)

/-- Sort an argument. A single dash is a file, and the first letter after a dash is its flag. -/
def ofText (text : String) : Argument :=
  match text.toList with
  | ['-', '-'] => .mark
  | '-' :: '-' :: cs => ofLong cs
  | '-' :: letter :: _ =>
      match Flag.all.find? (·.letter == letter) with
      | some f => .flag f
      | none => .unknown (String.ofList ['-', letter]) none
  | _ => .file text

end Argument

/-- The file that was given must have a name. -/
def namedFile : Option String → Except Exit (Option String)
  | some "" => .error emptyName
  | file => .ok file

/-- Find the one file among the arguments, or what the program stops with. -/
def fileFrom (marked : Bool) (file : Option String) : List String → Except Exit String
  | [] =>
      match namedFile file with
      | .error exit => .error exit
      | .ok (some name) => .ok name
      | .ok none => .error noFile
  | text :: rest =>
      match if marked then Argument.file text else .ofText text with
      | .mark => fileFrom true file rest
      | .flag f =>
          match namedFile file with
          | .error exit => .error exit
          | .ok _ => .error f.exit
      | .valued f value => .error (unwantedValue f value)
      | .unknown flag near => .error (unknownFlag flag near)
      | .file name =>
          if file.isSome then .error (unexpected name) else fileFrom marked (some name) rest

/-- The file to compile, or what the program stops with. -/
def parse (arguments : List String) : Except Exit String :=
  fileFrom false none arguments

/-! ## Files -/

/-- The listing of a file that was read, or what the program stops with. -/
def compileFile (file : String) (content : Except FileFault String) : Except Exit String :=
  match content with
  | .error fault =>
      .error { code := 1, stderr := "Error opening file " ++ file ++ ": " ++ fault.reason ++ "\n" }
  | .ok source =>
      match compile source with
      | .ok listing => .ok listing
      | .error e => .error { code := 1, stderr := e.report source file }

/-- How the program stops once it has tried to write the listing. -/
def finish : Except FileFault Unit → Exit
  | .ok () => { code := 0 }
  | .error fault =>
      { code := 1, stderr := "Error writing " ++ outputFile ++ ": " ++ fault.reason ++ "\n" }

/-- The text of a file. -/
def decode (bytes : ByteArray) : Except FileFault String :=
  match String.fromUTF8? bytes with
  | some text => .ok text
  | none => .error .notText

end CaseSuite.CommandLine
