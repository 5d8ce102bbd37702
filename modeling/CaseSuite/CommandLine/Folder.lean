import CaseSuite.CommandLine.Basic

/-!
# Running in a folder

The whole program as a function of its arguments and of the folder it runs in. A folder holds files
and empty folders, and nothing is known of what lies outside of it but that there are folders.
-/

namespace CaseSuite.CommandLine

/-- What a name in a folder stands for. -/
inductive Entry where
  | file (content : ByteArray)
  | folder

/-- The entries of a folder. -/
abbrev Folder := List (String × Entry)

/-- Where a path leads. -/
inductive Place where
  /-- The folder itself. -/
  | here
  /-- A folder in it. -/
  | inside
  /-- A folder outside of it. -/
  | outside
  | file (content : ByteArray)

/-- The most bytes a name may have. -/
def nameLimit : Nat := 255

/-- The most bytes a path may have. -/
def pathLimit : Nat := 4095

namespace Folder

/-- Look a name up in a place that is a folder. -/
def find (folder : Folder) (place : Place) (name : String) : Except FileFault Place :=
  if nameLimit < name.utf8ByteSize then .error .nameTooLong
  else
    match place with
    | .here =>
        match folder.lookup name with
        | some (.file content) => .ok (.file content)
        | some .folder => .ok .inside
        | none => .error .missing
    | _ => .error .missing

/-- Take one step of a path; a step that names nothing stays, but only in a folder. -/
def step (folder : Folder) : Place → String → Except FileFault Place
  | .file _, _ => .error .notFolder
  | place, "" | place, "." => .ok place
  | .inside, ".." => .ok .here
  | _, ".." => .ok .outside
  | place, name => folder.find place name

/-- Follow a path; one that begins with a slash starts outside. -/
def walk (folder : Folder) (path : String) : Except FileFault Place :=
  if pathLimit < path.utf8ByteSize then .error .nameTooLong
  else
    let start := if path.startsWith "/" then Place.outside else .here
    (path.splitOn "/").foldlM folder.step start

/-- Read a file. -/
def read (folder : Folder) (path : String) : Except FileFault String :=
  match folder.walk path with
  | .ok (.file content) => decode content
  | .ok _ => .error .isFolder
  | .error fault => .error fault

/-- Write a file into the folder itself. -/
def write (folder : Folder) (name content : String) : Except FileFault Folder :=
  match folder.lookup name with
  | some .folder => .error .isFolder
  | _ => .ok ((name, .file content.toUTF8) :: folder.filter (·.1 != name))

/-- The text of a file in the folder. -/
def text? (folder : Folder) (name : String) : Option String :=
  match folder.lookup name with
  | some (.file content) => String.fromUTF8? content
  | _ => none

end Folder

/-- Run the program in a folder. -/
def run (folder : Folder) (arguments : List String) : Exit × Folder :=
  match parse arguments with
  | .error exit => (exit, folder)
  | .ok file =>
      match compileFile file (folder.read file) with
      | .error exit => (exit, folder)
      | .ok listing =>
          match folder.write outputFile listing with
          | .error fault => (finish (.error fault), folder)
          | .ok folder => (finish (.ok ()), folder)

end CaseSuite.CommandLine
