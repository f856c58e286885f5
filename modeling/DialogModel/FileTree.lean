/-!
# Directories in memory

A working directory with files, some of them in directories below it.  Reading a path gives the
text of a file or the reason why there is none, in the words of the operating system.  The path
may leave the working directory, but no file is found outside of it.
-/

namespace DialogModel

/-- Files by their paths below the working directory. -/
structure FileTree where
  files : List (List String × ByteArray) := []

namespace FileTree

/-- Why a path cannot be read. -/
inductive Fault
  | missing
  | isDirectory
  | notDirectory
  | nameTooLong
  | notText
  deriving DecidableEq, Repr

/-- The wording of a fault. -/
def Fault.message : Fault → String
  | .missing => "No such file or directory (os error 2)"
  | .isDirectory => "Is a directory (os error 21)"
  | .notDirectory => "Not a directory (os error 20)"
  | .nameTooLong => "File name too long (os error 36)"
  | .notText => "stream did not contain valid UTF-8"

/-- The parts of a path between slashes. -/
def parts (path : String) : List String :=
  (path.toList.splitOn '/').map String.ofList

/-- The tree of files with the given paths. -/
def ofFiles (files : List (String × ByteArray)) : FileTree where
  files := files.map fun (path, content) =>
    ((parts path).filter fun part => part != "" && part != ".", content)

/-- The largest number of bytes in a name. -/
def maxNameSize : Nat := 255

/-- The largest number of bytes in a path. -/
def maxPathSize : Nat := 4095

/-- Where a path has led to. -/
inductive Place
  /-- The working directory or one below it, by the names that lead to it. -/
  | within (names : List String)
  /-- A directory above the working directory. -/
  | outside
  | file (content : ByteArray)
  deriving Inhabited

/-- Whether some file is in a directory or below it. -/
def hasDirectory (t : FileTree) (names : List String) : Bool :=
  names.isEmpty || t.files.any fun f => names.isPrefixOf f.1 && f.1.length > names.length

/-- The place above a directory. -/
def Place.parent : Place → Place
  | .within [] => .outside
  | .within names => .within names.dropLast
  | place => place

/-- Looks a name up in a directory. -/
def enter (t : FileTree) (place : Place) (name : String) : Except Fault Place :=
  match place with
  | .within names =>
    let names := names ++ [name]
    match t.files.find? fun f => f.1 == names with
    | some f => .ok (.file f.2)
    | none => if t.hasDirectory names then .ok (.within names) else .error .missing
  | _ => .error .missing

/-- Follows one part of a path. -/
def follow (t : FileTree) (place : Place) (part : String) : Except Fault Place :=
  match place with
  | .file _ => .error .notDirectory
  | _ =>
    if part = "" ∨ part = "." then .ok place
    else if part = ".." then .ok place.parent
    else if maxNameSize < part.utf8ByteSize then .error .nameTooLong
    else t.enter place part

/-- The place where a path starts: a path with a slash in front starts outside. -/
def start (path : String) : Place :=
  if path.toList.head? = some '/' then .outside else .within []

/-- The text of the file at a path. -/
def readText (t : FileTree) (path : String) : Except Fault String := do
  if path = "" then .error .missing
  else if maxPathSize < path.utf8ByteSize then .error .nameTooLong
  else
    match ← (parts path).foldlM t.follow (start path) with
    | .within _ | .outside => .error .isDirectory
    | .file content =>
      match String.fromUTF8? content with
      | some text => .ok text
      | none => .error .notText

/-- The text of the file at a path, or the words for why there is none. -/
def read (t : FileTree) (path : String) : Except String String :=
  match t.readText path with
  | .ok text => .ok text
  | .error fault => .error fault.message

end FileTree

end DialogModel
