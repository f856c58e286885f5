/-!
# Paths

Two paths are the same if they have the same components.  Repeated and final slashes do not count,
nor does a dot between them; a dot at the very start does, and so does a slash.  Two dots are a
component like any other.
-/

namespace DialogModel.SourcePath

/-- The components of a path: a slash at the start, a dot at the start, and the names. -/
def components (path : String) : List String :=
  let parts := (path.toList.splitOn '/').map String.ofList
  let names := parts.filter fun p => p != "" && p != "."
  match parts with
  | "" :: _ :: _ => "/" :: names
  | "." :: _ => "." :: names
  | _ => names

/-- Whether two paths name the same file. -/
def same (a b : String) : Bool :=
  components a == components b

/-- The content of the file at a path, from a list in which later files replace earlier ones. -/
def lookup? (files : List (String × String)) (path : String) : Option String :=
  (files.reverse.find? fun f => same f.1 path).map Prod.snd

/-- The content of the file at a path, or that there is none. -/
def read (files : List (String × String)) (path : String) : Except String String :=
  match lookup? files path with
  | some content => .ok content
  | none => .error s!"file not found in memory: {path}"

end DialogModel.SourcePath
