/-!
# Path texts

A path is a text whose parts are separated by slashes. Empty parts and, except at the beginning,
parts that are a single dot do not count. What a path refers to is not asked here.
-/

namespace SymbolExport

/-- A place below the root: the names of the directories on the way and its own. -/
abbrev Location := List String

namespace Path

def glue : List (List Char) → List Char
  | [] => []
  | [part] => part
  | part :: parts => part ++ '/' :: glue parts

def isIdle (part : List Char) : Bool :=
  part = [] || part = ['.']

def isAbsolute (path : String) : Bool :=
  path.toList.head? = some '/'

/-- A path below another one; an absolute one stands for itself. -/
def join (base path : String) : String :=
  if isAbsolute path then path
  else if base.toList.getLast? = some '/' || base = "" then base ++ path
  else base ++ "/" ++ path

def resolve (cwd path : String) : String :=
  join cwd path

/-- The last part that counts, unless it leads upwards. -/
def fileName? (path : String) : Option (List Char) :=
  match ((path.toList.splitOn '/').reverse.dropWhile isIdle).head? with
  | some part => if part = ['.', '.'] then none else some part
  | none => none

/-- What follows the last dot of a file name, if something precedes it. -/
def extension? (path : String) : Option (List Char) :=
  match fileName? path with
  | none => none
  | some name =>
      let reversed := name.reverse
      match reversed.dropWhile (· ≠ '.') with
      | _ :: _ :: _ => some (reversed.takeWhile (· ≠ '.')).reverse
      | _ => none

/-- Whether a file is YAML by its extension, in any ASCII case. -/
def isYaml (path : String) : Bool :=
  match extension? path with
  | none => false
  | some extension =>
      let lower := extension.map Char.toLower
      lower = "yaml".toList || lower = "yml".toList

/-- What is kept of a path before its first separator: the root or a leading dot. -/
def lead (cs : List Char) : List Char :=
  match cs with
  | '/' :: _ => ['/']
  | '.' :: '/' :: _ => ['.']
  | ['.'] => ['.']
  | _ => []

/-- The path without its last part; nothing is left of a path that has no such part. -/
def parent (path : String) : String :=
  let cs := path.toList
  let lead := lead cs
  let body := ((cs.drop lead.length).splitOn '/').reverse.dropWhile isIdle
  match body with
  | [] => ""
  | _ :: rest => String.ofList (lead ++ glue (rest.dropWhile isIdle).reverse)

def directory (path : String) : String :=
  let dir := parent path
  if dir = "" then "." else dir

end Path

end SymbolExport
