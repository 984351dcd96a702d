import SymbolExport.Export.Error
import SymbolExport.Files.Path
import SymbolExport.Text.Bytes

/-!
# File trees

Files and directories by their place below the root. A path leads to a place: its parts are followed
one by one, a part that leads upwards goes to the directory above, and every part but the last must
be a directory.
-/

namespace SymbolExport

inductive Entry where
  | file (content : Bytes)
  | directory
deriving DecidableEq, Repr

/-- What there is at each place. -/
structure Tree where
  entries : List (Location × Entry) := []
deriving DecidableEq, Repr

namespace Location

def text (loc : Location) : String :=
  "/" ++ "/".intercalate loc

/-- The directory above; the root is above itself. -/
def above (loc : Location) : Location :=
  loc.dropLast

end Location

namespace Tree

/-- What is at a place; the root is always a directory. -/
def get? (t : Tree) (loc : Location) : Option Entry :=
  if loc = [] then some .directory else t.entries.lookup loc

def remove (t : Tree) (loc : Location) : Tree where
  entries := t.entries.filter fun e => e.1 ≠ loc

def put (t : Tree) (loc : Location) (entry : Entry) : Tree where
  entries := (loc, entry) :: (t.remove loc).entries

/-- The content of a file; nothing else has any. -/
def content (t : Tree) (loc : Location) : Bytes :=
  match t.get? loc with
  | some (.file content) => content
  | _ => []

theorem lookup_filter_ne (entries : List (Location × Entry)) (loc other : Location)
    (h : other ≠ loc) :
    (entries.filter fun e => e.1 ≠ loc).lookup other = entries.lookup other := by
  induction entries with
  | nil => rfl
  | cons e entries ih =>
      obtain ⟨l, entry⟩ := e
      by_cases hl : l = loc
      · subst hl
        have hb : (other == l) = false := beq_eq_false_iff_ne.mpr h
        simp only [List.filter_cons, ne_eq, not_true_eq_false, decide_false, Bool.false_eq_true,
          if_false, List.lookup_cons, hb, ih]
      · simp only [List.filter_cons, ne_eq, hl, not_false_eq_true, decide_true, if_true,
          List.lookup_cons, ih]

theorem lookup_filter_self (entries : List (Location × Entry)) (loc : Location) :
    (entries.filter fun e => e.1 ≠ loc).lookup loc = none := by
  induction entries with
  | nil => rfl
  | cons e entries ih =>
      obtain ⟨l, entry⟩ := e
      by_cases hl : l = loc
      · simpa [List.filter, hl] using ih
      · have hb : (loc == l) = false := by simpa using fun h => hl h.symm
        simp only [List.filter, hl, ne_eq, not_false_eq_true, decide_true, List.lookup_cons, hb]
        exact ih

@[simp] theorem get?_put_self (t : Tree) (loc : Location) (entry : Entry) (h : loc ≠ []) :
    (t.put loc entry).get? loc = some entry := by
  simp [get?, put, h]

theorem get?_put_of_ne (t : Tree) {loc other : Location} (entry : Entry) (h : other ≠ loc) :
    (t.put loc entry).get? other = t.get? other := by
  unfold get? put
  have hb : (other == loc) = false := by simpa using h
  simp only [List.lookup_cons, hb]
  simp only [remove, lookup_filter_ne _ _ _ h]

theorem get?_remove_self (t : Tree) (loc : Location) (h : loc ≠ []) :
    (t.remove loc).get? loc = none := by
  simp only [get?, h, if_false, remove, lookup_filter_self]

theorem get?_remove_of_ne (t : Tree) {loc other : Location} (h : other ≠ loc) :
    (t.remove loc).get? other = t.get? other := by
  simp only [get?, remove, lookup_filter_ne _ _ _ h]

end Tree

inductive LastPart where
  /-- A name, and whether a slash follows it. -/
  | name (name : String) (slash : Bool)
  /-- The directory itself, or the one above it. -/
  | dots (up : Bool)
  /-- There is no part at all. -/
  | root
deriving DecidableEq, Repr

def longestName : Nat := 255

/-- A path must be shorter than this, in octets. -/
def pathLimit : Nat := 4096

namespace Tree

/-- Goes from a directory to what a name refers to there. -/
def child (t : Tree) (dir : Location) (name : String) : Except OsFault (Location × Option Entry) :=
  if longestName < name.utf8ByteSize then .error .nameTooLong
  else .ok (dir ++ [name], t.get? (dir ++ [name]))

/-- Follows a part that must lead to a directory. -/
def enter (t : Tree) (dir : Location) (part : String) : Except OsFault Location :=
  if part = "." then .ok dir
  else if part = ".." then .ok (Location.above dir)
  else
    match t.child dir part with
    | .error fault => .error fault
    | .ok (loc, some .directory) => .ok loc
    | .ok (_, some (.file _)) => .error .notDirectory
    | .ok (_, none) => .error .missing

/-- The parts of a path that count for following it. -/
def parts (path : String) : List String :=
  ((path.toList.splitOn '/').filter (· ≠ [])).map String.ofList

def lastPart (path : String) : LastPart :=
  match (parts path).getLast? with
  | none => .root
  | some "." => .dots false
  | some ".." => .dots true
  | some name => .name name (path.toList.getLast? = some '/')

/-- Follows a path up to its last part. -/
def walk (t : Tree) (cwd : Location) (path : String) : Except OsFault (Location × LastPart) :=
  if path = "" then .error .missing
  else if path.toList.contains '\x00' then .error .zeroInPath
  else if pathLimit ≤ path.utf8ByteSize then .error .nameTooLong
  else
    let start := if Path.isAbsolute path then [] else cwd
    match (parts path).dropLast.foldlM (fun dir part => t.enter dir part) start with
    | .error fault => .error fault
    | .ok dir => .ok (dir, lastPart path)

/-- What a path leads to, for reading. -/
def find (t : Tree) (cwd : Location) (path : String) : Except OsFault Entry :=
  match t.walk cwd path with
  | .error fault => .error fault
  | .ok (dir, .name name slash) =>
      match t.child dir name with
      | .error fault => .error fault
      | .ok (_, none) => .error .missing
      | .ok (_, some (.file content)) =>
          if slash then .error .notDirectory else .ok (.file content)
      | .ok (_, some .directory) => .ok .directory
  | .ok (_, .dots _) => .ok .directory
  | .ok (_, .root) => .ok .directory

/-- The place at which a path lets a file be created or overwritten. -/
def creationTarget (t : Tree) (cwd : Location) (path : String) : Except OsFault Location :=
  match t.walk cwd path with
  | .error fault => .error fault
  | .ok (dir, .name name slash) =>
      if slash then .error .isDirectory
      else
        match t.child dir name with
        | .error fault => .error fault
        | .ok (_, some .directory) => .error .isDirectory
        | .ok (loc, _) => .ok loc
  | .ok (_, .dots _) => .error .isDirectory
  | .ok (_, .root) => .error .isDirectory

def renameTarget (t : Tree) (cwd : Location) (path : String) : Except OsFault Location :=
  match t.walk cwd path with
  | .error .zeroInPath => .error .invalidArgument
  | .error fault => .error fault
  | .ok (dir, .name name slash) =>
      match t.child dir name with
      | .error fault => .error fault
      | .ok (loc, entry) =>
          if slash then .error .notDirectory
          else if entry = some .directory then .error .isDirectory
          else .ok loc
  | .ok (_, .dots _) => .error .busy
  | .ok (_, .root) => .error .busy

end Tree

inductive Effect where
  | create (loc : Location)
  | append (loc : Location) (octets : Bytes)
  | rename (source target : Location)
  | remove (loc : Location)
deriving DecidableEq, Repr

namespace Effect

def apply (t : Tree) : Effect → Tree
  | .create loc => t.put loc (.file [])
  | .append loc octets => t.put loc (.file (t.content loc ++ octets))
  | .rename source target => (t.remove source).put target (.file (t.content source))
  | .remove loc => t.remove loc

def applyAll (t : Tree) (effects : List Effect) : Tree :=
  effects.foldl apply t

/-- The trees before, between and after changes. -/
def states (t : Tree) : List Effect → List Tree
  | [] => [t]
  | effect :: effects => t :: states (effect.apply t) effects

end Effect

end SymbolExport
