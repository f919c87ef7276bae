import ChatInference.Text.Path

/-!
Files by their paths, as seen from the directory the program works in. Names outside of that
directory lead to nothing.
-/

namespace ChatInference

/-- Files and directories (`none`), each with the names that lead to it. Every name on the way to an
entry is a directory too. -/
structure Disk (α : Type) where
  entries : List (List String × Option α) := []

namespace Disk

variable {α : Type}

inductive Failure where
  | absent
  | notDirectory
  /-- No file's name holds the character of code zero. -/
  | nulInName
  deriving DecidableEq, Inhabited

def Failure.message : Failure → String
  | absent => "No such file or directory (os error 2)"
  | notDirectory => "Not a directory (os error 20)"
  | nulInName => "file name contained an unexpected NUL byte"

def nameOf? : Path.Step → Option String
  | .name s => some s
  | _ => none

/-- Whether a path asks for a directory by how it ends. -/
def asksDirectory (path : String) : Bool := path.endsWith "/" || path.endsWith "/."

/-- Puts an entry at a path, in place of one that is there. -/
def put (d : Disk α) (path : String) (entry : Option α) : Disk α :=
  let names := (Path.steps path).filterMap nameOf?
  ⟨d.entries.filter (·.1 != names) ++ [(names, entry)]⟩

/-- What the names lead to. -/
def at? (d : Disk α) (names : List String) : Option (Option α) :=
  match d.entries.lookup names with
  | some entry => some entry
  | none =>
    if names.isEmpty || d.entries.any (fun e => names.isPrefixOf e.1) then some none else none

/-- One step from where the names lead. -/
def step (d : Disk α) (names : List String) (s : Path.Step) : Except Failure (List String) :=
  match d.at? names with
  | none => .error .absent
  | some (some _) => .error .notDirectory
  | some none =>
    match s with
    | .here => .ok names
    | .up => if names.isEmpty then .error .absent else .ok names.dropLast
    | .name n => .ok (names ++ [n])
    | .root => .error .absent

/-- What lies at a path: a file, or a directory (`none`). -/
def find (d : Disk α) (path : String) : Except Failure (Option α) :=
  if path.toList.contains '\x00' then .error .nulInName
  else if path.isEmpty then .error .absent
  else do
    let names ← (Path.steps path).foldlM d.step []
    match d.at? names with
    | none => .error .absent
    | some (some file) => if asksDirectory path then .error .notDirectory else .ok (some file)
    | some none => .ok none

/-- Puts a file at a path where nothing lies, if its directory is there. -/
def touch (d : Disk α) (path : String) (file : α) : Disk α :=
  match (Path.steps path).foldlM d.step [] with
  | .ok names =>
    if (d.at? names).isNone && !asksDirectory path && !path.toList.contains '\x00' then
      ⟨d.entries ++ [(names, some file)]⟩
    else d
  | .error _ => d

/-- Whether anything lies at a path. -/
def contains (d : Disk α) (path : String) : Bool :=
  match d.find path with
  | .ok _ => true
  | .error _ => false

/-- Files by their paths; a path that ends in a slash makes a directory. -/
def ofFiles (files : List (String × α)) : Disk α :=
  files.foldl (fun d f => d.put f.1 (if asksDirectory f.1 then none else some f.2)) {}

end Disk

end ChatInference
