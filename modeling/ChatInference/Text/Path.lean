/-!
Paths of files: names separated by slashes. Empty steps and steps to the same directory count for
nothing, except a leading `.`.
-/

namespace ChatInference.Path

inductive Step where
  | root
  | here
  | up
  | name (s : String)
  deriving DecidableEq, Inhabited

/-- A path as its steps, each with the number of characters up to its end. -/
def stepsFrom (absolute : Bool) : Nat → List Char → List Char → List (Step × Nat)
  | at_, word, [] => close at_ word
  | at_, word, c :: cs =>
    if c == '/' then close at_ word ++ stepsFrom absolute (at_ + 1) [] cs
    else stepsFrom absolute (at_ + 1) (word ++ [c]) cs
where
  close (at_ : Nat) (word : List Char) : List (Step × Nat) :=
    if word.isEmpty then []
    else if word == ['.'] then (if at_ = 1 && !absolute then [(.here, at_)] else [])
    else if word == ['.', '.'] then [(.up, at_)]
    else [(.name (String.ofList word), at_)]

def stepsAt (path : String) : List (Step × Nat) :=
  match path.toList with
  | '/' :: cs => (.root, 1) :: stepsFrom true 1 [] cs
  | cs => stepsFrom false 0 [] cs

def steps (path : String) : List Step := (stepsAt path).map (·.1)

/-- The last step, if it is a name. -/
def fileName? (path : String) : Option String :=
  match (steps path).getLast? with
  | some (.name s) => some s
  | _ => none

/-- The file name without its extension; a leading dot starts no extension. -/
def fileStem? (path : String) : Option String :=
  (fileName? path).map fun name =>
    let cs := name.toList
    match cs.reverse.dropWhile (· != '.') with
    | _ :: before => if before.isEmpty then name else String.ofList before.reverse
    | [] => name

/-- The path without its last step; the root and the empty path have no parent. -/
def parent? (path : String) : Option String :=
  match (stepsAt path).reverse with
  | [] | (.root, _) :: _ => none
  | [_] => some ""
  | _ :: (_, n) :: _ => some (String.ofList (path.toList.take n))

/-- A path seen from a directory; an absolute path stays as it is. -/
def join (dir path : String) : String :=
  if path.startsWith "/" || dir.isEmpty then path
  else if dir.endsWith "/" then dir ++ path
  else dir ++ "/" ++ path

end ChatInference.Path
