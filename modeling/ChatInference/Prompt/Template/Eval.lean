import ChatInference.Prompt.Template.Parser

/-!
What a template prints. A name without a value prints nothing, but has no parts; a call, an unknown
filter and a sum of unlike values fail, and a failure anywhere is a failure of the whole.
-/

namespace ChatInference.Template

namespace Value

def isTrue : Value → Bool
  | undefined | none => false
  | bool b => b
  | int n => n != 0
  | str s => !s.isEmpty
  | list items => !items.isEmpty
  | map members => !members.isEmpty

/-- A character of a string that is printed inside a list or a map. -/
def escaped (c : Char) : String :=
  match c with
  | '"' => "\\\""
  | '\\' => "\\\\"
  | '\n' => "\\n"
  | '\r' => "\\r"
  | '\t' => "\\t"
  | c => if c = '\x00' then "\\0" else String.ofList [c]

def enquoted (s : String) : String := "\"" ++ String.join (s.toList.map escaped) ++ "\""

mutual

/-- A value inside a printed list or map. -/
def inspect : Value → String
  | undefined => "undefined"
  | none => "None"
  | bool b => if b then "True" else "False"
  | int n => toString n
  | str s => enquoted s
  | list items => "[" ++ ", ".intercalate (inspectAll items) ++ "]"
  | map members => "\x7b" ++ ", ".intercalate (inspectMembers members) ++ "\x7d"

def inspectAll : List Value → List String
  | [] => []
  | v :: vs => inspect v :: inspectAll vs

def inspectMembers : List (String × Value) → List String
  | [] => []
  | (k, v) :: ms => (enquoted k ++ ": " ++ inspect v) :: inspectMembers ms

end

def print : Value → String
  | undefined => ""
  | str s => s
  | v => v.inspect

/-- A truth value counts as zero or one. -/
def number? : Value → Option Int
  | int n => some n
  | bool b => some (if b then 1 else 0)
  | _ => Option.none

mutual

def same : Value → Value → Bool
  | undefined, undefined => true
  | none, none => true
  | str a, str b => a == b
  | list as, list bs => sameAll as bs
  | map as, map bs => sameMembers as bs
  | a, b => a.number?.isSome && a.number? == b.number?

def sameAll : List Value → List Value → Bool
  | [], [] => true
  | a :: as, b :: bs => same a b && sameAll as bs
  | _, _ => false

def sameMembers : List (String × Value) → List (String × Value) → Bool
  | [], [] => true
  | (k, a) :: as, (l, b) :: bs => k == l && same a b && sameMembers as bs
  | _, _ => false

end

/-- The position an index means; a negative one counts from the end. -/
def position? (size : Nat) (i : Int) : Option Nat :=
  if 0 ≤ i then some i.toNat else if -(size : Int) ≤ i then some (i + size).toNat else Option.none

/-- A part of a value; what has no such part gives an undefined value, and an undefined one fails. -/
def item? (v key : Value) : Option Value :=
  match v, key with
  | undefined, _ => Option.none
  | map members, str k => some ((members.lookup k).getD undefined)
  | list items, int i =>
    some (((position? items.length i).bind (items[·]?)).getD undefined)
  | str s, int i =>
    let cs := s.toList
    some (((position? cs.length i).bind (cs[·]?)).elim undefined fun c => str (String.ofList [c]))
  | _, _ => some undefined

def add? : Value → Value → Option Value
  | str a, str b => some (str (a ++ b))
  | list as, list bs => some (list (as ++ bs))
  | a, b => do
    let m ← a.number?
    let n ← b.number?
    some (int (m + n))

def length? : Value → Option Value
  | str s => some (int s.length)
  | list items => some (int items.length)
  | map members => some (int members.length)
  | _ => Option.none

def filter? (name : String) (v : Value) : Option Value :=
  match name with
  | "length" => v.length?
  | "trim" => some (str (String.ofList (Text.trim v.print.toList)))
  | _ => Option.none

/-- The items a loop runs over. -/
def items? : Value → Option (List Value)
  | list items => some items
  | map members => some (members.map fun m => str m.1)
  | str s => some (s.toList.map fun c => str (String.ofList [c]))
  | undefined => some []
  | _ => Option.none

end Value

abbrev Scope := List (String × Value)

mutual

def Expr.eval (env : Scope) : Expr → Option Value
  | .literal v => some v
  | .list es => (evalAll env es).map .list
  | .var name => some ((env.lookup name).getD .undefined)
  | .item e key => do
    let v ← Expr.eval env e
    let k ← Expr.eval env key
    v.item? k
  | .add a b => do
    let x ← Expr.eval env a
    let y ← Expr.eval env b
    x.add? y
  | .eq a b => do
    let x ← Expr.eval env a
    let y ← Expr.eval env b
    some (.bool (x.same y))
  | .ne a b => do
    let x ← Expr.eval env a
    let y ← Expr.eval env b
    some (.bool (!x.same y))
  | .filter name e => do
    let v ← Expr.eval env e
    v.filter? name
  | .call => none

def evalAll (env : Scope) : List Expr → Option (List Value)
  | [] => some []
  | e :: es => do
    let v ← Expr.eval env e
    let vs ← evalAll env es
    some (v :: vs)

end

def set (env : Scope) (name : String) (v : Value) : Scope := (name, v) :: env

/-- What a loop tells its body about the round. -/
def round (i n : Nat) : Value :=
  .map [("index", .int (i + 1)), ("index0", .int i), ("first", .bool (i == 0)),
    ("last", .bool (i + 1 == n)), ("length", .int n)]

/-- The items that meet the condition of a loop. -/
def select (env : Scope) (name : String) (test : Option Expr) : List Value → Option (List Value)
  | [] => some []
  | v :: vs => do
    let keep ← match test with
      | some e => (Expr.eval (set env name v) e).map Value.isTrue
      | none => some true
    let rest ← select env name test vs
    some (if keep then v :: rest else rest)

/-- Prints once for each item, with its number. -/
def rounds (print : Nat → Value → Option String) : Nat → List Value → Option String
  | _, [] => some ""
  | i, v :: vs => do
    let s ← print i v
    let rest ← rounds print (i + 1) vs
    some (s ++ rest)

mutual

/-- The text of a node, and the names as they stand after it. -/
def Node.run : Node → Scope → Option (String × Scope)
  | .text s, env => some (s, env)
  | .output e, env => (Expr.eval env e).map fun v => (v.print, env)
  | .set name e, env => (Expr.eval env e).map fun v => ("", set env name v)
  | .cond test yes no, env => do
    let v ← Expr.eval env test
    if v.isTrue then runAll yes env else runAll no env
  | .loop name source test body empty, env => do
    let v ← Expr.eval env source
    let items ← v.items?
    let items ← select env name test items
    let text ←
      if items.isEmpty then (runAll empty env).map (·.1)
      else rounds (fun i v =>
        (runAll body (set (set env name v) "loop" (round i items.length))).map (·.1)) 0 items
    some (text, env)

def runAll : List Node → Scope → Option (String × Scope)
  | [], env => some ("", env)
  | n :: ns, env => do
    let (s, env) ← Node.run n env
    let (rest, env) ← runAll ns env
    some (s ++ rest, env)

end

/-- The text of a source with the given names, if nothing fails. -/
def render? (source : String) (env : Scope) : Option String := do
  let ns ← parse? source
  (runAll ns env).map (·.1)

end ChatInference.Template
