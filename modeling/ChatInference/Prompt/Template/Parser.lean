import ChatInference.Prompt.Template.Lexer

/-! From the pieces of a source to the tree. Every tag that opens a block has its closing tag. -/

namespace ChatInference.Template

namespace Parser

def literal? : String → Option Value
  | "true" | "True" => some (.bool true)
  | "false" | "False" => some (.bool false)
  | "none" | "None" => some .none
  | _ => none

mutual

/-- An expression: sums, compared from left to right. -/
def expr : Nat → List Token → Option (Expr × List Token)
  | 0, _ => none
  | n + 1, ts => do
    let (e, ts) ← sum n ts
    compared n e ts

def compared : Nat → Expr → List Token → Option (Expr × List Token)
  | n + 1, e, .mark "==" :: ts => do
    let (b, ts) ← sum n ts
    compared n (.eq e b) ts
  | n + 1, e, .mark "!=" :: ts => do
    let (b, ts) ← sum n ts
    compared n (.ne e b) ts
  | _, e, ts => some (e, ts)

def sum : Nat → List Token → Option (Expr × List Token)
  | 0, _ => none
  | n + 1, ts => do
    let (e, ts) ← term n ts
    added n e ts

def added : Nat → Expr → List Token → Option (Expr × List Token)
  | n + 1, e, .mark "+" :: ts => do
    let (b, ts) ← term n ts
    added n (.add e b) ts
  | _, e, ts => some (e, ts)

/-- An operand with what is applied to it. -/
def term : Nat → List Token → Option (Expr × List Token)
  | 0, _ => none
  | n + 1, ts => do
    let (e, ts) ← atom n ts
    applied n e ts

def applied : Nat → Expr → List Token → Option (Expr × List Token)
  | n + 1, e, .mark "." :: .word name :: ts =>
    applied n (.item e (.literal (.str name))) ts
  | n + 1, e, .mark "[" :: ts => do
    let (key, ts) ← expr n ts
    match ts with
    | .mark "]" :: ts => applied n (.item e key) ts
    | _ => none
  | n + 1, e, .mark "|" :: .word name :: ts => applied n (.filter name e) ts
  | n + 1, _, .mark "(" :: ts => do
    let (_, ts) ← items n ")" ts
    applied n .call ts
  | _, e, ts => some (e, ts)

def atom : Nat → List Token → Option (Expr × List Token)
  | 0, _ => none
  | _, .word name :: ts =>
    some (((literal? name).map .literal).getD (.var name), ts)
  | _, .str s :: ts => some (.literal (.str s), ts)
  | _, .int i :: ts => some (.literal (.int i), ts)
  | _, .mark "-" :: .int i :: ts => some (.literal (.int (-(i : Int))), ts)
  | n + 1, .mark "(" :: ts => do
    let (e, ts) ← expr n ts
    match ts with
    | .mark ")" :: ts => some (e, ts)
    | _ => none
  | n + 1, .mark "[" :: ts => do
    let (es, ts) ← items n "]" ts
    some (.list es, ts)
  | _, _ => none

/-- Expressions separated by commas, up to a closing bracket. -/
def items : Nat → String → List Token → Option (List Expr × List Token)
  | 0, _, _ => none
  | n + 1, last, ts =>
    if ts.head? == some (.mark last) then some ([], ts.tail)
    else do
      let (e, ts) ← expr n ts
      match ts with
      | .mark "," :: ts => do
        let (es, ts) ← items n last ts
        some (e :: es, ts)
      | t :: ts => if t == .mark last then some ([e], ts) else none
      | [] => none

end

/-- A number of steps that no expression of so many tokens exhausts. -/
def enough (ts : List Token) : Nat := 8 * (ts.length + 1)

def exprAt (ts : List Token) : Option (Expr × List Token) := expr (enough ts) ts

/-- An expression and nothing after it. -/
def whole (ts : List Token) : Option Expr := do
  let (e, rest) ← exprAt ts
  if rest.isEmpty then some e else none

/-- What a loop runs over, and the condition on its items. -/
def loopHead (ts : List Token) : Option (Expr × Option Expr) := do
  let (source, rest) ← exprAt ts
  match rest with
  | [] => some (source, none)
  | .word "if" :: ts => (whole ts).map fun test => (source, some test)
  | _ => none

mutual

/-- The nodes up to the first tag that does not start one. -/
def nodes : Nat → List Segment → Option (List Node × List Segment)
  | 0, _ => none
  | _, [] => some ([], [])
  | n + 1, .text s :: rest => (nodes n rest).map fun (ns, rest) => (.text s :: ns, rest)
  | n + 1, .output ts :: rest => do
    let e ← whole ts
    let (ns, rest) ← nodes n rest
    some (.output e :: ns, rest)
  | n + 1, .tag (.word "set" :: .word name :: .mark "=" :: ts) :: rest => do
    let e ← whole ts
    let (ns, rest) ← nodes n rest
    some (.set name e :: ns, rest)
  | n + 1, .tag (.word "if" :: ts) :: rest => do
    let (node, rest) ← branch n ts rest
    let (ns, rest) ← nodes n rest
    some (node :: ns, rest)
  | n + 1, .tag (.word "for" :: .word name :: .word "in" :: ts) :: rest => do
    let (source, test) ← loopHead ts
    let (body, rest) ← nodes n rest
    let (empty, rest) ← otherwise n rest
    match rest with
    | .tag [.word "endfor"] :: rest => do
      let (ns, rest) ← nodes n rest
      some (.loop name source test body empty :: ns, rest)
    | _ => none
  | _, .tag (.word w :: ts) :: rest =>
    if ["elif", "else", "endif", "endfor"].contains w then some ([], .tag (.word w :: ts) :: rest)
    else none
  | _, .tag _ :: _ => none

/-- A condition up to its closing tag; `elif` nests one in the other. -/
def branch : Nat → List Token → List Segment → Option (Node × List Segment)
  | 0, _, _ => none
  | n + 1, ts, rest => do
    let test ← whole ts
    let (yes, rest) ← nodes n rest
    match rest with
    | .tag (.word "elif" :: ts) :: rest => do
      let (no, rest) ← branch n ts rest
      some (.cond test yes [no], rest)
    | _ => do
      let (no, rest) ← otherwise n rest
      match rest with
      | .tag [.word "endif"] :: rest => some (.cond test yes no, rest)
      | _ => none

/-- The nodes after `else`, if it is there. -/
def otherwise : Nat → List Segment → Option (List Node × List Segment)
  | n + 1, .tag [.word "else"] :: rest => nodes n rest
  | _, rest => some ([], rest)

end

end Parser

/-- The tree of a source, if the source is well formed. -/
def parse? (source : String) : Option (List Node) := do
  let ss ← segments? source
  let (ns, rest) ← Parser.nodes (3 * (ss.length + 1)) ss
  if rest.isEmpty then some ns else none

end ChatInference.Template
