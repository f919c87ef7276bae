/-! Templates as trees: text, expressions, and the tags that choose and repeat. -/

namespace ChatInference.Template

/-- What an expression comes to. -/
inductive Value where
  | undefined
  | none
  | bool (b : Bool)
  | int (n : Int)
  | str (s : String)
  | list (items : List Value)
  | map (members : List (String × Value))
  deriving Inhabited

inductive Expr where
  | literal (v : Value)
  | list (items : List Expr)
  | var (name : String)
  | item (e key : Expr)
  | add (a b : Expr)
  | eq (a b : Expr)
  | ne (a b : Expr)
  | filter (name : String) (e : Expr)
  /-- No function that a template may call returns. -/
  | call
  deriving Inhabited

inductive Node where
  | text (s : String)
  | output (e : Expr)
  | set (name : String) (e : Expr)
  | cond (test : Expr) (yes no : List Node)
  | loop (name : String) (source : Expr) (test : Option Expr) (body empty : List Node)
  deriving Inhabited

/-- A piece of the inside of a tag. -/
inductive Token where
  | word (s : String)
  | str (s : String)
  | int (n : Nat)
  | mark (s : String)
  deriving DecidableEq, Inhabited

/-- A piece of a source: plain text, an expression to print, or a tag. -/
inductive Segment where
  | text (s : String)
  | output (ts : List Token)
  | tag (ts : List Token)
  deriving DecidableEq, Inhabited

end ChatInference.Template
