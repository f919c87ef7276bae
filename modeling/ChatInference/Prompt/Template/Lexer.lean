import ChatInference.Json.Reader
import ChatInference.Prompt.Template.Syntax

/-!
The pieces of a template's source. A hyphen at the inner side of a tag's bracket trims the text on
the outer side, and one line end at the end of the source counts for nothing.
-/

namespace ChatInference.Template

namespace Lexer

def open_ : Char := '\x7b'

def close : Char := '\x7d'

def isWordStart (c : Char) : Bool := c.isAlpha || c == '_'

def isWordPart (c : Char) : Bool := c.isAlphanum || c == '_'

/-- A string up to its closing quote. -/
def quoted (quote : Char) : Nat → List Char → Option (List Char × List Char)
  | n + 1, c :: cs =>
    if c == quote then some ([], cs)
    else if c == '\\' then do
      let (c, cs) ← match cs with
        | '\x27' :: cs => some ('\x27', cs)
        | cs => Json.Reader.escape cs
      let (s, cs) ← quoted quote n cs
      some (c :: s, cs)
    else (quoted quote n cs).map fun (s, cs) => (c :: s, cs)
  | _, _ => none

def doubleMarks : List String := ["==", "!=", "<=", ">=", "//", "**"]

def singleMarks : List Char :=
  ['+', '-', '*', '/', '%', '~', '.', ',', ':', '|', '=', '<', '>', '(', ')', '[', ']', open_, close]

def mark : List Char → Option (Token × List Char)
  | a :: b :: cs =>
    if doubleMarks.contains (String.ofList [a, b]) then some (.mark (String.ofList [a, b]), cs)
    else if singleMarks.contains a then some (.mark (String.ofList [a]), b :: cs)
    else none
  | [a] => if singleMarks.contains a then some (.mark (String.ofList [a]), []) else none
  | [] => none

def token (cs : List Char) : Option (Token × List Char) :=
  match cs with
  | [] => none
  | c :: rest =>
    if isWordStart c then
      some (.word (String.ofList (cs.takeWhile isWordPart)), cs.dropWhile isWordPart)
    else if c.isDigit then
      let (ds, cs) := Json.Reader.digits cs
      some (.int (Json.Numeral.ofDigits ds), cs)
    else if c == '"' || c == '\x27' then
      (quoted c (rest.length + 1) rest).map fun (s, cs) => (.str (String.ofList s), cs)
    else mark cs

/-- Blanks between the pieces of a tag; those outside of ASCII are none. -/
def isSpace (c : Char) : Bool := Json.Reader.isSpace c || c == '\x0c'

/-- The inside of a tag up to its closing bracket, and whether the text after it is trimmed. -/
def inside (last : Char) : Nat → List Char → Option (List Token × Bool × List Char)
  | 0, _ => none
  | n + 1, cs =>
    let cs := cs.dropWhile isSpace
    match cs with
    | a :: b :: rest =>
      if a == last && b == close then some ([], false, rest)
      else if a == '-' && b == last && rest.head? == some close then some ([], true, rest.tail)
      else more n cs
    | cs => more n cs
where
  more (n : Nat) (cs : List Char) : Option (List Token × Bool × List Char) := do
    let (t, cs) ← token cs
    let (ts, trim, cs) ← inside last n cs
    some (t :: ts, trim, cs)

/-- The text before the next bracket, the kind of the bracket, and what follows. -/
def untilBracket : List Char → List Char × Option Char × List Char
  | [] => ([], none, [])
  | [c] => ([c], none, [])
  | a :: b :: cs =>
    if a == open_ && (b == open_ || b == '%' || b == '#') then ([], some b, cs)
    else
      let (text, kind, rest) := untilBracket (b :: cs)
      (a :: text, kind, rest)

/-- Takes a hyphen off the front; it asks for the text before to be trimmed. -/
def hyphen : List Char → Bool × List Char
  | '-' :: cs => (true, cs)
  | cs => (false, cs)

/-- Skips a comment. -/
def comment : List Char → Option (Bool × List Char)
  | '-' :: '#' :: c :: cs => if c == close then some (true, cs) else comment ('#' :: c :: cs)
  | '#' :: c :: cs => if c == close then some (false, cs) else comment (c :: cs)
  | _ :: cs => comment cs
  | [] => none

/-- The text of a raw block, whether to trim after the block, and what follows. -/
def raw : Nat → List Char → Option (List Char × Bool × List Char)
  | 0, _ => none
  | n + 1, cs => do
    let (text, kind, rest) := untilBracket cs
    let kind ← kind
    let (trimBefore, inner) := hyphen rest
    match if kind == '%' then inside '%' (inner.length + 1) inner else none with
    | some ([.word "endraw"], trimAfter, rest) =>
      some (if trimBefore then Text.trimEnd text else text, trimAfter, rest)
    | _ => do
      let (more, trimAfter, rest) ← raw n rest
      some (text ++ [open_, kind] ++ more, trimAfter, rest)

def textOf (trimStart trimEnd : Bool) (cs : List Char) : List Segment :=
  let cs := if trimStart then Text.trimStart cs else cs
  let cs := if trimEnd then Text.trimEnd cs else cs
  if cs.isEmpty then [] else [.text (String.ofList cs)]

/-- The pieces of a source; each round consumes at least a bracket. -/
def pieces : Nat → Bool → List Char → Option (List Segment)
  | 0, _, _ => none
  | n + 1, trim, cs =>
    match untilBracket cs with
    | (text, none, _) => some (textOf trim false text)
    | (text, some kind, rest) => do
      let (trimBefore, rest) := hyphen rest
      let before := textOf trim trimBefore text
      if kind == '#' then
        let (trim, rest) ← comment rest
        return before ++ (← pieces n trim rest)
      else if kind == '%' then
        let (ts, trim, rest) ← inside '%' (rest.length + 1) rest
        if ts == [.word "raw"] then
          let (text, trimAfter, rest) ← raw (rest.length + 1) rest
          return before ++ textOf trim false text ++ (← pieces n trimAfter rest)
        else
          return before ++ [.tag ts] ++ (← pieces n trim rest)
      else
        let (ts, trim, rest) ← inside close (rest.length + 1) rest
        return before ++ [.output ts] ++ (← pieces n trim rest)

def dropLineEnd (cs : List Char) : List Char :=
  let cs := if cs.getLast? == some '\n' then cs.dropLast else cs
  if cs.getLast? == some '\r' then cs.dropLast else cs

end Lexer

def segments? (source : String) : Option (List Segment) :=
  let cs := Lexer.dropLineEnd source.toList
  Lexer.pieces (cs.length + 1) false cs

end ChatInference.Template
