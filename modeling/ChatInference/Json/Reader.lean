import ChatInference.Json.Numeral
import ChatInference.Text.Blank

/-!
The reader of JSON documents: strict syntax, at most 127 levels of nesting, and the last of two
members with one key.
-/

namespace ChatInference.Json

namespace Reader

def isSpace (c : Char) : Bool := c == ' ' || c == '\n' || c == '\t' || c == '\r'

def skip (cs : List Char) : List Char := cs.dropWhile isSpace

/-- The characters after an expected word. -/
def expect : List Char → List Char → Option (List Char)
  | [], cs => some cs
  | w :: ws, c :: cs => if w == c then expect ws cs else none
  | _ :: _, [] => none

def digit (c : Char) : Nat := c.toNat - '0'.toNat

/-- The digits a text starts with, and the rest. -/
def digits (cs : List Char) : List Nat × List Char :=
  ((cs.takeWhile Char.isDigit).map digit, cs.dropWhile Char.isDigit)

def digits1 (cs : List Char) : Option (List Nat × List Char) :=
  match digits cs with
  | ([], _) => none
  | r => some r

def fraction : List Char → Option (List Nat × List Char)
  | '.' :: cs => digits1 cs
  | cs => some ([], cs)

def exponentSign : List Char → Bool × List Char
  | '-' :: cs => (true, cs)
  | '+' :: cs => (false, cs)
  | cs => (false, cs)

def exponent : List Char → Option (Option (Bool × List Nat) × List Char)
  | 'e' :: cs | 'E' :: cs => do
    let (down, cs) := exponentSign cs
    let (ds, cs) ← digits1 cs
    some (some (down, ds), cs)
  | cs => some (none, cs)

/-- A whole part starts with zero only if it is zero. -/
def whole (cs : List Char) : Option (List Nat × List Char) := do
  let (ds, cs) ← digits1 cs
  if ds.head? == some 0 && ds.length != 1 then none else some (ds, cs)

def numeral (cs : List Char) : Option (Numeral × List Char) := do
  let (negative, cs) := match cs with
    | '-' :: cs => (true, cs)
    | cs => (false, cs)
  let (whole, cs) ← whole cs
  let (fraction, cs) ← fraction cs
  let (exponent, cs) ← exponent cs
  some (⟨negative, whole, fraction, exponent⟩, cs)

def hexDigit? (c : Char) : Option Nat :=
  if '0' ≤ c ∧ c ≤ '9' then some (c.toNat - '0'.toNat)
  else if 'a' ≤ c ∧ c ≤ 'f' then some (c.toNat - 'a'.toNat + 10)
  else if 'A' ≤ c ∧ c ≤ 'F' then some (c.toNat - 'A'.toNat + 10)
  else none

def hex4 : List Char → Option (Nat × List Char)
  | a :: b :: c :: d :: cs => do
    let a ← hexDigit? a
    let b ← hexDigit? b
    let c ← hexDigit? c
    let d ← hexDigit? d
    some (((a * 16 + b) * 16 + c) * 16 + d, cs)
  | _ => none

def isHighSurrogate (n : Nat) : Bool := 0xD800 ≤ n && n < 0xDC00

def isLowSurrogate (n : Nat) : Bool := 0xDC00 ≤ n && n < 0xE000

/-- The character of a `\u` escape; a surrogate counts only as a pair. -/
def unicodeEscape (cs : List Char) : Option (Char × List Char) := do
  let (n, cs) ← hex4 cs
  if isHighSurrogate n then
    let cs ← expect ['\\', 'u'] cs
    let (m, cs) ← hex4 cs
    if isLowSurrogate m then
      some (Char.ofNat (0x10000 + (n - 0xD800) * 0x400 + (m - 0xDC00)), cs)
    else none
  else if isLowSurrogate n then none
  else some (Char.ofNat n, cs)

def escape : List Char → Option (Char × List Char)
  | '"' :: cs => some ('"', cs)
  | '\\' :: cs => some ('\\', cs)
  | '/' :: cs => some ('/', cs)
  | 'b' :: cs => some ('\x08', cs)
  | 'f' :: cs => some ('\x0c', cs)
  | 'n' :: cs => some ('\n', cs)
  | 'r' :: cs => some ('\r', cs)
  | 't' :: cs => some ('\t', cs)
  | 'u' :: cs => unicodeEscape cs
  | _ => none

/-- The rest of a string after its opening quote; each round reads at least one character. -/
def stringBody : Nat → List Char → Option (List Char × List Char)
  | 0, _ => none
  | _ + 1, [] => none
  | _ + 1, '"' :: cs => some ([], cs)
  | n + 1, '\\' :: cs => do
    let (c, cs) ← escape cs
    let (body, cs) ← stringBody n cs
    some (c :: body, cs)
  | n + 1, c :: cs =>
    if c.toNat < 0x20 then none
    else do
      let (body, cs) ← stringBody n cs
      some (c :: body, cs)

/-- A string after its opening quote. -/
def text (cs : List Char) : Option (String × List Char) := do
  let (body, cs) ← stringBody (cs.length + 1) cs
  some (String.ofList body, cs)

/-- Items up to the closing character, at least one, separated by commas. -/
def separated {α : Type} (item : List Char → Option (α × List Char)) (close : Char) :
    Nat → List Char → Option (List α × List Char)
  | 0, _ => none
  | n + 1, cs => do
    let (x, cs) ← item cs
    match skip cs with
    | c :: cs =>
      if c == close then some ([x], cs)
      else if c == ',' then do
        let (xs, cs) ← separated item close n cs
        some (x :: xs, cs)
      else none
    | [] => none

/-- What stands between an opening and a closing bracket. -/
def enclosed {α : Type} (item : List Char → Option (α × List Char)) (close : Char)
    (cs : List Char) : Option (List α × List Char) :=
  match skip cs with
  | c :: rest => if c == close then some ([], rest) else separated item close (cs.length + 1) cs
  | [] => none

def member (value : List Char → Option (Json × List Char)) (cs : List Char) :
    Option ((String × Json) × List Char) := do
  let cs ← expect ['"'] (skip cs)
  let (key, cs) ← text cs
  let cs ← expect [':'] (skip cs)
  let (v, cs) ← value cs
  some ((key, v), cs)

def scalar (cs : List Char) : Option (Json × List Char) :=
  match cs with
  | 'n' :: cs => (expect "ull".toList cs).map (null, ·)
  | 't' :: cs => (expect "rue".toList cs).map (bool true, ·)
  | 'f' :: cs => (expect "alse".toList cs).map (bool false, ·)
  | '"' :: cs => (text cs).map fun (s, cs) => (str s, cs)
  | cs => do
    let (n, cs) ← numeral cs
    let v ← n.value?
    some (v, cs)

/-- A value that holds at most `depth` levels of brackets. -/
def value : Nat → List Char → Option (Json × List Char)
  | 0, cs => scalar (skip cs)
  | depth + 1, cs =>
    match skip cs with
    | '[' :: cs => (enclosed (value depth) ']' cs).map fun (items, cs) => (arr items, cs)
    | '\x7b' :: cs => (enclosed (member (value depth)) '\x7d' cs).map fun (members, cs) =>
      (obj (members.foldl (fun ms m => insertMember ms m.1 m.2) []), cs)
    | cs => scalar cs

/-- A document may nest this deep. -/
def maxDepth : Nat := 127

end Reader

/-- Reads a document that is one value and nothing else. -/
def read? (cs : List Char) : Option Json := do
  let (v, cs) ← Reader.value Reader.maxDepth cs
  if (Reader.skip cs).isEmpty then some v else none

end ChatInference.Json
