import ChatInference.Json.Basic
import ChatInference.Json.Shortest

/-! The text of a JSON value, without any white space. -/

namespace ChatInference.Json

def hexDigit (n : Nat) : Char := Nat.digitChar n

/-- A character of a string: quotes, backslashes and control characters are escaped. -/
def escaped (c : Char) : List Char :=
  match c with
  | '"' => ['\\', '"']
  | '\\' => ['\\', '\\']
  | '\n' => ['\\', 'n']
  | '\r' => ['\\', 'r']
  | '\t' => ['\\', 't']
  | '\x08' => ['\\', 'b']
  | '\x0c' => ['\\', 'f']
  | c =>
    if c.toNat < 32 then ['\\', 'u', '0', '0', hexDigit (c.toNat / 16), hexDigit (c.toNat % 16)]
    else [c]

def quoted (s : String) : String := "\"" ++ String.ofList (s.toList.flatMap escaped) ++ "\""

mutual

/-- A number that is not finite is written as null. -/
def text : Json → String
  | null => "null"
  | bool b => if b then "true" else "false"
  | int n => toString n
  | float x => if x.isFinite then Shortest.text x else "null"
  | str s => quoted s
  | arr items => "[" ++ ",".intercalate (itemTexts items) ++ "]"
  | obj members => "\x7b" ++ ",".intercalate (memberTexts members) ++ "\x7d"

def itemTexts : List Json → List String
  | [] => []
  | v :: vs => text v :: itemTexts vs

def memberTexts : List (String × Json) → List String
  | [] => []
  | (k, v) :: ms => (quoted k ++ ":" ++ text v) :: memberTexts ms

end

end ChatInference.Json
