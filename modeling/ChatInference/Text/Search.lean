import ChatInference.Text.Blank

/-! Searching a text for others, and the offsets of what is found. -/

namespace ChatInference.Text

/-- How many characters precede the first occurrence of a text. -/
def find? (pattern : List Char) : List Char → Option Nat
  | [] => if pattern.isEmpty then some 0 else none
  | c :: cs =>
    if pattern.isPrefixOf (c :: cs) then some 0 else (find? pattern cs).map (· + 1)

def contains (pattern cs : List Char) : Bool := (find? pattern cs).isSome

/-- How many characters precede the first occurrence of any of some texts; an empty text is never
found. -/
def findFirst? (patterns : List String) (cs : List Char) : Option Nat :=
  ((patterns.filter (!·.isEmpty)).filterMap fun p => find? p.toList cs).min?

/-- The length of a text in bytes. -/
def byteLength (cs : List Char) : Nat := cs.foldr (fun c n => c.utf8Size + n) 0

/-- The byte offset of the first occurrence of any of some texts. -/
def findFirstByte? (patterns : List String) (text : String) : Option Nat :=
  (findFirst? patterns text.toList).map fun n => byteLength (text.toList.take n)

/-- The first word of a text. -/
def firstWord? (text : String) : Option String :=
  match (trimStart text.toList).takeWhile (!isBlank ·) with
  | [] => none
  | word => some (String.ofList word)

end ChatInference.Text
