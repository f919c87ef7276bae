import ChatInference.Text.Search

/-!
Texts as tokens of a vocabulary. Special words are found first, whole and from the left; every other
character is a word of its own. Reading tokens back leaves the special words out.
-/

namespace ChatInference

structure Tokenizer where
  /-- The words by their ids. -/
  vocab : List String
  special : List String
  deriving DecidableEq, Inhabited

namespace Tokenizer

/-- The id of what is no word. -/
def unknownId : Nat := 0

def idOf? (t : Tokenizer) (word : String) : Option Nat := t.vocab.idxOf? word

def id (t : Tokenizer) (word : String) : Nat := (t.idOf? word).getD unknownId

/-- The longest special word at the start of a text. -/
def specialAt? (t : Tokenizer) (cs : List Char) : Option String :=
  (t.special.filter fun w => !w.isEmpty && w.toList.isPrefixOf cs).foldl
    (fun best w => match best with
      | some b => if b.length < w.length then some w else some b
      | none => some w) none

/-- The tokens of a text whose first characters, so many, belong to a token before. -/
def encodeAfter (t : Tokenizer) : Nat → List Char → List Nat
  | _, [] => []
  | n + 1, _ :: cs => encodeAfter t n cs
  | 0, c :: cs =>
    match t.specialAt? (c :: cs) with
    | some w => t.id w :: encodeAfter t (w.length - 1) cs
    | none => t.id (String.ofList [c]) :: encodeAfter t 0 cs

def encode (t : Tokenizer) (text : String) : List Nat := t.encodeAfter 0 text.toList

def decode (t : Tokenizer) (tokens : List Nat) : String :=
  String.join ((tokens.filterMap (t.vocab[·]?)).filter fun w => !t.special.contains w)

end Tokenizer

end ChatInference
