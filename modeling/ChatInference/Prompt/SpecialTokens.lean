import ChatInference.Error
import ChatInference.Prompt.Family

/-! The tokens that mark the ends of replies and turns, found in a vocabulary by their words. -/

namespace ChatInference

structure SpecialTokens where
  eos : Nat
  /-- The end of a turn; it is `eos` in a family without a mark of its own. -/
  eot : Nat
  bosText : String
  eosText : String
  deriving DecidableEq, Inhabited

namespace SpecialTokens

/-- Whether a token ends a reply. -/
def isTerminal (s : SpecialTokens) (token : Nat) : Bool := token == s.eos || token == s.eot

/-- The first of some words that the vocabulary has, with its id. -/
def first? (idOf : String → Option Nat) (words : List String) : Option (Nat × String) :=
  words.findSome? fun w => (idOf w).map (·, w)

def require (idOf : String → Option Nat) (f : PromptFamily) (words : List String) :
    Except EngineError (Nat × String) :=
  match first? idOf words with
  | some found => .ok found
  | none => .error (.modelLoad
      (s!"tokenizer/model incompatibility: {f.title} needs one of " ++ ", ".intercalate words))

/-- The text of the first of some words that the vocabulary has, or none. -/
def textOf (idOf : String → Option Nat) (words : List String) : String :=
  ((first? idOf words).map (·.2)).getD ""

/-- The token that ends a reply where a vocabulary has none of the usual words. -/
def usualEos : Nat := 2

def resolve (idOf : String → Option Nat) (f : PromptFamily) : Except EngineError SpecialTokens :=
  match f with
  | .llama => do
    let (eos, eosText) ← require idOf f ["<|end_of_text|>", "</s>"]
    let (eot, _) ← require idOf f ["<|eot_id|>"]
    let _ ← require idOf f ["<|start_header_id|>"]
    let _ ← require idOf f ["<|end_header_id|>"]
    return ⟨eos, eot, textOf idOf ["<|begin_of_text|>", "<s>"], eosText⟩
  | .qwen => do
    let (eos, eosText) ← require idOf f ["<|endoftext|>", "</s>"]
    let (eot, _) ← require idOf f ["<|im_end|>"]
    let _ ← require idOf f ["<|im_start|>"]
    return ⟨eos, eot, "", eosText⟩
  | .mistral => do
    let (eos, eosText) ← require idOf f ["</s>", "<|end_of_text|>"]
    return ⟨eos, eos, textOf idOf ["<s>"], eosText⟩
  | .unknown =>
    let eosText := textOf idOf ["<|end_of_text|>", "</s>", "<|endoftext|>"]
    let eos := (idOf eosText).getD usualEos
    return ⟨eos, eos, textOf idOf ["<|begin_of_text|>", "<s>"], eosText⟩

end SpecialTokens

/-- Where the tokenizer of a model may lie: beside the model under its name, beside it, in the
working directory, and in the directory of models. -/
def tokenizerCandidates (model : String) : List String :=
  let dir := (Path.parent? model).getD "."
  ((Path.fileStem? model).toList.map fun stem => Path.join dir (stem ++ ".tokenizer.json")) ++
    [Path.join dir "tokenizer.json", "tokenizer.json", "models/tokenizer.json"]

def tokenizerPath? (isThere : String → Bool) (model : String) : Option String :=
  (tokenizerCandidates model).find? isThere

end ChatInference
