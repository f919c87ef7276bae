import ChatInference.Json.Writer
import ChatInference.Text.Search

/-!
One turn of a model: the prompt is fed to it, then tokens are sampled and fed back until the reply
ends. The model, the choice of tokens and their text are given, and any of them may fail.
-/

namespace ChatInference

/-- Why a reply ended. -/
inductive StopReason where
  | endOfSequence
  | stopSequence
  | maxTokens
  | contextFull
  deriving DecidableEq, Inhabited

def StopReason.name : StopReason → String
  | endOfSequence => "end_of_sequence"
  | stopSequence => "stop_sequence"
  | maxTokens => "max_tokens"
  | contextFull => "context_full"

/-- A reply with the tokens it was made of. -/
structure Reply where
  text : String
  tokens : List Nat
  stopReason : StopReason
  deriving DecidableEq, Inhabited

structure Generation where
  text : String
  promptTokens : Nat
  generatedTokens : Nat
  stopReason : StopReason
  deriving DecidableEq, Inhabited

/-- What is told of a reply to a prompt. -/
def Reply.generation (r : Reply) (prompt : List Nat) : Generation :=
  ⟨r.text, prompt.length, r.tokens.length, r.stopReason⟩

def Generation.toJson (g : Generation) : Json :=
  .obj [("text", .str g.text), ("prompt_tokens", .nat g.promptTokens),
    ("generated_tokens", .nat g.generatedTokens), ("stop_reason", .str g.stopReason.name)]

/-- What a turn is made with: `α` is what the model says of the next token, `μ` what it remembers. -/
structure Decoder (μ α : Type) where
  /-- Feeds tokens at consecutive positions. -/
  feed : μ → List Nat → Nat → Except String α × μ
  /-- Chooses the token after a history, for the given number of tokens chosen before. -/
  sample : Nat → α → List Nat → Except String Nat
  text : List Nat → Except String String
  /-- Whether a token ends the reply. -/
  isTerminal : Nat → Bool

structure TurnLimits where
  nCtx : Nat
  /-- How many tokens of the prompt are fed in the first pass. -/
  batch : Nat
  /-- Below one there is no limit. -/
  maxTokens : Int
  stop : List String
  ignoreEos : Bool
  deriving DecidableEq, Inhabited

namespace Decoder

variable {μ α : Type}

/-- Feeds tokens one at a time. -/
def feedEach (d : Decoder μ α) (m : μ) (scores : α) (pos : Nat) : List Nat → Except String α × μ
  | [] => (.ok scores, m)
  | t :: ts =>
    match d.feed m [t] pos with
    | (.ok scores, m) => feedEach d m scores (pos + 1) ts
    | (.error e, m) => (.error e, m)

/-- Feeds a prompt: its head in one pass, the rest one token at a time. -/
def prefill (d : Decoder μ α) (m : μ) (batch : Nat) (prompt : List Nat) : Except String α × μ :=
  let head := max 1 (min batch prompt.length)
  match d.feed m (prompt.take head) 0 with
  | (.ok scores, m) => d.feedEach m scores head (prompt.drop head)
  | (.error e, m) => (.error e, m)

/-- What becomes of a reply with one more token. -/
inductive Step where
  | ended (reply : Reply)
  | goesOn (text : String) (tokens : List Nat) (next : Nat)

/-- Chooses one token. A terminal one is no part of the reply, and a stop text cuts the reply. -/
def step (d : Decoder μ α) (l : TurnLimits) (prompt : List Nat) (scores : α) (text : String)
    (tokens : List Nat) : Except String Step := do
  let next ← d.sample tokens.length scores (prompt ++ tokens)
  if !l.ignoreEos && d.isTerminal next then return .ended ⟨text, tokens, .endOfSequence⟩
  let tokens := tokens ++ [next]
  let text ← d.text tokens
  match Text.findFirst? l.stop text.toList with
  | some n => return .ended ⟨String.ofList (text.toList.take n), tokens, .stopSequence⟩
  | none =>
    if 0 < l.maxTokens ∧ l.maxTokens ≤ tokens.length then
      return .ended ⟨text, tokens, .maxTokens⟩
    else return .goesOn text tokens next

/-- Chooses tokens and feeds them back, with room for so many more in the context. -/
def reply (d : Decoder μ α) (l : TurnLimits) (prompt : List Nat) :
    Nat → μ → α → String → List Nat → Except String Reply × μ
  | room, m, scores, text, tokens =>
    match d.step l prompt scores text tokens with
    | .error e => (.error e, m)
    | .ok (.ended r) => (.ok r, m)
    | .ok (.goesOn text tokens next) =>
      match room with
      | 0 => (.ok ⟨text, tokens, .contextFull⟩, m)
      | room + 1 =>
        match d.feed m [next] (prompt.length + tokens.length - 1) with
        | (.ok scores, m) => reply d l prompt room m scores text tokens
        | (.error e, m) => (.error e, m)

def turn (d : Decoder μ α) (l : TurnLimits) (m : μ) (prompt : List Nat) :
    Except String Reply × μ :=
  match d.prefill m l.batch prompt with
  | (.ok scores, m) => d.reply l prompt (l.nCtx - 1 - prompt.length) m scores "" []
  | (.error e, m) => (.error e, m)

end Decoder

end ChatInference
