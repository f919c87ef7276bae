import ChatInference.Cache.Staging
import ChatInference.Config.Performance
import ChatInference.Decode.Draw
import ChatInference.Engine.Basic
import ChatInference.Engine.ModelFile
import ChatInference.Prompt.Chat
import ChatInference.Prompt.SpecialTokens

/-!
The engine that runs model files. Attention caches cannot be edited by position, so the cache keeps
tokens alone, and each turn feeds all tokens of its sequence from the first position on.
-/

namespace ChatInference

structure LoadedModel where
  file : ModelFile
  tokenizer : Tokenizer
  special : SpecialTokens
  template : ChatTemplate
  deriving Inhabited

/-- What turns are made with: the length of the context and of the first pass over a prompt. -/
structure Slots where
  nCtx : Nat
  batch : Nat
  deriving DecidableEq, Inhabited

structure LocalEngine where
  disk : Disk StoredFile := {}
  performance : Performance := {}
  cache : StagingCache := {}
  loaded : Option LoadedModel := none
  slots : Option Slots := none
  /-- Numbers from zero up to one, by seed and by how many tokens a turn chose before. -/
  chance : Nat → Nat → Float32 := fun _ _ => 0.5

namespace LoadedModel

def tokensOf (m : LoadedModel) (messages : List Message) : List Nat :=
  m.tokenizer.encode (m.template.render messages)

def decoder (m : LoadedModel) (s : Sampling) (chance : Nat → Float32) : Decoder Unit Logits where
  feed _ tokens _ := (m.file.feed tokens, ())
  sample n ls history := s.sample ls history (chance n)
  text tokens := .ok (m.tokenizer.decode tokens)
  isTerminal := m.special.isTerminal

end LoadedModel

namespace LocalEngine

def failed (path detail : String) : EngineError := .modelLoad (path ++ ": " ++ detail)

/-- Reads a model file that can be run. -/
def readModel (e : LocalEngine) (path : String) : Except EngineError ModelFile :=
  match e.disk.find path with
  | .error f => .error (.modelLoad s!"cannot open {path}: {f.message}")
  | .ok (some ⟨.model file, _⟩) =>
    match file.fault? with
    | some why => .error (failed path why)
    | none => .ok file
  | .ok (some _) => .error (failed path "not a model file")
  | .ok none => .error (failed path "Is a directory (os error 21)")

def readTokenizer (e : LocalEngine) (path : String) : Except EngineError Tokenizer :=
  match tokenizerPath? e.disk.contains path with
  | none => .error (.modelLoad s!"no tokenizer.json found for {path}")
  | some at_ =>
    match e.disk.find at_ with
    | .ok (some ⟨.tokenizer t, _⟩) => .ok t
    | _ => .error (failed at_ "not a tokenizer")

/-- Reads all that a model at a path needs; nothing changes before all of it is there. -/
def read (e : LocalEngine) (path : String) : Except EngineError LoadedModel := do
  let file ← e.readModel path
  let family := PromptFamily.detect file.architecture path
  let tokenizer ← e.readTokenizer path
  let special ← SpecialTokens.resolve tokenizer.idOf? family
  let template :=
    ChatTemplate.create family (file.text? "tokenizer.chat_template") special.bosText special.eosText
  return ⟨file, tokenizer, special, template⟩

def load (e : LocalEngine) (path : String) : Except EngineError ModelDescription × LocalEngine :=
  match e.read path with
  | .error err => (.error err, e)
  | .ok m =>
    (.ok ⟨m.file.description, m.tokenizer.vocab.length, m.file.contextLength⟩,
      { e with loaded := some m, cache := e.cache.clear })

/-- The smaller of the context that is asked for and the one the model states; zero asks for and
states nothing. -/
def contextOf (asked stated : Nat) : Nat :=
  if asked = 0 then stated else if stated = 0 then asked else min asked stated

def start (e : LocalEngine) (c : ModelConfig) : Except EngineError Unit × LocalEngine :=
  match e.loaded with
  | none => (.error .notLoaded, e)
  | some m =>
    let nCtx := contextOf c.model.ctxSize m.file.contextLength
    if nCtx = 0 then
      (.error (.modelLoad "context size unknown: set ctx_size, the model file does not carry one"), e)
    else
      let batch :=
        if e.performance.batchProcessing then max 1 (min c.model.batchSize e.performance.batchSize)
        else 1
      (.ok (), { e with cache := { e.cache with nCtx }, slots := some ⟨nCtx, batch⟩ })

def releaseSlots (e : LocalEngine) : LocalEngine := { e with slots := none }

def unload (e : LocalEngine) : LocalEngine :=
  match e.loaded with
  | some _ => { e with slots := none, loaded := none, cache := e.cache.clear }
  | none => { e with slots := none }

/-- How much of a conversation, of which these are all tokens, a sequence has yet to ingest. -/
def pendingOf (e : LocalEngine) (seq : SeqId) (full : List Nat) : Nat :=
  min (e.cache.unseen seq full.length) (UInt32.size - 1)

def pendingTokens (e : LocalEngine) (seq : SeqId) (messages : List Message) : Nat :=
  match e.loaded with
  | some m => e.pendingOf seq (m.tokensOf messages)
  | none => 0

def limits (slots : Slots) (r : Request) (f : PromptFamily) : TurnLimits :=
  { nCtx := slots.nCtx, batch := slots.batch, maxTokens := r.maxTokens
    stop := r.stop ++ f.stopMarkers, ignoreEos := r.ignoreEos }

/-- A turn on all tokens of its conversation. One that fails takes back what it put into the cache. -/
def complete (e : LocalEngine) (m : LoadedModel) (slots : Slots) (r : Request) (full : List Nat) :
    Except EngineError Generation × LocalEngine :=
  if full.isEmpty then (.error (.tokenization "prompt encodes to zero tokens"), e)
  else
    let ((prompt, staged), cache) := e.cache.stage r.seq full
    let undone : LocalEngine := { e with cache := cache.rollback staged }
    if slots.nCtx ≤ prompt.length then
      (.error (.inference
        s!"prompt of {prompt.length} tokens does not fit a context of {slots.nCtx}"), undone)
    else
      let decoder := m.decoder r.sampling (e.chance r.sampling.seed)
      match (decoder.turn (limits slots r m.template.family) () prompt).1 with
      | .ok r => (.ok (r.generation prompt), { e with cache })
      | .error detail => (.error (.inference detail), undone)

def generate (e : LocalEngine) (r : Request) : Except EngineError Generation × LocalEngine :=
  match e.loaded, e.slots with
  | some m, some slots => e.complete m slots r (m.tokensOf r.messages)
  | _, _ => (.error .notLoaded, e)

end LocalEngine

instance : InferenceEngine LocalEngine where
  nCtx e := e.cache.nCtx
  posMax e seq := KvCache.posMax e.cache seq
  remove e seq p0 p1 := (true, { e with cache := e.cache.remove seq p0 p1 })
  shift e seq p0 p1 delta := { e with cache := e.cache.shift seq p0 p1 delta }
  clear e := { e with cache := e.cache.clear }
  stamp e path := match e.disk.find path with
    | .ok (some file) => some file.stamp
    | _ => none
  load e path _ := e.load path
  start := LocalEngine.start
  releaseSlots := LocalEngine.releaseSlots
  unload := LocalEngine.unload
  isLoaded e := e.loaded.isSome
  pendingTokens := LocalEngine.pendingTokens
  generate := LocalEngine.generate

end ChatInference
