import ChatInference.Cache.KvCache
import ChatInference.Decode.Turn
import ChatInference.Error
import ChatInference.Message
import ChatInference.Model.Config
import ChatInference.Model.Description

/-! What the service asks of an engine: a cache, the life of one model, and turns. -/

namespace ChatInference

/-- One turn of a conversation, as the engine is asked for it. -/
structure Request where
  seq : SeqId
  messages : List Message
  sampling : Sampling
  /-- Below one there is no limit. -/
  maxTokens : Int
  stop : List String
  ignoreEos : Bool
  deriving Inhabited

class InferenceEngine (σ : Type) extends KvCache σ where
  /-- The size and time of the file at a path, if one is there. -/
  stamp : σ → String → Option FileStamp
  load : σ → String → ModelConfig → Except EngineError ModelDescription × σ
  /-- Makes the loaded model ready for turns. -/
  start : σ → ModelConfig → Except EngineError Unit × σ
  /-- Frees what `start` made. -/
  releaseSlots : σ → σ
  /-- Drops the model; without one it does nothing. -/
  unload : σ → σ
  isLoaded : σ → Bool
  /-- How many tokens a sequence still has to take in for a conversation. -/
  pendingTokens : σ → SeqId → List Message → Nat
  generate : σ → Request → Except EngineError Generation × σ

end ChatInference
