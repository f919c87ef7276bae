import ChatInference.Error

/-!
The parameters of a model: its context, the sampling of tokens and where a reply stops. A penalty
window given as `-1` stays automatic, and an automatic window is as long as the context.
-/

namespace ChatInference

structure ModelParams where
  gpuLayers : Int := 0
  /-- Zero takes the context length that the model file states. -/
  ctxSize : Nat := 2048
  batchSize : Nat := 512
  threads : Nat := 8
  /-- Below one there is no limit on the length of a reply. -/
  predict : Int := 512
  deriving DecidableEq, Inhabited

structure Sampling where
  temperature : Float32 := 0.7
  topP : Float32 := 0.95
  /-- Below one there is no such cut. -/
  topK : Int := -1
  minP : Float32 := 0.0
  typicalP : Float32 := 1.0
  repeatPenalty : Float32 := 1.1
  frequencyPenalty : Float32 := 0.0
  presencePenalty : Float32 := 0.0
  penaltyLastN : Int := -1
  dryMultiplier : Float32 := 0.0
  dryBase : Float32 := 1.75
  dryAllowedLength : Int := 2
  dryPenaltyLastN : Int := -1
  dryBreakers : List String := ["\n", ":", "\"", "*"]
  dynatempRange : Float32 := 0.0
  dynatempExponent : Float32 := 1.0
  mirostat : Int := 0
  mirostatTau : Float32 := 5.0
  mirostatEta : Float32 := 0.1
  /-- The largest word asks for a fresh seed. -/
  seed : Nat := UInt32.size - 1
  probs : Int := 0
  minKeep : Int := 1
  grammar : Option String := none
  grammarLazy : Bool := false
  logitBias : List (Nat × Float32) := []
  deriving BEq, Inhabited

structure Stopping where
  stop : List String := []
  ignoreEos : Bool := false
  deriving DecidableEq, Inhabited

/-- Which penalty windows follow the context. -/
structure AutoWindows where
  penaltyLastN : Bool := true
  dryPenaltyLastN : Bool := true
  deriving DecidableEq, Inhabited

structure ModelConfig where
  model : ModelParams
  sampling : Sampling
  stopping : Stopping
  auto : AutoWindows
  deriving BEq

namespace ModelParams

def maxWindow : Nat := 0x7fffffff

/-- The length of an automatic window: `-1`, the whole history, while the context is unknown. -/
def window (p : ModelParams) : Int :=
  if p.ctxSize = 0 then -1 else (min p.ctxSize maxWindow : Nat)

end ModelParams

namespace ModelConfig

def defaultDryBase : Float32 := 1.75

/-- Gives automatic windows their length and repairs a base of repetition below one. -/
def resolve (c : ModelConfig) : ModelConfig :=
  { c with sampling := { c.sampling with
      penaltyLastN := if c.auto.penaltyLastN then c.model.window else c.sampling.penaltyLastN
      dryPenaltyLastN :=
        if c.auto.dryPenaltyLastN then c.model.window else c.sampling.dryPenaltyLastN
      dryBase := if c.sampling.dryBase < 1.0 then defaultDryBase else c.sampling.dryBase } }

def initial : ModelConfig := resolve ⟨{}, {}, {}, {}⟩

instance : Inhabited ModelConfig := ⟨initial⟩

end ModelConfig

end ChatInference
