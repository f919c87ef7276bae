import ChatInference.Config.Limits
import ChatInference.Json.Reader
import ChatInference.Model.Config

/-!
A document laid over a model's parameters. The entries of each section are read first, all of
them; then every entry that is there replaces its field, and the automatic windows are resolved. A
refused document changes nothing.
-/

namespace ChatInference

inductive ConfigError where
  | notJson
  | malformed (part : String)
  /-- A window below `-1`. -/
  | belowSentinel (key : String) (value : Int)
  | noSequenceBreakers
  deriving DecidableEq, Inhabited

namespace ConfigError

def name : ConfigError → String
  | notJson => "Json"
  | malformed _ => "Section"
  | belowSentinel _ _ => "BelowSentinel"
  | noSequenceBreakers => "EmptySequenceBreakers"

def message : ConfigError → String
  | notJson => "config is not valid JSON"
  | malformed part => s!"malformed section: {part}"
  | belowSentinel key value => s!"{key} must be >= -1 (got {value})"
  | noSequenceBreakers => "dry_sequence_breakers must be a non-empty array of strings"

def toError (e : ConfigError) : Error := .invalidArgument e.message

end ConfigError

namespace ModelConfig

structure GivenParams where
  gpuLayers : Option Int := none
  ctxSize : Option Int := none
  batchSize : Option Int := none
  threads : Option Int := none
  predict : Option Int := none

def paramKeys : List String :=
  ["n_gpu_layers", "ctx_size", "n_ctx", "batch_size", "n_batch", "threads", "n_predict",
    "max_tokens"]

/-- Of two spellings of one entry the shorter `n_` form counts, and `max_tokens` counts before
`n_predict`. -/
def GivenParams.read? (v : Json) : Option GivenParams := do
  let es ← v.entries? paramKeys
  let gpuLayers ← es.read "n_gpu_layers" Json.int32?
  let ctxSize ← es.read "ctx_size" Json.int64?
  let nCtx ← es.read "n_ctx" Json.int64?
  let batchSize ← es.read "batch_size" Json.int64?
  let nBatch ← es.read "n_batch" Json.int64?
  let threads ← es.read "threads" Json.int64?
  let nPredict ← es.read "n_predict" Json.int32?
  let maxTokens ← es.read "max_tokens" Json.int32?
  return ⟨gpuLayers, nCtx <|> ctxSize, nBatch <|> batchSize, threads, maxTokens <|> nPredict⟩

def GivenParams.apply (g : GivenParams) (p : ModelParams) : ModelParams :=
  { gpuLayers := g.gpuLayers.getD p.gpuLayers
    ctxSize := match g.ctxSize with
      | some v => Config.natIn 0 (UInt32.size - 1) 2048 (some v)
      | none => p.ctxSize
    batchSize := match g.batchSize with
      | some v => Config.natIn 1 (UInt32.size - 1) 512 (some v)
      | none => p.batchSize
    threads := match g.threads with
      | some v => Config.natIn 1 1024 8 (some v)
      | none => p.threads
    predict := g.predict.getD p.predict }

structure GivenSampling where
  temperature : Option Float32 := none
  topP : Option Float32 := none
  topK : Option Int := none
  minP : Option Float32 := none
  typicalP : Option Float32 := none
  repeatPenalty : Option Float32 := none
  frequencyPenalty : Option Float32 := none
  presencePenalty : Option Float32 := none
  penaltyLastN : Option Int := none
  dryMultiplier : Option Float32 := none
  dryBase : Option Float32 := none
  dryAllowedLength : Option Int := none
  dryPenaltyLastN : Option Int := none
  dryBreakers : Option (List String) := none
  dynatempRange : Option Float32 := none
  dynatempExponent : Option Float32 := none
  mirostat : Option Int := none
  mirostatTau : Option Float32 := none
  mirostatEta : Option Float32 := none
  seed : Option Nat := none
  probs : Option Int := none
  minKeep : Option Int := none
  grammar : Option String := none
  grammarLazy : Option Bool := none

def flatKeys : List String := ["temp", "temperature", "top_p", "repeat_penalty"]

/-- The sampling entries that may also stand outside their section. -/
def GivenSampling.readFlat? (v : Json) : Option GivenSampling := do
  let es ← v.entries? flatKeys
  let temp ← es.read "temp" Json.single?
  let temperature ← es.read "temperature" Json.single?
  let topP ← es.read "top_p" Json.single?
  let repeatPenalty ← es.read "repeat_penalty" Json.single?
  return { temperature := temp <|> temperature, topP, repeatPenalty }

def listOf? (v : Json) : Option (List String) := v.arr?.map Json.texts

/-- The entries of a sampling object with the end-of-sequence switch, which belongs to stopping. -/
def GivenSampling.read? (v : Json) : Option (GivenSampling × Option Bool) := do
  let es ← v.entries? []
  let temp ← es.read "temp" Json.single?
  let temperature ← es.read "temperature" Json.single?
  let topP ← es.read "top_p" Json.single?
  let topK ← es.read "top_k" Json.int32?
  let minP ← es.read "min_p" Json.single?
  let typicalP ← es.read "typical_p" Json.single?
  let penaltyRepeat ← es.read "penalty_repeat" Json.single?
  let repeatPenalty ← es.read "repeat_penalty" Json.single?
  let penaltyFreq ← es.read "penalty_freq" Json.single?
  let frequencyPenalty ← es.read "frequency_penalty" Json.single?
  let penaltyPresent ← es.read "penalty_present" Json.single?
  let presencePenalty ← es.read "presence_penalty" Json.single?
  let penaltyLastN ← es.read "penalty_last_n" Json.int64?
  let repeatLastN ← es.read "repeat_last_n" Json.int64?
  let dryMultiplier ← es.read "dry_multiplier" Json.single?
  let dryBase ← es.read "dry_base" Json.single?
  let dryAllowedLength ← es.read "dry_allowed_length" Json.int32?
  let dryPenaltyLastN ← es.read "dry_penalty_last_n" Json.int64?
  let dryBreakers ← es.read "dry_sequence_breakers" listOf?
  let dynatempRange ← es.read "dynatemp_range" Json.single?
  let dynatempExponent ← es.read "dynatemp_exponent" Json.single?
  let mirostat ← es.read "mirostat" Json.int32?
  let mirostatTau ← es.read "mirostat_tau" Json.single?
  let mirostatEta ← es.read "mirostat_eta" Json.single?
  let seed ← es.read "seed" Json.word32?
  let nProbs ← es.read "n_probs" Json.int32?
  let logprobs ← es.read "logprobs" Json.int32?
  let minKeep ← es.read "min_keep" Json.int32?
  let ignoreEos ← es.read "ignore_eos" Json.bool?
  let grammar ← es.read "grammar" Json.str?
  let grammarLazy ← es.read "grammar_lazy" Json.bool?
  return ({
    temperature := temp <|> temperature
    topP, topK, minP, typicalP
    repeatPenalty := repeatPenalty <|> penaltyRepeat
    frequencyPenalty := frequencyPenalty <|> penaltyFreq
    presencePenalty := presencePenalty <|> penaltyPresent
    penaltyLastN := repeatLastN <|> penaltyLastN
    dryMultiplier, dryBase, dryAllowedLength, dryPenaltyLastN, dryBreakers
    dynatempRange, dynatempExponent, mirostat, mirostatTau, mirostatEta, seed
    probs := logprobs <|> nProbs
    minKeep, grammar, grammarLazy }, ignoreEos)

def checkWindow (key : String) : Option Int → Except ConfigError Unit
  | some v => if v < -1 then .error (.belowSentinel key v) else .ok ()
  | none => .ok ()

/-- The faults of a sampling object beyond the kinds of its entries, in the order they are found. -/
def GivenSampling.check (g : GivenSampling) : Except ConfigError Unit := do
  checkWindow "penalty_last_n" g.penaltyLastN
  checkWindow "dry_penalty_last_n" g.dryPenaltyLastN
  if g.dryBreakers = some [] then throw .noSequenceBreakers

def clipWindow (v : Int) : Int := min v ModelParams.maxWindow

def windowOf (given : Option Int) (current : Int) : Int := (given.map clipWindow).getD current

/-- A given window is automatic exactly when it is `-1`. -/
def autoOf (given : Option Int) (current : Bool) : Bool :=
  match given with
  | some v => v == -1
  | none => current

/-- An empty grammar removes the current one. -/
def grammarOf (given current : Option String) : Option String :=
  match given with
  | some g => if g.isEmpty then none else some g
  | none => current

def GivenSampling.apply (g : GivenSampling) (s : Sampling) : Sampling :=
  { temperature := g.temperature.getD s.temperature
    topP := g.topP.getD s.topP
    topK := g.topK.getD s.topK
    minP := g.minP.getD s.minP
    typicalP := g.typicalP.getD s.typicalP
    repeatPenalty := g.repeatPenalty.getD s.repeatPenalty
    frequencyPenalty := g.frequencyPenalty.getD s.frequencyPenalty
    presencePenalty := g.presencePenalty.getD s.presencePenalty
    penaltyLastN := windowOf g.penaltyLastN s.penaltyLastN
    dryMultiplier := g.dryMultiplier.getD s.dryMultiplier
    dryBase := g.dryBase.getD s.dryBase
    dryAllowedLength := g.dryAllowedLength.getD s.dryAllowedLength
    dryPenaltyLastN := windowOf g.dryPenaltyLastN s.dryPenaltyLastN
    dryBreakers := g.dryBreakers.getD s.dryBreakers
    dynatempRange := g.dynatempRange.getD s.dynatempRange
    dynatempExponent := g.dynatempExponent.getD s.dynatempExponent
    mirostat := g.mirostat.getD s.mirostat
    mirostatTau := g.mirostatTau.getD s.mirostatTau
    mirostatEta := g.mirostatEta.getD s.mirostatEta
    seed := g.seed.getD s.seed
    probs := g.probs.getD s.probs
    minKeep := g.minKeep.getD s.minKeep
    grammar := grammarOf g.grammar s.grammar
    grammarLazy := g.grammarLazy.getD s.grammarLazy
    logitBias := s.logitBias }

def GivenSampling.applyAuto (g : GivenSampling) (a : AutoWindows) : AutoWindows :=
  ⟨autoOf g.penaltyLastN a.penaltyLastN, autoOf g.dryPenaltyLastN a.dryPenaltyLastN⟩

structure GivenStopping where
  stop : Option (List String) := none
  predict : Option Int := none
  ignoreEos : Option Bool := none

def GivenStopping.read? (v : Json) : Option GivenStopping := do
  let es ← v.entries? []
  let stop ← es.read "stop" listOf?
  let predict ← es.read "max_tokens" Json.int32?
  let ignoreEos ← es.read "ignore_eos" Json.bool?
  return ⟨stop, predict, ignoreEos⟩

/-- A bias is a pair of a token and a number; other items are passed over. -/
def biasOf? : Json → Option (Nat × Float32)
  | .arr [token, bias] => do
    let token ← token.word32?
    let bias ← bias.double?
    return (token, bias.toFloat32)
  | _ => none

def biasesOf? (root : Json) : Option (List (Nat × Float32)) :=
  ((root.get? "logit_bias").bind Json.arr?).map (·.filterMap biasOf?)

/-- All entries of a document, by section. -/
structure Given where
  params : GivenParams := {}
  flat : GivenSampling := {}
  sampling : GivenSampling := {}
  samplingIgnoreEos : Option Bool := none
  stopping : GivenStopping := {}
  logitBias : Option (List (Nat × Float32)) := none

def orMalformed {α : Type} (part : String) : Option α → Except ConfigError α
  | some x => .ok x
  | none => .error (.malformed part)

/-- Sections are read in a fixed order, so the first fault in that order is the one reported. -/
def Given.read (root : Json) : Except ConfigError Given := do
  let params ← orMalformed "model" (GivenParams.read? (root.sectionOf "model"))
  let flat ← orMalformed "sampling" (GivenSampling.readFlat? root)
  let (sampling, samplingIgnoreEos) ← match root.nested? "sampling" with
    | some v => orMalformed "sampling" (GivenSampling.read? v)
    | none => pure ({}, none)
  sampling.check
  let stopping ← match root.nested? "stopping" with
    | some v => orMalformed "stopping" (GivenStopping.read? v)
    | none => pure {}
  return ⟨params, flat, sampling, samplingIgnoreEos, stopping, biasesOf? root⟩

/-- The stopping section counts before the other places of an entry, a nested sampling section
before the flat entries. -/
def Given.apply (g : Given) (c : ModelConfig) : ModelConfig :=
  let model := g.params.apply c.model
  let sampling := g.sampling.apply (g.flat.apply c.sampling)
  resolve
    { model := { model with predict := g.stopping.predict.getD model.predict }
      sampling := { sampling with logitBias := g.logitBias.getD sampling.logitBias }
      stopping :=
        { stop := g.stopping.stop.getD c.stopping.stop
          ignoreEos := (g.stopping.ignoreEos <|> g.samplingIgnoreEos).getD c.stopping.ignoreEos }
      auto := g.sampling.applyAuto c.auto }

/-- A document that is missing or blank leaves the parameters as they are. -/
def merge (base : ModelConfig) (text : Option String) : Except ConfigError ModelConfig :=
  match Text.supplied? text with
  | none => .ok base
  | some cs =>
    match Json.read? cs with
    | none => .error .notJson
    | some root => (Given.read root).map (·.apply base)

/-- The parameters with a document laid over them; a refused one counts as missing. -/
def mergeOrKeep (base : ModelConfig) (text : Option String) : ModelConfig :=
  match merge base text with
  | .ok c => c
  | .error _ => base

end ModelConfig

end ChatInference
