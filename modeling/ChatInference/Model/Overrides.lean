import ChatInference.Json.Reader
import ChatInference.Model.Merge
import ChatInference.Queue.Priority

/-!
Overrides for a single turn. Each entry of the document is tried on its own first, and one of the wrong
kind is left out; the others are read together. A negative number leaves its parameter as it is.
-/

namespace ChatInference

structure Overrides where
  temperature : Option Float32 := none
  temp : Option Float32 := none
  topP : Option Float32 := none
  topK : Option Int := none
  minP : Option Float32 := none
  typicalP : Option Float32 := none
  repeatPenalty : Option Float32 := none
  frequencyPenalty : Option Float32 := none
  presencePenalty : Option Float32 := none
  penaltyLastN : Option Int := none
  repeatLastN : Option Int := none
  seed : Option Int := none
  maxTokens : Option Int := none
  predict : Option Int := none
  ignoreEos : Option Bool := none
  stop : Option (List String) := none
  grammar : Option String := none
  probs : Option Int := none
  logprobs : Option Int := none
  minKeep : Option Int := none
  dryMultiplier : Option Float32 := none
  dryBase : Option Float32 := none
  dryAllowedLength : Option Int := none
  dryPenaltyLastN : Option Int := none
  dynatempRange : Option Float32 := none
  dynatempExponent : Option Float32 := none
  mirostat : Option Int := none
  mirostatTau : Option Float32 := none
  mirostatEta : Option Float32 := none
  priority : Option Priority := none
  deriving BEq, Inhabited

namespace Overrides

/-- A share of probability above zero is brought between 0.01 and 1. -/
def repairTopP (p : Float32) : Float32 :=
  if 0.0 < p then (if p < 0.01 then 0.01 else if 1.0 < p then 1.0 else p) else p

/-- A penalty above zero is at least 0.1. -/
def repairRepeatPenalty (r : Float32) : Float32 :=
  if 0.0 < r && r < 0.1 then 0.1 else r

/-- The keys, in the order of the entries. -/
def keys : List String :=
  ["temperature", "temp", "top_p", "top_k", "min_p", "typical_p", "repeat_penalty",
    "frequency_penalty", "presence_penalty", "penalty_last_n", "repeat_last_n", "seed",
    "max_tokens", "n_predict", "ignore_eos", "stop", "grammar", "n_probs", "logprobs", "min_keep",
    "dry_multiplier", "dry_base", "dry_allowed_length", "dry_penalty_last_n", "dynatemp_range",
    "dynatemp_exponent", "mirostat", "mirostat_tau", "mirostat_eta", "priority"]

/-- All entries of a record; one of the wrong kind refuses the record. -/
def read? (v : Json) : Option Overrides := do
  let es ← v.entries? keys
  return {
    temperature := ← es.read "temperature" Json.single?
    temp := ← es.read "temp" Json.single?
    topP := ← es.read "top_p" Json.single?
    topK := ← es.read "top_k" Json.int32?
    minP := ← es.read "min_p" Json.single?
    typicalP := ← es.read "typical_p" Json.single?
    repeatPenalty := ← es.read "repeat_penalty" Json.single?
    frequencyPenalty := ← es.read "frequency_penalty" Json.single?
    presencePenalty := ← es.read "presence_penalty" Json.single?
    penaltyLastN := ← es.read "penalty_last_n" Json.int32?
    repeatLastN := ← es.read "repeat_last_n" Json.int32?
    seed := ← es.read "seed" Json.int64?
    maxTokens := ← es.read "max_tokens" Json.int32?
    predict := ← es.read "n_predict" Json.int32?
    ignoreEos := ← es.read "ignore_eos" Json.bool?
    stop := ← es.read "stop" ModelConfig.listOf?
    grammar := ← es.read "grammar" Json.str?
    probs := ← es.read "n_probs" Json.int32?
    logprobs := ← es.read "logprobs" Json.int32?
    minKeep := ← es.read "min_keep" Json.int32?
    dryMultiplier := ← es.read "dry_multiplier" Json.single?
    dryBase := ← es.read "dry_base" Json.single?
    dryAllowedLength := ← es.read "dry_allowed_length" Json.int32?
    dryPenaltyLastN := ← es.read "dry_penalty_last_n" Json.int32?
    dynatempRange := ← es.read "dynatemp_range" Json.single?
    dynatempExponent := ← es.read "dynatemp_exponent" Json.single?
    mirostat := ← es.read "mirostat" Json.int32?
    mirostatTau := ← es.read "mirostat_tau" Json.single?
    mirostatEta := ← es.read "mirostat_eta" Json.single?
    priority := ← es.read "priority" Priority.ofJson? }

/-- Values out of their range are brought back into it. -/
def repaired (o : Overrides) : Overrides :=
  { o with
    topP := o.topP.map repairTopP
    repeatPenalty := o.repeatPenalty.map repairRepeatPenalty }

/-- Whether a member makes a record on its own. -/
def isUsable (m : String × Json) : Bool := (read? (.obj [m])).isSome

/-- The members that can be used, read as one record. -/
def ofMembers (members : List (String × Json)) : Overrides :=
  match read? (.obj (members.filter isUsable)) with
  | some o => o.repaired
  | none => {}

/-- Anything but an object overrides nothing. -/
def parse (text : Option String) : Overrides :=
  match (Text.supplied? text).bind Json.read? with
  | some (.obj members) => ofMembers members
  | _ => {}

def priorityOrNormal (o : Overrides) : Priority := o.priority.getD .normal

def withPriority (o : Overrides) (p : Priority) : Overrides := { o with priority := some p }

def setFloat (current : Float32) (given : Option Float32) (least : Float32) : Float32 :=
  match given with
  | some v => if least ≤ v then v else current
  | none => current

def setInt (current : Int) (given : Option Int) (least : Int) : Int :=
  match given with
  | some v => if least ≤ v then v else current
  | none => current

/-- A seed past the largest word becomes the largest word. -/
def setSeed (current : Nat) (given : Option Int) : Nat :=
  match given with
  | some v => if 0 ≤ v then min v.toNat (UInt32.size - 1) else current
  | none => current

def applySampling (o : Overrides) (s : Sampling) : Sampling :=
  { s with
    temperature := setFloat s.temperature (o.temp <|> o.temperature) 0.0
    topP := setFloat s.topP o.topP 0.0
    topK := setInt s.topK o.topK 0
    minP := setFloat s.minP o.minP 0.0
    typicalP := setFloat s.typicalP o.typicalP 0.0
    repeatPenalty := setFloat s.repeatPenalty o.repeatPenalty 0.0
    frequencyPenalty := setFloat s.frequencyPenalty o.frequencyPenalty 0.0
    presencePenalty := setFloat s.presencePenalty o.presencePenalty 0.0
    penaltyLastN := setInt s.penaltyLastN (o.repeatLastN <|> o.penaltyLastN) 0
    probs := setInt s.probs (o.logprobs <|> o.probs) 0
    minKeep := setInt s.minKeep o.minKeep 0
    dryMultiplier := setFloat s.dryMultiplier o.dryMultiplier 0.0
    dryBase := setFloat s.dryBase o.dryBase 1.0
    dryAllowedLength := setInt s.dryAllowedLength o.dryAllowedLength 0
    dryPenaltyLastN := setInt s.dryPenaltyLastN o.dryPenaltyLastN 0
    dynatempRange := setFloat s.dynatempRange o.dynatempRange 0.0
    dynatempExponent := setFloat s.dynatempExponent o.dynatempExponent 0.0
    mirostat := setInt s.mirostat o.mirostat 0
    mirostatTau := setFloat s.mirostatTau o.mirostatTau 0.0
    mirostatEta := setFloat s.mirostatEta o.mirostatEta 0.0
    seed := setSeed s.seed o.seed
    grammar := ModelConfig.grammarOf o.grammar s.grammar }

/-- The parameters of one turn; the base itself stays as it is. -/
def apply (o : Overrides) (base : ModelConfig) : ModelConfig :=
  { base with
    model := { base.model with predict := setInt base.model.predict (o.maxTokens <|> o.predict) 1 }
    sampling := o.applySampling base.sampling
    stopping :=
      { stop := o.stop.getD base.stopping.stop
        ignoreEos := o.ignoreEos.getD base.stopping.ignoreEos } }

end Overrides

end ChatInference
