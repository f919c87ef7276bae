import ChatInference.Json.Writer
import ChatInference.Model.Config

/-! A model's parameters written out under the keys they are read from. -/

namespace ChatInference

open Json (nat single option list)

def ModelParams.toJson (p : ModelParams) : Json :=
  .obj [("n_gpu_layers", .int p.gpuLayers), ("ctx_size", nat p.ctxSize),
    ("batch_size", nat p.batchSize), ("threads", nat p.threads), ("n_predict", .int p.predict)]

def Sampling.toJson (s : Sampling) : Json :=
  .obj [("temperature", single s.temperature), ("top_p", single s.topP), ("top_k", .int s.topK),
    ("min_p", single s.minP), ("typical_p", single s.typicalP),
    ("repeat_penalty", single s.repeatPenalty),
    ("frequency_penalty", single s.frequencyPenalty),
    ("presence_penalty", single s.presencePenalty), ("penalty_last_n", .int s.penaltyLastN),
    ("dry_multiplier", single s.dryMultiplier), ("dry_base", single s.dryBase),
    ("dry_allowed_length", .int s.dryAllowedLength),
    ("dry_penalty_last_n", .int s.dryPenaltyLastN),
    ("dry_sequence_breakers", list .str s.dryBreakers),
    ("dynatemp_range", single s.dynatempRange), ("dynatemp_exponent", single s.dynatempExponent),
    ("mirostat", .int s.mirostat), ("mirostat_tau", single s.mirostatTau),
    ("mirostat_eta", single s.mirostatEta), ("seed", nat s.seed), ("n_probs", .int s.probs),
    ("min_keep", .int s.minKeep), ("grammar", option .str s.grammar),
    ("grammar_lazy", .bool s.grammarLazy),
    ("logit_bias", list (fun (t, b) => .arr [nat t, single b]) s.logitBias)]

def ModelConfig.toJson (c : ModelConfig) : Json :=
  .obj [("model", c.model.toJson), ("sampling", c.sampling.toJson),
    ("stopping", .obj [("stop", list .str c.stopping.stop),
      ("ignore_eos", .bool c.stopping.ignoreEos)])]

end ChatInference
