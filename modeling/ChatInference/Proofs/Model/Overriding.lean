import ChatInference.Proofs.Model.Negatives
import ChatInference.Proofs.Model.Spellings

/-!
Overrides as settings. An override replaces the parameters that it sets and no others, so that to apply
it twice is to apply it once; and it sets only what its text names.
-/

namespace ChatInference

open Json

/-- The keys under which an override names a parameter. -/
def Parameter.overrideKeys : {α : Type} → Parameter α → List String
  | _, predict => ["max_tokens", "n_predict"]
  | _, temperature => ["temp", "temperature"]
  | _, topP => ["top_p"]
  | _, topK => ["top_k"]
  | _, minP => ["min_p"]
  | _, typicalP => ["typical_p"]
  | _, repeatPenalty => ["repeat_penalty"]
  | _, frequencyPenalty => ["frequency_penalty"]
  | _, presencePenalty => ["presence_penalty"]
  | _, dryMultiplier => ["dry_multiplier"]
  | _, dryBase => ["dry_base"]
  | _, dryAllowedLength => ["dry_allowed_length"]
  | _, dynatempRange => ["dynatemp_range"]
  | _, dynatempExponent => ["dynatemp_exponent"]
  | _, mirostat => ["mirostat"]
  | _, mirostatTau => ["mirostat_tau"]
  | _, mirostatEta => ["mirostat_eta"]
  | _, seed => ["seed"]
  | _, probs => ["logprobs", "n_probs"]
  | _, minKeep => ["min_keep"]
  | _, grammar => ["grammar"]
  | _, stop => ["stop"]
  | _, ignoreEos => ["ignore_eos"]
  | _, window .penalty => ["repeat_last_n", "penalty_last_n"]
  | _, window .dryPenalty => ["dry_penalty_last_n"]
  | _, gpuLayers | _, ctxSize | _, batchSize | _, threads | _, dryBreakers | _, grammarLazy
  | _, logitBias | _, automatic _ => []

namespace Overrides

/-- The value that overrides set a parameter to, if they do. -/
def value (o : Overrides) : {α : Type} → Parameter α → Option α
  | _, .predict => (o.maxTokens <|> o.predict).filter (1 ≤ ·)
  | _, .temperature => (o.temp <|> o.temperature).filter (0.0 ≤ ·)
  | _, .topP => o.topP.filter (0.0 ≤ ·)
  | _, .topK => o.topK.filter (0 ≤ ·)
  | _, .minP => o.minP.filter (0.0 ≤ ·)
  | _, .typicalP => o.typicalP.filter (0.0 ≤ ·)
  | _, .repeatPenalty => o.repeatPenalty.filter (0.0 ≤ ·)
  | _, .frequencyPenalty => o.frequencyPenalty.filter (0.0 ≤ ·)
  | _, .presencePenalty => o.presencePenalty.filter (0.0 ≤ ·)
  | _, .dryMultiplier => o.dryMultiplier.filter (0.0 ≤ ·)
  | _, .dryBase => o.dryBase.filter (1.0 ≤ ·)
  | _, .dryAllowedLength => o.dryAllowedLength.filter (0 ≤ ·)
  | _, .dynatempRange => o.dynatempRange.filter (0.0 ≤ ·)
  | _, .dynatempExponent => o.dynatempExponent.filter (0.0 ≤ ·)
  | _, .mirostat => o.mirostat.filter (0 ≤ ·)
  | _, .mirostatTau => o.mirostatTau.filter (0.0 ≤ ·)
  | _, .mirostatEta => o.mirostatEta.filter (0.0 ≤ ·)
  | _, .seed => (o.seed.filter (0 ≤ ·)).map fun n => min n.toNat (UInt32.size - 1)
  | _, .probs => (o.logprobs <|> o.probs).filter (0 ≤ ·)
  | _, .minKeep => o.minKeep.filter (0 ≤ ·)
  | _, .grammar => o.grammar.map fun g => if g.isEmpty then none else some g
  | _, .stop => o.stop
  | _, .ignoreEos => o.ignoreEos
  | _, .window .penalty => (o.repeatLastN <|> o.penaltyLastN).filter (0 ≤ ·)
  | _, .window .dryPenalty => o.dryPenaltyLastN.filter (0 ≤ ·)
  | _, _ => none

def settings (o : Overrides) : Settings := ⟨o.value⟩

variable {o : Overrides} {base : ModelConfig}

theorem setSeed_eq_getD (current : Nat) (given : Option Int) : setSeed current given =
    ((given.filter (0 ≤ ·)).map fun n => min n.toNat (UInt32.size - 1)).getD current := by
  cases given with
  | none => rfl
  | some n =>
    unfold setSeed
    by_cases h : 0 ≤ n <;> simp [h, Option.filter]

/-- To apply overrides is to replace what they set. -/
theorem apply_eq_set : o.apply base = base.set o.settings := by
  refine ModelConfig.ext_get fun p => ?_
  rw [ModelConfig.get_set]
  unfold apply applySampling settings
  cases p with
  | window w => cases w <;> exact setInt_eq _ _ _
  | automatic w => cases w <;> rfl
  | seed => exact setSeed_eq_getD _ _
  | grammar => exact ModelConfig.grammarOf_eq _ _
  | predict | topK | dryAllowedLength | mirostat | probs | minKeep => exact setInt_eq _ _ _
  | temperature | topP | minP | typicalP | repeatPenalty | frequencyPenalty | presencePenalty
  | dryMultiplier | dryBase | dynatempRange | dynatempExponent | mirostatTau | mirostatEta =>
    exact setFloat_eq _ _ _
  | _ => rfl

/-! What a text names. -/

/-- What stands under each key of a text, if it is an object. -/
def entriesOf (text : Option String) : Entries := fun key =>
  ((Text.supplied? text).bind Json.read?).bind (·.get? key)

theorem parse_eq (text : Option String) : parse text = (ofEntries (entriesOf text)).repaired := by
  unfold entriesOf
  cases hread : (Text.supplied? text).bind Json.read? with
  | none =>
    unfold parse
    rw [hread]
    rfl
  | some root =>
    cases root with
    | obj members =>
      rw [parse_of_read hread]
      exact ofMembers_eq (nodup_of_supplied hread)
    | null | bool | int | float | str | arr =>
      unfold parse
      rw [hread]
      rfl

/-- Whether a text has an entry for a parameter. -/
def names (text : Option String) {α : Type} (p : Parameter α) : Bool :=
  p.overrideKeys.any (entriesOf text).has

/-- Entries that are not there set nothing, and neither do those that are there for others. -/
theorem value_of_not_names {text : Option String} {α : Type} {p : Parameter α}
    (h : names text p = false) : (parse text).value p = none := by
  unfold names at h
  rw [parse_eq]
  cases p with
  | window w =>
    cases w <;>
    simp_all [Parameter.overrideKeys, value, repaired, ofEntries, Entries.value_of_not_has]
  | _ => simp_all [Parameter.overrideKeys, value, repaired, ofEntries, Entries.value_of_not_has]

/-- Overrides that were parsed are the same applied once or twice. Each parameter takes the value that
they set for it or keeps the one of the base, and keeps it wherever the text has no entry for it. The
parameters without a key are always those of the base, and where nothing is set, the base comes back. -/
theorem apply_touches_named_only (text : Option String) (base : ModelConfig) :
    let o := parse text
    let c := o.apply base
    o.apply c = c ∧
      (∀ {α : Type} (p : Parameter α), c.get p = (o.value p).getD (base.get p)) ∧
      (∀ {α : Type} (p : Parameter α), names text p = false → c.get p = base.get p) ∧
      (c.model.gpuLayers = base.model.gpuLayers ∧ c.model.ctxSize = base.model.ctxSize ∧
        c.model.batchSize = base.model.batchSize ∧ c.model.threads = base.model.threads ∧
        c.sampling.logitBias = base.sampling.logitBias ∧
        c.sampling.dryBreakers = base.sampling.dryBreakers ∧
        c.sampling.grammarLazy = base.sampling.grammarLazy ∧ c.auto = base.auto) ∧
      ((∀ {α : Type} (p : Parameter α), o.value p = none) → c = base) := by
  intro o c
  have hc : c = base.set o.settings := apply_eq_set
  have hget {α : Type} (p : Parameter α) : c.get p = (o.value p).getD (base.get p) := by
    rw [hc, ModelConfig.get_set]
    rfl
  refine ⟨?_, hget, fun p hp => ?_, ⟨rfl, rfl, rfl, rfl, rfl, rfl, rfl, rfl⟩, fun hnone => ?_⟩
  · rw [hc, apply_eq_set, ModelConfig.set_set_self]
  · rw [hget, value_of_not_names hp]
    rfl
  · refine ModelConfig.ext_get fun p => ?_
    rw [hget, hnone]
    rfl

/-- A negative number sets nothing, a number past its range is brought into it, and an empty grammar
takes away the one of the base. -/
theorem apply_touches_named_only_mixed :
    let text := some "\x7b\"top_k\":-3,\"top_p\":3,\"grammar\":\"\",\"ctx_size\":1\x7d"
    let base : ModelConfig :=
      { ModelConfig.initial with sampling := { ModelConfig.initial.sampling with grammar := some "g" } }
    let c := (parse text).apply base
    (parse text).apply c = c ∧ names text Parameter.ctxSize = false ∧
      c.get .ctxSize = base.get .ctxSize ∧ c.get .topK = -1 ∧ c.get .topP = 1.0 ∧ c.get .grammar = none := by
  intro text base c
  obtain ⟨htwice, hget, hkept, -, -⟩ := apply_touches_named_only text base
  exact ⟨htwice, rfl, hkept .ctxSize rfl, rfl, (hget .topP).trans rfl, (hget .grammar).trans rfl⟩

end Overrides

end ChatInference
