import ChatInference.Model.Config

/-!
The parameters of a model one by one. Settings say of each parameter which value it is given, if any;
laid over a configuration they replace these values and no others. Resolving comes after them, and
looks at nothing but the context, the windows and the base of repetition: to resolve in between, once
or many times, changes nothing in the end.
-/

namespace ChatInference

/-- The two penalty windows. -/
inductive Window where
  | penalty
  | dryPenalty

/-- The parameters, by the type of their values. -/
inductive Parameter : Type → Type where
  | gpuLayers : Parameter Int
  | ctxSize : Parameter Nat
  | batchSize : Parameter Nat
  | threads : Parameter Nat
  | predict : Parameter Int
  | temperature : Parameter Float32
  | topP : Parameter Float32
  | topK : Parameter Int
  | minP : Parameter Float32
  | typicalP : Parameter Float32
  | repeatPenalty : Parameter Float32
  | frequencyPenalty : Parameter Float32
  | presencePenalty : Parameter Float32
  | dryMultiplier : Parameter Float32
  | dryBase : Parameter Float32
  | dryAllowedLength : Parameter Int
  | dryBreakers : Parameter (List String)
  | dynatempRange : Parameter Float32
  | dynatempExponent : Parameter Float32
  | mirostat : Parameter Int
  | mirostatTau : Parameter Float32
  | mirostatEta : Parameter Float32
  | seed : Parameter Nat
  | probs : Parameter Int
  | minKeep : Parameter Int
  | grammar : Parameter (Option String)
  | grammarLazy : Parameter Bool
  | logitBias : Parameter (List (Nat × Float32))
  | stop : Parameter (List String)
  | ignoreEos : Parameter Bool
  /-- The length of a window. -/
  | window (w : Window) : Parameter Int
  /-- Whether a window follows the context. -/
  | automatic (w : Window) : Parameter Bool

namespace Parameter

/-- Whether the length of a window is meant. -/
def isWindow {α : Type} : Parameter α → Bool
  | window _ => true
  | _ => false

/-- Whether resolving may replace the value. -/
def isResolved {α : Type} : Parameter α → Bool
  | window _ | dryBase => true
  | _ => false

end Parameter

/-- A value for each parameter that is given one. -/
structure Settings where
  value : {α : Type} → Parameter α → Option α

namespace ModelConfig

def get (c : ModelConfig) : {α : Type} → Parameter α → α
  | _, .gpuLayers => c.model.gpuLayers
  | _, .ctxSize => c.model.ctxSize
  | _, .batchSize => c.model.batchSize
  | _, .threads => c.model.threads
  | _, .predict => c.model.predict
  | _, .temperature => c.sampling.temperature
  | _, .topP => c.sampling.topP
  | _, .topK => c.sampling.topK
  | _, .minP => c.sampling.minP
  | _, .typicalP => c.sampling.typicalP
  | _, .repeatPenalty => c.sampling.repeatPenalty
  | _, .frequencyPenalty => c.sampling.frequencyPenalty
  | _, .presencePenalty => c.sampling.presencePenalty
  | _, .dryMultiplier => c.sampling.dryMultiplier
  | _, .dryBase => c.sampling.dryBase
  | _, .dryAllowedLength => c.sampling.dryAllowedLength
  | _, .dryBreakers => c.sampling.dryBreakers
  | _, .dynatempRange => c.sampling.dynatempRange
  | _, .dynatempExponent => c.sampling.dynatempExponent
  | _, .mirostat => c.sampling.mirostat
  | _, .mirostatTau => c.sampling.mirostatTau
  | _, .mirostatEta => c.sampling.mirostatEta
  | _, .seed => c.sampling.seed
  | _, .probs => c.sampling.probs
  | _, .minKeep => c.sampling.minKeep
  | _, .grammar => c.sampling.grammar
  | _, .grammarLazy => c.sampling.grammarLazy
  | _, .logitBias => c.sampling.logitBias
  | _, .stop => c.stopping.stop
  | _, .ignoreEos => c.stopping.ignoreEos
  | _, .window .penalty => c.sampling.penaltyLastN
  | _, .window .dryPenalty => c.sampling.dryPenaltyLastN
  | _, .automatic .penalty => c.auto.penaltyLastN
  | _, .automatic .dryPenalty => c.auto.dryPenaltyLastN

/-- The configuration of some values. -/
def ofValues (v : {α : Type} → Parameter α → α) : ModelConfig where
  model :=
    { gpuLayers := v .gpuLayers
      ctxSize := v .ctxSize
      batchSize := v .batchSize
      threads := v .threads
      predict := v .predict }
  sampling :=
    { temperature := v .temperature
      topP := v .topP
      topK := v .topK
      minP := v .minP
      typicalP := v .typicalP
      repeatPenalty := v .repeatPenalty
      frequencyPenalty := v .frequencyPenalty
      presencePenalty := v .presencePenalty
      penaltyLastN := v (.window .penalty)
      dryMultiplier := v .dryMultiplier
      dryBase := v .dryBase
      dryAllowedLength := v .dryAllowedLength
      dryPenaltyLastN := v (.window .dryPenalty)
      dryBreakers := v .dryBreakers
      dynatempRange := v .dynatempRange
      dynatempExponent := v .dynatempExponent
      mirostat := v .mirostat
      mirostatTau := v .mirostatTau
      mirostatEta := v .mirostatEta
      seed := v .seed
      probs := v .probs
      minKeep := v .minKeep
      grammar := v .grammar
      grammarLazy := v .grammarLazy
      logitBias := v .logitBias }
  stopping := { stop := v .stop, ignoreEos := v .ignoreEos }
  auto :=
    { penaltyLastN := v (.automatic .penalty)
      dryPenaltyLastN := v (.automatic .dryPenalty) }

theorem get_ofValues (v : {α : Type} → Parameter α → α) {α : Type} (p : Parameter α) :
    (ofValues v).get p = v p := by
  cases p with
  | window w => cases w <;> rfl
  | automatic w => cases w <;> rfl
  | _ => rfl

/-- A configuration is what it says of each parameter. -/
theorem ext_get {c d : ModelConfig} (h : ∀ {α : Type} (p : Parameter α), c.get p = d.get p) :
    c = d := by
  have hget : @c.get = @d.get := by
    funext α p
    exact h p
  calc c = ofValues @c.get := rfl
    _ = ofValues @d.get := by rw [hget]
    _ = d := rfl

/-- Settings replace the values of the parameters they name. -/
def set (c : ModelConfig) (s : Settings) : ModelConfig :=
  ofValues fun p => (s.value p).getD (c.get p)

theorem get_set (c : ModelConfig) (s : Settings) {α : Type} (p : Parameter α) :
    (c.set s).get p = (s.value p).getD (c.get p) :=
  get_ofValues _ p

end ModelConfig

namespace Settings

/-- No parameter is given a value. -/
def none : Settings := ⟨fun _ => .none⟩

/-- The values of the one, and those of the other for parameters that the one does not name. -/
def orElse (s t : Settings) : Settings := ⟨fun p => (s.value p).or (t.value p)⟩

/-- A window that is not to follow the context is given its length. -/
def Pinning (s : Settings) : Prop :=
  ∀ w, s.value (.automatic w) = some false → (s.value (.window w)).isSome = true

end Settings

namespace ModelConfig

variable {c : ModelConfig} {s t : Settings}

theorem set_none : c.set .none = c :=
  ext_get fun p => get_set c .none p

theorem set_set : (c.set s).set t = c.set (t.orElse s) := by
  refine ext_get fun p => ?_
  rw [get_set, get_set, get_set]
  exact Option.getD_or.symm

/-- To set again what was set last changes nothing. -/
theorem set_set_self : (c.set s).set s = c.set s := by
  rw [set_set]
  refine ext_get fun p => ?_
  rw [get_set, get_set]
  exact congrArg (·.getD (c.get p)) Option.or_self

/-! Resolving. -/

/-- A base of repetition below one is replaced. -/
def repairDryBase (x : Float32) : Float32 := if x < 1.0 then defaultDryBase else x

theorem repairDryBase_not_lt (x : Float32) : ¬repairDryBase x < 1.0 := by
  unfold repairDryBase
  split
  case isTrue => decide
  case isFalse h => exact h

theorem repairDryBase_repairDryBase (x : Float32) :
    repairDryBase (repairDryBase x) = repairDryBase x :=
  if_neg (repairDryBase_not_lt x)

theorem get_resolve_window (w : Window) : c.resolve.get (.window w) =
    if c.get (.automatic w) then c.model.window else c.get (.window w) := by
  cases w <;> rfl

theorem get_resolve_dryBase : c.resolve.get .dryBase = repairDryBase (c.get .dryBase) := rfl

theorem get_resolve {α : Type} {p : Parameter α} (h : p.isResolved = false) :
    c.resolve.get p = c.get p := by
  cases p with
  | window w => cases h
  | dryBase => cases h
  | automatic w => cases w <;> rfl
  | _ => rfl

/-- A window that is pinned after a change has its length from the change, or was pinned before. -/
theorem get_window_of_pinned (hs : s.Pinning) {w : Window}
    (hauto : (c.set s).get (.automatic w) = false) :
    (c.resolve.set s).get (.window w) = (c.set s).get (.window w) := by
  rw [get_set] at hauto
  rw [get_set, get_set, get_resolve_window]
  cases hv : s.value (.automatic w) with
  | none =>
    have hbefore : c.get (.automatic w) = false := by
      rw [hv] at hauto
      exact hauto
    rw [hbefore]
    rfl
  | some b =>
    have hb : b = false := by
      rw [hv] at hauto
      exact hauto
    obtain ⟨n, hn⟩ := Option.isSome_iff_exists.1 (hs w (hb ▸ hv))
    rw [hn]
    rfl

theorem window_congr {m n : ModelParams} (h : m.ctxSize = n.ctxSize) : m.window = n.window := by
  unfold ModelParams.window
  rw [h]

/-- To resolve before a change as well makes no difference, as long as windows are pinned with their
length. -/
theorem resolve_set_resolve (hs : s.Pinning) : (c.resolve.set s).resolve = (c.set s).resolve := by
  have hget {α : Type} {p : Parameter α} (hp : p.isResolved = false) :
      (c.resolve.set s).get p = (c.set s).get p := by
    rw [get_set, get_set, get_resolve hp]
  refine ext_get fun p => ?_
  cases hp : p.isResolved with
  | false => rw [get_resolve hp, get_resolve hp, hget hp]
  | true =>
    cases p with
    | dryBase =>
      -- a base of repetition that is kept was repaired, and is not repaired twice
      rw [get_resolve_dryBase, get_resolve_dryBase, get_set, get_set, get_resolve_dryBase]
      cases s.value .dryBase with
      | none => exact repairDryBase_repairDryBase _
      | some x => rfl
    | window w =>
      have hauto : (c.resolve.set s).get (.automatic w) = (c.set s).get (.automatic w) := hget rfl
      have hcontext : (c.resolve.set s).model.window = (c.set s).model.window :=
        window_congr (hget (p := .ctxSize) rfl)
      rw [get_resolve_window, get_resolve_window, hauto, hcontext]
      cases hv : (c.set s).get (.automatic w) with
      | true => rfl
      | false => exact get_window_of_pinned hs hv
    | _ => cases hp

theorem resolve_resolve : c.resolve.resolve = c.resolve := by
  have hnone : Settings.none.Pinning := fun w h => by cases h
  calc c.resolve.resolve = (c.resolve.set .none).resolve := by rw [set_none]
    _ = (c.set .none).resolve := resolve_set_resolve hnone
    _ = c.resolve := by rw [set_none]

end ModelConfig

end ChatInference
