import ChatInference.Model.Merge
import ChatInference.Proofs.Model.Entries
import ChatInference.Proofs.Model.Parameters

/-!
Where a document is read for each parameter. A parameter has one or more spellings, each a key at a
place of the document, and the first of them that says something counts. A document that is accepted is
laid over the parameters as these spellings say, whatever the parameters are, and then resolved.
-/

namespace ChatInference

open Json

/-- A place of a document where entries are looked for. -/
inductive Place where
  | root
  /-- The nested object, or the root where there is none. -/
  | model
  | sampling
  | stopping

/-- One spelling of a parameter: where its entry stands, and how the entry is read. -/
structure Spelling (α : Type) where
  place : Place
  key : String
  kind : Json → Option α

namespace Place

def object? (root : Json) : Place → Option Json
  | .root => some root
  | model => some (root.sectionOf "model")
  | sampling => root.nested? "sampling"
  | stopping => root.nested? "stopping"

def entries (root : Json) (p : Place) : Entries := fun key => (p.object? root).bind (·.get? key)

end Place

namespace Spelling

variable {α : Type}

/-- What a document says under a spelling. -/
def value (s : Spelling α) (root : Json) : Option α := (s.place.entries root).value s.key s.kind

/-- Whether an entry stands under a spelling. -/
def occurs (s : Spelling α) (root : Json) : Bool := (s.place.entries root).has s.key

end Spelling

namespace Window

def keys : Window → List String
  | penalty => ["repeat_last_n", "penalty_last_n"]
  | dryPenalty => ["dry_penalty_last_n"]

/-- The spellings of a window, read as a length and then put to some use. -/
def spellings {α : Type} (w : Window) (use : Int → α) : List (Spelling α) :=
  w.keys.map fun key => ⟨.sampling, key, fun v => (int64? v).map use⟩

end Window

/-- A size that lies between two bounds, or else a default. -/
def sizeIn (lo hi default : Nat) (v : Json) : Option Nat :=
  (int64? v).map fun n => Config.natIn lo hi default (some n)

def grammar? (v : Json) : Option (Option String) :=
  (str? v).map fun g => if g.isEmpty then none else some g

def biases? (v : Json) : Option (List (Nat × Float32)) :=
  v.arr?.map (·.filterMap ModelConfig.biasOf?)

/-- The spellings of a parameter, from the one that counts before all others. -/
def Parameter.spellings : {α : Type} → Parameter α → List (Spelling α)
  | _, gpuLayers => [⟨.model, "n_gpu_layers", int32?⟩]
  | _, ctxSize => ["n_ctx", "ctx_size"].map (⟨.model, ·, sizeIn 0 (UInt32.size - 1) 2048⟩)
  | _, batchSize => ["n_batch", "batch_size"].map (⟨.model, ·, sizeIn 1 (UInt32.size - 1) 512⟩)
  | _, threads => [⟨.model, "threads", sizeIn 1 1024 8⟩]
  | _, predict =>
    [⟨.stopping, "max_tokens", int32?⟩, ⟨.model, "max_tokens", int32?⟩, ⟨.model, "n_predict", int32?⟩]
  | _, temperature =>
    [⟨.sampling, "temp", single?⟩, ⟨.sampling, "temperature", single?⟩, ⟨.root, "temp", single?⟩,
      ⟨.root, "temperature", single?⟩]
  | _, topP => [⟨.sampling, "top_p", single?⟩, ⟨.root, "top_p", single?⟩]
  | _, topK => [⟨.sampling, "top_k", int32?⟩]
  | _, minP => [⟨.sampling, "min_p", single?⟩]
  | _, typicalP => [⟨.sampling, "typical_p", single?⟩]
  | _, repeatPenalty =>
    [⟨.sampling, "repeat_penalty", single?⟩, ⟨.sampling, "penalty_repeat", single?⟩,
      ⟨.root, "repeat_penalty", single?⟩]
  | _, frequencyPenalty =>
    [⟨.sampling, "frequency_penalty", single?⟩, ⟨.sampling, "penalty_freq", single?⟩]
  | _, presencePenalty =>
    [⟨.sampling, "presence_penalty", single?⟩, ⟨.sampling, "penalty_present", single?⟩]
  | _, dryMultiplier => [⟨.sampling, "dry_multiplier", single?⟩]
  | _, dryBase => [⟨.sampling, "dry_base", single?⟩]
  | _, dryAllowedLength => [⟨.sampling, "dry_allowed_length", int32?⟩]
  | _, dryBreakers => [⟨.sampling, "dry_sequence_breakers", ModelConfig.listOf?⟩]
  | _, dynatempRange => [⟨.sampling, "dynatemp_range", single?⟩]
  | _, dynatempExponent => [⟨.sampling, "dynatemp_exponent", single?⟩]
  | _, mirostat => [⟨.sampling, "mirostat", int32?⟩]
  | _, mirostatTau => [⟨.sampling, "mirostat_tau", single?⟩]
  | _, mirostatEta => [⟨.sampling, "mirostat_eta", single?⟩]
  | _, seed => [⟨.sampling, "seed", word32?⟩]
  | _, probs => [⟨.sampling, "logprobs", int32?⟩, ⟨.sampling, "n_probs", int32?⟩]
  | _, minKeep => [⟨.sampling, "min_keep", int32?⟩]
  | _, grammar => [⟨.sampling, "grammar", grammar?⟩]
  | _, grammarLazy => [⟨.sampling, "grammar_lazy", bool?⟩]
  | _, logitBias => [⟨.root, "logit_bias", biases?⟩]
  | _, stop => [⟨.stopping, "stop", ModelConfig.listOf?⟩]
  | _, ignoreEos => [⟨.stopping, "ignore_eos", bool?⟩, ⟨.sampling, "ignore_eos", bool?⟩]
  | _, window w => w.spellings ModelConfig.clipWindow
  | _, automatic w => w.spellings (· == -1)

/-- Whether any spelling of a parameter stands in a document. -/
def Parameter.isNamed {α : Type} (p : Parameter α) (root : Json) : Bool :=
  p.spellings.any (·.occurs root)

/-- What a document gives each parameter. -/
def Json.settings (root : Json) : Settings := ⟨fun p => p.spellings.findSome? (·.value root)⟩

theorem settings_of_not_named {α : Type} {p : Parameter α} {root : Json}
    (h : p.isNamed root = false) : root.settings.value p = none :=
  List.findSome?_eq_none_iff.2 fun _ hs =>
    Entries.value_of_not_has (Bool.eq_false_iff.2 (List.any_eq_false.1 h _ hs))

/-! Windows: one entry says both how long a window is and whether it follows the context. -/

namespace Window

/-- What a document says of the length of a window, as it stands there. -/
def given (w : Window) (root : Json) : Option Int :=
  w.keys.findSome? fun key => (Place.sampling.entries root).value key int64?

theorem findSome?_spellings {α : Type} (w : Window) (use : Int → α) (root : Json) :
    (w.spellings use).findSome? (·.value root) = (w.given root).map use := by
  unfold given spellings
  rw [List.findSome?_map, List.map_findSome?]
  refine congrArg (List.findSome? · w.keys) (funext fun key => ?_)
  exact (Entries.map_value use).symm

end Window

section Windows

variable (w : Window) (root : Json)

theorem settings_window :
    root.settings.value (.window w) = (w.given root).map ModelConfig.clipWindow :=
  w.findSome?_spellings _ root

theorem settings_automatic : root.settings.value (.automatic w) = (w.given root).map (· == -1) :=
  w.findSome?_spellings _ root

theorem settings_pinning : root.settings.Pinning := by
  intro w h
  rw [settings_automatic] at h
  rw [settings_window]
  obtain ⟨n, hn, -⟩ := Option.map_eq_some_iff.1 h
  rw [hn]
  rfl

end Windows

namespace ModelConfig

/-! The sections of a document, each entry as it says on its own. -/

def GivenParams.ofEntries (es : Entries) : GivenParams where
  gpuLayers := es.value "n_gpu_layers" int32?
  ctxSize := es.value "n_ctx" int64? <|> es.value "ctx_size" int64?
  batchSize := es.value "n_batch" int64? <|> es.value "batch_size" int64?
  threads := es.value "threads" int64?
  predict := es.value "max_tokens" int32? <|> es.value "n_predict" int32?

def GivenSampling.flatOfEntries (es : Entries) : GivenSampling where
  temperature := es.value "temp" single? <|> es.value "temperature" single?
  topP := es.value "top_p" single?
  repeatPenalty := es.value "repeat_penalty" single?

def GivenSampling.ofEntries (es : Entries) : GivenSampling where
  temperature := es.value "temp" single? <|> es.value "temperature" single?
  topP := es.value "top_p" single?
  topK := es.value "top_k" int32?
  minP := es.value "min_p" single?
  typicalP := es.value "typical_p" single?
  repeatPenalty := es.value "repeat_penalty" single? <|> es.value "penalty_repeat" single?
  frequencyPenalty := es.value "frequency_penalty" single? <|> es.value "penalty_freq" single?
  presencePenalty := es.value "presence_penalty" single? <|> es.value "penalty_present" single?
  penaltyLastN := es.value "repeat_last_n" int64? <|> es.value "penalty_last_n" int64?
  dryMultiplier := es.value "dry_multiplier" single?
  dryBase := es.value "dry_base" single?
  dryAllowedLength := es.value "dry_allowed_length" int32?
  dryPenaltyLastN := es.value "dry_penalty_last_n" int64?
  dryBreakers := es.value "dry_sequence_breakers" listOf?
  dynatempRange := es.value "dynatemp_range" single?
  dynatempExponent := es.value "dynatemp_exponent" single?
  mirostat := es.value "mirostat" int32?
  mirostatTau := es.value "mirostat_tau" single?
  mirostatEta := es.value "mirostat_eta" single?
  seed := es.value "seed" word32?
  probs := es.value "logprobs" int32? <|> es.value "n_probs" int32?
  minKeep := es.value "min_keep" int32?
  grammar := es.value "grammar" str?
  grammarLazy := es.value "grammar_lazy" bool?

def GivenStopping.ofEntries (es : Entries) : GivenStopping where
  stop := es.value "stop" listOf?
  predict := es.value "max_tokens" int32?
  ignoreEos := es.value "ignore_eos" bool?

def Given.ofDocument (root : Json) : Given where
  params := .ofEntries (Place.model.entries root)
  flat := .flatOfEntries (Place.root.entries root)
  sampling := .ofEntries (Place.sampling.entries root)
  samplingIgnoreEos := (Place.sampling.entries root).value "ignore_eos" bool?
  stopping := .ofEntries (Place.stopping.entries root)
  logitBias := (Place.root.entries root).value "logit_bias" biases?

section Sections

variable {v : Json}

theorem entries?_of_isObj (hv : v.isObj = true) (keys : List String) :
    v.entries? keys = some fun key => v.get? key := by
  cases v with
  | obj members => rfl
  | _ => cases hv

theorem GivenParams.read?_of_isObj (hv : v.isObj = true) {g : GivenParams} (h : read? v = some g) :
    g = ofEntries fun key => v.get? key := by
  unfold read? at h
  rw [entries?_of_isObj hv] at h
  repeat replace h := (Entries.read_bind_eq_some_iff.1 h).2
  exact (Option.some.inj h).symm

theorem GivenSampling.readFlat?_of_isObj (hv : v.isObj = true) {g : GivenSampling}
    (h : readFlat? v = some g) : g = flatOfEntries fun key => v.get? key := by
  unfold readFlat? at h
  rw [entries?_of_isObj hv] at h
  repeat replace h := (Entries.read_bind_eq_some_iff.1 h).2
  exact (Option.some.inj h).symm

theorem GivenSampling.read?_of_isObj (hv : v.isObj = true) {g : GivenSampling × Option Bool}
    (h : read? v = some g) :
    g = (ofEntries fun key => v.get? key, Entries.value (fun key => v.get? key) "ignore_eos" bool?) := by
  unfold read? at h
  rw [entries?_of_isObj hv] at h
  repeat replace h := (Entries.read_bind_eq_some_iff.1 h).2
  exact (Option.some.inj h).symm

theorem GivenStopping.read?_of_isObj (hv : v.isObj = true) {g : GivenStopping}
    (h : read? v = some g) : g = ofEntries fun key => v.get? key := by
  unfold read? at h
  rw [entries?_of_isObj hv] at h
  repeat replace h := (Entries.read_bind_eq_some_iff.1 h).2
  exact (Option.some.inj h).symm

end Sections

theorem findSome?_cons_eq_or {α β : Type} (f : α → Option β) (x : α) (xs : List α) :
    (x :: xs).findSome? f = (f x).or (xs.findSome? f) := by
  rw [List.findSome?_cons]
  cases f x <;> rfl

/-! A given value is put to its use and replaces the present one. -/

theorem value_sizeIn (es : Entries) (key : String) (lo hi default : Nat) :
    es.value key (sizeIn lo hi default) =
      (es.value key int64?).map fun n => Config.natIn lo hi default (some n) :=
  (Entries.map_value _).symm

theorem value_grammar (es : Entries) (key : String) :
    es.value key grammar? = (es.value key str?).map fun g => if g.isEmpty then none else some g :=
  (Entries.map_value _).symm

theorem GivenParams.apply_eq (g : GivenParams) (p : ModelParams) : g.apply p =
    { gpuLayers := g.gpuLayers.getD p.gpuLayers
      ctxSize := (g.ctxSize.map fun n => Config.natIn 0 (UInt32.size - 1) 2048 (some n)).getD p.ctxSize
      batchSize :=
        (g.batchSize.map fun n => Config.natIn 1 (UInt32.size - 1) 512 (some n)).getD p.batchSize
      threads := (g.threads.map fun n => Config.natIn 1 1024 8 (some n)).getD p.threads
      predict := g.predict.getD p.predict } := by
  unfold apply
  cases g.ctxSize <;> cases g.batchSize <;> cases g.threads <;> rfl

theorem autoOf_eq (given : Option Int) (current : Bool) :
    autoOf given current = (given.map (· == -1)).getD current := by
  cases given <;> rfl

theorem grammarOf_eq (given current : Option String) :
    grammarOf given current = (given.map fun g => if g.isEmpty then none else some g).getD current := by
  cases given <;> rfl

/-- The entries of a document replace what its spellings name. -/
theorem Given.apply_ofDocument (root : Json) (c : ModelConfig) :
    (Given.ofDocument root).apply c = (c.set root.settings).resolve := by
  unfold Given.apply
  dsimp only
  congr 1
  refine ext_get fun p => ?_
  rw [get_set]
  cases p with
  | window w =>
    rw [settings_window]
    cases w <;>
    simp [get, Given.ofDocument, GivenSampling.ofEntries, GivenSampling.flatOfEntries,
      GivenSampling.apply, windowOf, Window.given, Window.keys, findSome?_cons_eq_or]
  | automatic w =>
    rw [settings_automatic]
    cases w <;>
    simp [get, Given.ofDocument, GivenSampling.ofEntries, GivenSampling.applyAuto, autoOf_eq,
      Window.given, Window.keys, findSome?_cons_eq_or]
  | _ =>
    simp [get, Json.settings, Parameter.spellings, findSome?_cons_eq_or, Spelling.value,
      Given.ofDocument, GivenParams.ofEntries, GivenSampling.ofEntries,
      GivenSampling.flatOfEntries, GivenStopping.ofEntries, GivenParams.apply_eq,
      GivenSampling.apply, grammarOf_eq, value_sizeIn, value_grammar, Option.map_or]

end ModelConfig

end ChatInference
