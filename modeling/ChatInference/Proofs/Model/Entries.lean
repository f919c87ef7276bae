import ChatInference.Model.Overrides
import ChatInference.Proofs.Json.Members

/-!
Overrides entry by entry. The document is read twice, each member on its own and then those that pass
as one record. The second reading never fails, and gives every field what its own entry says: members
beside it, of whatever kind, neither take from it nor add to it.
-/

namespace ChatInference

namespace Json

variable {α β : Type}

/-- Whether a value is of a kind. -/
def isKind (kind : Json → Option α) (v : Json) : Bool := (kind v).isSome

namespace Entries

/-- What an entry says on its own: nothing where it is absent, null or of another kind. -/
def value (es : Entries) (key : String) (kind : Json → Option α) : Option α :=
  match es key with
  | none | some null => none
  | some v => kind v

/-- Whether an entry stands under a key. Null is no entry. -/
def has (es : Entries) (key : String) : Bool :=
  match es key with
  | none | some null => false
  | some _ => true

/-- An entry that does not refuse its record: it is absent, null or of the kind. -/
def Fits (es : Entries) (key : String) (ofKind : Json → Bool) : Prop :=
  ∀ v, es key = some v → v = null ∨ ofKind v = true

variable {es es' : Entries} {key : String} {kind : Json → Option α}

theorem value_congr (h : es' key = es key) : es'.value key kind = es.value key kind := by
  unfold value
  rw [h]

theorem value_of_absent (h : es key = none) : es.value key kind = none := by
  unfold value
  rw [h]

theorem value_of_not_has (h : es.has key = false) : es.value key kind = none := by
  unfold has at h
  unfold value
  cases hes : es key with
  | none => rfl
  | some v =>
    rw [hes] at h
    cases v with
    | null => rfl
    | _ => cases h

theorem map_value (f : α → β) :
    (es.value key kind).map f = es.value key fun v => (kind v).map f := by
  unfold value
  split <;> rfl

theorem exists_of_value {v : α} (h : es.value key kind = some v) :
    ∃ w, es key = some w ∧ kind w = some v := by
  unfold value at h
  split at h
  · cases h
  · cases h
  case h_3 w _ hw => exact ⟨w, hw, h⟩

theorem value_of_not_fits (h : ¬es.Fits key (isKind kind)) : es.value key kind = none := by
  unfold value
  split
  · rfl
  · rfl
  case h_3 v _ hv =>
    cases hkind : kind v with
    | none => rfl
    | some x =>
      refine absurd (fun w hw => .inr ?_) h
      cases hv.symm.trans hw
      unfold isKind
      rw [hkind]
      rfl

/-- An entry that fits is read as what it says, and any other refuses. -/
theorem read_bind_eq_some_iff {f : Option α → Option β} {b : β} :
    (es.read key kind).bind f = some b ↔
      es.Fits key (isKind kind) ∧ f (es.value key kind) = some b := by
  unfold read value Fits isKind
  cases hes : es key with
  | none => simp
  | some v =>
    cases v with
    | null => simp
    | bool | int | float | str | arr | obj =>
      simp only [Option.some.injEq, forall_eq', reduceCtorEq, false_or]
      cases kind _ with
      | none => simp
      | some x => simp

/-- One entry is read in front of others. -/
theorem read_cons_iff {f : Option α → Option β} {b : β} {kinds : List (String × (Json → Bool))}
    {q : Prop} (hrest : f (es.value key kind) = some b ↔ (∀ p ∈ kinds, es.Fits p.1 p.2) ∧ q) :
    (es.read key kind).bind f = some b ↔
      (∀ p ∈ (key, isKind kind) :: kinds, es.Fits p.1 p.2) ∧ q := by
  rw [read_bind_eq_some_iff, hrest, List.forall_mem_cons, and_assoc]

end Entries

end Json

namespace Overrides

open Json

/-- Of which kind the entry under each key has to be. -/
def kinds : List (String × (Json → Bool)) :=
  [("temperature", isKind single?), ("temp", isKind single?), ("top_p", isKind single?),
    ("top_k", isKind int32?), ("min_p", isKind single?), ("typical_p", isKind single?),
    ("repeat_penalty", isKind single?), ("frequency_penalty", isKind single?),
    ("presence_penalty", isKind single?), ("penalty_last_n", isKind int32?),
    ("repeat_last_n", isKind int32?), ("seed", isKind int64?), ("max_tokens", isKind int32?),
    ("n_predict", isKind int32?), ("ignore_eos", isKind bool?),
    ("stop", isKind ModelConfig.listOf?), ("grammar", isKind str?), ("n_probs", isKind int32?),
    ("logprobs", isKind int32?), ("min_keep", isKind int32?), ("dry_multiplier", isKind single?),
    ("dry_base", isKind single?), ("dry_allowed_length", isKind int32?),
    ("dry_penalty_last_n", isKind int32?), ("dynatemp_range", isKind single?),
    ("dynatemp_exponent", isKind single?), ("mirostat", isKind int32?),
    ("mirostat_tau", isKind single?), ("mirostat_eta", isKind single?),
    ("priority", isKind Priority.ofJson?)]

/-- Each field as its own entry says. -/
def ofEntries (es : Entries) : Overrides :=
  { temperature := es.value "temperature" single?
    temp := es.value "temp" single?
    topP := es.value "top_p" single?
    topK := es.value "top_k" int32?
    minP := es.value "min_p" single?
    typicalP := es.value "typical_p" single?
    repeatPenalty := es.value "repeat_penalty" single?
    frequencyPenalty := es.value "frequency_penalty" single?
    presencePenalty := es.value "presence_penalty" single?
    penaltyLastN := es.value "penalty_last_n" int32?
    repeatLastN := es.value "repeat_last_n" int32?
    seed := es.value "seed" int64?
    maxTokens := es.value "max_tokens" int32?
    predict := es.value "n_predict" int32?
    ignoreEos := es.value "ignore_eos" bool?
    stop := es.value "stop" ModelConfig.listOf?
    grammar := es.value "grammar" str?
    probs := es.value "n_probs" int32?
    logprobs := es.value "logprobs" int32?
    minKeep := es.value "min_keep" int32?
    dryMultiplier := es.value "dry_multiplier" single?
    dryBase := es.value "dry_base" single?
    dryAllowedLength := es.value "dry_allowed_length" int32?
    dryPenaltyLastN := es.value "dry_penalty_last_n" int32?
    dynatempRange := es.value "dynatemp_range" single?
    dynatempExponent := es.value "dynatemp_exponent" single?
    mirostat := es.value "mirostat" int32?
    mirostatTau := es.value "mirostat_tau" single?
    mirostatEta := es.value "mirostat_eta" single?
    priority := es.value "priority" Priority.ofJson? }

variable {members : List (String × Json)} {es es' : Entries}

/-- A record is read where each of its entries fits, and then each field from its own. -/
theorem read?_eq_some_iff {o : Overrides} : read? (.obj members) = some o ↔
    (∀ p ∈ kinds, Entries.Fits (fun key => members.lookup key) p.1 p.2) ∧
      ofEntries (fun key => members.lookup key) = o := by
  unfold read? kinds
  -- the fields are read in the order of the list
  repeat refine Entries.read_cons_iff ?_
  exact ⟨fun h => ⟨nofun, Option.some.inj h⟩, fun h => congrArg some h.2⟩

theorem ofEntries_congr (h : ∀ {α : Type} (key : String) (kind : Json → Option α),
    (key, isKind kind) ∈ kinds → es'.value key kind = es.value key kind) :
    ofEntries es' = ofEntries es := by
  unfold ofEntries
  congr 1 <;> exact h _ _ (by simp [kinds])

theorem isUsable_iff {key : String} {v : Json} :
    isUsable (key, v) = true ↔ ∀ p ∈ kinds, p.1 = key → v = null ∨ p.2 v = true := by
  unfold isUsable
  rw [Option.isSome_iff_exists]
  simp only [read?_eq_some_iff, exists_and_left, exists_eq', and_true]
  refine forall₂_congr fun p _ => ?_
  unfold Entries.Fits
  dsimp only
  rw [List.lookup_cons]
  by_cases hk : p.1 = key
  · simp [hk]
  · have hne : (p.1 == key) = false := beq_eq_false_iff_ne.2 hk
    simp [hk, hne]

/-- The second reading never fails. -/
theorem usable_read (members : List (String × Json)) :
    read? (.obj (members.filter isUsable)) =
      some (ofEntries fun key => (members.filter isUsable).lookup key) := by
  refine read?_eq_some_iff.2 ⟨fun p hp v hv => ?_, rfl⟩
  exact isUsable_iff.1 (List.mem_filter.1 (mem_of_lookup hv)).2 p hp rfl

/-- A key has one kind. -/
theorem kinds_unique {p q : String × (Json → Bool)} (hp : p ∈ kinds) (hq : q ∈ kinds)
    (h : p.1 = q.1) : p = q := by
  have hnodup : (kinds.map (·.1)).Nodup := by decide
  exact List.inj_on_of_nodup_map hnodup hp hq h

/-- Leaving out the members that cannot be used takes nothing from a field. -/
theorem value_usable (hkeys : (members.map (·.1)).Nodup) {α : Type} {key : String}
    {kind : Json → Option α} (hmem : (key, isKind kind) ∈ kinds) :
    Entries.value (fun key => (members.filter isUsable).lookup key) key kind =
      Entries.value (fun key => members.lookup key) key kind := by
  have hleft := lookup_filter hkeys isUsable key
  cases hv : members.lookup key with
  | none =>
    rw [hv] at hleft
    exact Entries.value_congr (hleft.trans hv.symm)
  | some v =>
    rw [hv] at hleft
    by_cases husable : isUsable (key, v) = true
    · exact Entries.value_congr ((hleft.trans (Option.filter_some_pos husable)).trans hv.symm)
    · -- the entry is left out, and would have said nothing
      have hgone := hleft.trans (Option.filter_some_neg (Bool.eq_false_iff.2 husable))
      rw [Entries.value_of_absent hgone, eq_comm]
      refine Entries.value_of_not_fits fun hfits => husable (isUsable_iff.2 fun p hp hkey => ?_)
      cases kinds_unique hp hmem hkey
      exact hfits v hv

/-- The members of an object are read as if each field had the document to itself. -/
theorem ofMembers_eq (hkeys : (members.map (·.1)).Nodup) :
    ofMembers members = (ofEntries fun key => members.lookup key).repaired := by
  unfold ofMembers
  rw [usable_read]
  exact congrArg repaired (ofEntries_congr fun _ _ hmem => value_usable hkeys hmem)

section Read

variable {text : Option String} (hread : (Text.supplied? text).bind Json.read? = some (.obj members))
include hread

theorem nodup_of_supplied : (members.map (·.1)).Nodup := by
  obtain ⟨cs, -, hcs⟩ := Option.bind_eq_some_iff.1 hread
  exact nodup_of_read? hcs

theorem parse_of_read : parse text = ofMembers members := by
  unfold parse
  rw [hread]

end Read

/-- Let a text be read as an object. The members that can be used on their own are always read as one
record, and every field says what its own entry says, brought back into its range: it is unset where
the entry is absent, null or of another kind, whatever stands under the other keys. -/
theorem parse_reads_each_field_alone {text : Option String} {members : List (String × Json)}
    (hread : (Text.supplied? text).bind Json.read? = some (.obj members)) :
    (read? (.obj (members.filter isUsable))).isSome = true ∧
      parse text = (ofEntries fun key => members.lookup key).repaired := by
  constructor
  · rw [usable_read]
    rfl
  · rw [parse_of_read hread]
    exact ofMembers_eq (nodup_of_supplied hread)

/-- One entry of a wrong kind, one that is null, one out of its range and one that is unknown. -/
theorem parse_reads_each_field_alone_mixed :
    let o := parse (some
      "\x7b\"top_k\":\"forty\",\"max_tokens\":12,\"seed\":null,\"top_p\":3,\"x\":[1]\x7d")
    o.topK = none ∧ o.maxTokens = some 12 ∧ o.seed = none ∧ o.topP = some 1.0 := by
  have hread : (Text.supplied? (some
      "\x7b\"top_k\":\"forty\",\"max_tokens\":12,\"seed\":null,\"top_p\":3,\"x\":[1]\x7d")).bind
        Json.read? = some (.obj [("top_k", .str "forty"), ("max_tokens", .int 12), ("seed", .null),
          ("top_p", .int 3), ("x", .arr [.int 1])]) := rfl
  intro o
  have ho : o = _ := (parse_reads_each_field_alone hread).2
  rw [ho]
  decide

end Overrides

end ChatInference
