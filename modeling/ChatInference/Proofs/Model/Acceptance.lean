import ChatInference.Proofs.Model.Spellings

/-!
Which texts are accepted. That is seen from the text alone, whatever the parameters are: the document is
an object, never an array of entries by position, every entry is of its kind, and windows and breakers
are sound. An accepted document is laid over the parameters as its spellings say.
-/

namespace ChatInference

open Json

/-! Objects. -/

namespace Json

variable {root v : Json} {key : String}

theorem isObj_of_nested? (h : root.nested? key = some v) : v.isObj = true :=
  (Option.filter_eq_some_iff.1 h).2

theorem isObj_sectionOf (h : root.isObj = true) : (root.sectionOf key).isObj = true := by
  unfold sectionOf
  cases hv : root.nested? key with
  | none => exact h
  | some v => exact isObj_of_nested? hv

/-- A record that is no object is an array with one item per key. -/
theorem entries?_of_not_isObj (h : v.isObj = false) {keys : List String} {es : Entries}
    (hes : v.entries? keys = some es) : ∃ items, v = arr items ∧ items.length = keys.length := by
  cases v with
  | arr items => exact ⟨items, rfl, (Option.ite_none_right_eq_some.1 hes).1⟩
  | obj members => cases h
  | _ => cases hes

theorem Entries.value_eq_bind {α : Type} {es : Entries} {kind : Json → Option α}
    (hnull : kind null = none) : es.value key kind = (es key).bind kind := by
  unfold value
  cases es key with
  | none => rfl
  | some v =>
    cases v with
    | null => exact hnull.symm
    | _ => rfl

end Json

namespace ModelConfig

theorem bind_eq_ok {ε α β : Type} {x : Except ε α} {f : α → Except ε β} {b : β}
    (h : (x >>= f) = .ok b) : ∃ a, x = .ok a ∧ f a = .ok b := by
  cases x with
  | error err => cases h
  | ok a => exact ⟨a, rfl, h⟩

theorem orMalformed_eq_ok {α : Type} {part : String} {x : Option α} {a : α}
    (h : orMalformed part x = .ok a) : x = some a := by
  cases x with
  | none => cases h
  | some a' => cases h; rfl

/-- The model's record has eight entries and the flat one four, so that no array is both. -/
theorem isObj_of_read {root : Json} {g : GivenParams} {flat : GivenSampling}
    (hmodel : GivenParams.read? (root.sectionOf "model") = some g)
    (hflat : GivenSampling.readFlat? root = some flat) : root.isObj = true := by
  by_contra hroot
  have hnot : root.isObj = false := Bool.eq_false_iff.2 hroot
  obtain ⟨es, hes, -⟩ := Option.bind_eq_some_iff.1 hflat
  obtain ⟨items, rfl, hfour⟩ := entries?_of_not_isObj hnot hes
  obtain ⟨es', hes', -⟩ := Option.bind_eq_some_iff.1 hmodel
  have height : items.length = paramKeys.length := (Option.ite_none_right_eq_some.1 hes').1
  rw [hfour] at height
  cases height

/-- A window is `-1` or a length, and the list of breakers is not empty. -/
structure GivenSampling.Sound (g : GivenSampling) : Prop where
  penalty : ∀ n, g.penaltyLastN = some n → -1 ≤ n
  dryPenalty : ∀ n, g.dryPenaltyLastN = some n → -1 ≤ n
  breakers : g.dryBreakers ≠ some []

theorem le_of_checkWindow {key : String} {given : Option Int} (h : checkWindow key given = .ok ())
    {n : Int} (hn : given = some n) : -1 ≤ n := by
  subst hn
  unfold checkWindow at h
  dsimp only at h
  split at h
  · cases h
  case isFalse hle => exact Int.not_lt.1 hle

theorem GivenSampling.sound_of_check {g : GivenSampling} (h : g.check = .ok ()) : g.Sound := by
  unfold check at h
  obtain ⟨⟨⟩, hpenalty, h⟩ := bind_eq_ok h
  obtain ⟨⟨⟩, hdry, h⟩ := bind_eq_ok h
  refine ⟨fun n => le_of_checkWindow hpenalty, fun n => le_of_checkWindow hdry, fun hnone => ?_⟩
  rw [if_pos hnone] at h
  cases h

theorem biasesOf?_eq (root : Json) :
    biasesOf? root = (Place.root.entries root).value "logit_bias" biases? := by
  rw [Entries.value_eq_bind rfl]
  exact Option.map_bind

/-- A section is read as its entries say, and one that is missing has none. -/
theorem section_bind_eq_ok {α β : Type} {root : Json} {key part : String} {read : Json → Option α}
    (ofEntries : Entries → α) {f : α → Except ConfigError β} {b : β}
    (hread : ∀ {v : Json}, v.isObj = true → ∀ {a : α}, read v = some a → a = ofEntries fun k => v.get? k)
    (h : (match root.nested? key with
      | some v => orMalformed part (read v) >>= f
      | none => pure (ofEntries fun _ => none) >>= f) = .ok b) :
    f (ofEntries fun k => (root.nested? key).bind (·.get? k)) = .ok b := by
  cases hv : root.nested? key with
  | none =>
    rw [hv] at h
    exact h
  | some v =>
    rw [hv] at h
    obtain ⟨a, ha, h⟩ := bind_eq_ok h
    rw [hread (isObj_of_nested? hv) (orMalformed_eq_ok ha)] at h
    exact h

/-- A document that is accepted is an object, is read as its spellings say, and passes its checks. -/
theorem Given.read_eq_ok {root : Json} {g : Given} (h : Given.read root = .ok g) :
    root.isObj = true ∧ g = .ofDocument root ∧ g.sampling.Sound := by
  unfold Given.read at h
  obtain ⟨params, hparams, h⟩ := bind_eq_ok h
  obtain ⟨flat, hflat, h⟩ := bind_eq_ok h
  have hroot := isObj_of_read (orMalformed_eq_ok hparams) (orMalformed_eq_ok hflat)
  replace h := section_bind_eq_ok
    (fun es => (GivenSampling.ofEntries es, es.value "ignore_eos" bool?))
    GivenSampling.read?_of_isObj h
  obtain ⟨⟨⟩, hcheck, h⟩ := bind_eq_ok h
  replace h := section_bind_eq_ok GivenStopping.ofEntries GivenStopping.read?_of_isObj h
  cases h
  refine ⟨hroot, ?_, GivenSampling.sound_of_check hcheck⟩
  rw [GivenParams.read?_of_isObj (isObj_sectionOf hroot) (orMalformed_eq_ok hparams),
    GivenSampling.readFlat?_of_isObj hroot (orMalformed_eq_ok hflat), biasesOf?_eq]
  rfl

/-- The document of a text that is accepted. -/
def document? (text : Option String) : Option Json :=
  ((Text.supplied? text).bind Json.read?).filter fun root => (Given.read root).isOk

/-- What a text gives each parameter: nothing, where it is missing or refused. -/
def given (text : Option String) : Settings :=
  match document? text with
  | some root => root.settings
  | none => .none

theorem read_of_document? {text : Option String} {root : Json} (h : document? text = some root) :
    (Text.supplied? text).bind Json.read? = some root ∧ Given.read root = .ok (.ofDocument root) := by
  obtain ⟨hread, hok⟩ := Option.filter_eq_some_iff.1 h
  refine ⟨hread, ?_⟩
  cases hg : Given.read root with
  | error err => rw [hg] at hok; cases hok
  | ok g => rw [(Given.read_eq_ok hg).2.1]

section Merge

variable {base c : ModelConfig} {text : Option String} {root : Json}

theorem merge_of_missing (h : Text.supplied? text = none) : merge base text = .ok base := by
  unfold merge
  rw [h]

/-- An accepted document is laid over any parameters. -/
theorem merge_of_document? (h : document? text = some root) :
    merge base text = .ok (base.set root.settings).resolve := by
  obtain ⟨hread, hok⟩ := read_of_document? h
  obtain ⟨cs, hs, hr⟩ := Option.bind_eq_some_iff.1 hread
  unfold merge
  rw [hs]
  dsimp only
  rw [hr]
  dsimp only
  rw [hok, ← Given.apply_ofDocument]
  rfl

/-- A text that is merged is missing or has an accepted document. -/
theorem accepted_of_merge (h : merge base text = .ok c) :
    Text.supplied? text = none ∨ ∃ root, document? text = some root := by
  unfold merge at h
  unfold document?
  cases hs : Text.supplied? text with
  | none => exact .inl rfl
  | some cs =>
    rw [hs] at h
    dsimp only at h
    cases hr : Json.read? cs with
    | none => rw [hr] at h; cases h
    | some root =>
      rw [hr] at h
      dsimp only at h
      cases hg : Given.read root with
      | error err => rw [hg] at h; cases h
      | ok g =>
        have hok : (Given.read root).isOk = true := by rw [hg]; rfl
        exact .inr ⟨root, (congrArg (Option.filter _) hr).trans (Option.filter_some_pos hok)⟩

theorem merge_cases (h : merge base text = .ok c) :
    (Text.supplied? text = none ∧ c = base) ∨
      ∃ root, document? text = some root ∧ c = (base.set root.settings).resolve := by
  obtain hs | ⟨root, hroot⟩ := accepted_of_merge h
  · rw [merge_of_missing hs] at h
    exact .inl ⟨hs, (Except.ok.inj h).symm⟩
  · rw [merge_of_document? hroot] at h
    exact .inr ⟨root, hroot, (Except.ok.inj h).symm⟩

end Merge

/-- Parameters that are resolved take what a text gives them. -/
theorem mergeOrKeep_of_resolved {base : ModelConfig} (hbase : base.resolve = base)
    (text : Option String) : base.mergeOrKeep text = (base.set (given text)).resolve := by
  unfold mergeOrKeep given
  cases hroot : document? text with
  | some root => rw [merge_of_document? hroot]
  | none =>
    rw [set_none, hbase]
    cases hm : merge base text with
    | error err => rfl
    | ok c =>
      obtain ⟨-, rfl⟩ | ⟨root, hsome, -⟩ := merge_cases hm
      · rfl
      · rw [hroot] at hsome
        cases hsome

theorem mergeOrKeep_resolved {base : ModelConfig} (hbase : base.resolve = base)
    (text : Option String) : (base.mergeOrKeep text).resolve = base.mergeOrKeep text := by
  rw [mergeOrKeep_of_resolved hbase, resolve_resolve]

/-- Texts merged one after the other leave the parameters resolved. -/
theorem merges_resolved (texts : List (Option String)) :
    (texts.foldl mergeOrKeep initial).resolve = texts.foldl mergeOrKeep initial :=
  List.foldlRecOn (motive := fun c => c.resolve = c) texts mergeOrKeep resolve_resolve
    fun _ hc text _ => mergeOrKeep_resolved hc text

end ModelConfig

end ChatInference
