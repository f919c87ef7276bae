import ChatInference.Proofs.Service.Loads

/-!
Where the model in use comes from. Loads that succeed are numbered one after the other, whatever
fails in between, and the configuration is what their texts make of the initial one, laid over it in
turn from the last load on that found no model.
-/

namespace ChatInference

/-- A text that is refused once does to any parameters what a missing one does. -/
theorem ModelConfig.mergeOrKeep_of_refused {base : ModelConfig} {text : Option String}
    {err : ConfigError} (h : base.merge text = .error err) (c : ModelConfig) :
    c.mergeOrKeep text = c.mergeOrKeep none := by
  change _ = c
  unfold merge at h
  unfold mergeOrKeep merge
  cases hs : Text.supplied? text with
  | none => rfl
  | some cs =>
    rw [hs] at h
    dsimp only at h ⊢
    cases hj : Json.read? cs with
    | none => rfl
    | some root =>
      rw [hj] at h
      dsimp only at h ⊢
      cases hr : Given.read root with
      | error err => rfl
      | ok given =>
        rw [hr] at h
        cases h

namespace Switch

variable {σ : Type}

/-- A load that succeeded: its number, its text, and whether it replaced a model. -/
structure Success where
  graph : GraphId
  text : Option String
  replaced : Bool

/-- The number of the load that succeeds after `n` others: words from one on. -/
def numberAfter (n : Nat) : GraphId := n % (UInt32.size - 1) + 1

theorem nextGraph_numberAfter (n : Nat) :
    ModelState.nextGraph (numberAfter n) = numberAfter (n + 1) := by
  change max 1 ((n % 4294967295 + 1 + 1) % 4294967296) = (n + 1) % 4294967295 + 1
  omega

/-- A configuration made by the last load that found no model, and by those that replaced it since. -/
def Descends (log : List Success) (config : ModelConfig) : Prop :=
  ∃ earlier first later, log = earlier ++ first :: later ∧ first.replaced = false ∧
    (∀ l ∈ later, l.replaced = true) ∧
    config = ((first :: later).map (·.text)).foldl ModelConfig.mergeOrKeep .initial

theorem descends_first (log : List Success) {l : Success} (h : l.replaced = false) :
    Descends (log ++ [l]) (ModelConfig.initial.mergeOrKeep l.text) :=
  ⟨log, l, [], rfl, h, List.forall_mem_nil _, rfl⟩

theorem Descends.replaced {log : List Success} {config : ModelConfig} (h : Descends log config)
    {l : Success} (hl : l.replaced = true) :
    Descends (log ++ [l]) (config.mergeOrKeep l.text) := by
  obtain ⟨earlier, first, later, rfl, hfirst, hlater, rfl⟩ := h
  refine ⟨earlier, first, later ++ [l], ?_, hfirst, ?_, ?_⟩
  · rw [List.append_assoc, List.cons_append]
  · intro k hk
    rcases List.mem_append.1 hk with hk | hk
    · exact hlater k hk
    · rw [List.mem_singleton.1 hk]
      exact hl
  · rw [← List.cons_append, List.map_append, List.foldl_append]
    rfl

/-- What the loads that succeeded so far say of a switch between two calls. -/
structure Recorded (log : List Success) (s : Switch σ) : Prop where
  idle : s.loading = false
  numbers : log.map (·.graph) = (List.range log.length).map numberAfter
  next : ModelState.nextGraph s.state.graph = numberAfter log.length
  descends : s.state.status = .ready → Descends log s.state.config

variable {log : List Success} {s : Switch σ}

/-- Where no load succeeds, the number stays, and so does the configuration of a model in use. -/
theorem Recorded.unlogged (h : Recorded log s) {s' : Switch σ} (hl : s'.loading = false)
    (hgraph : s'.state.graph = s.state.graph)
    (hdesc : s'.state.status = .ready → Descends log s'.state.config) :
    Recorded (log ++ (none : Option Success).toList) s' := by
  rw [Option.toList_none, List.append_nil]
  refine ⟨hl, h.numbers, ?_, hdesc⟩
  rw [hgraph]
  exact h.next

theorem recorded_loaded (h : Recorded log s) (e : σ) (path : String) (stamp : Option FileStamp)
    (d : ModelDescription) (text : Option String) :
    Recorded (log ++ [⟨ModelState.nextGraph s.state.graph, text, s.replaces⟩])
      (⟨e, s.state.refresh path stamp d (s.base.mergeOrKeep text), false, false⟩ : Switch σ) := by
  refine ⟨rfl, ?_, ?_, fun _ => ?_⟩
  · rw [List.map_append, h.numbers, List.length_append, List.length_singleton, List.range_succ,
      List.map_append, List.map_singleton, List.map_singleton, h.next]
  · change ModelState.nextGraph (ModelState.nextGraph s.state.graph) = _
    rw [h.next, nextGraph_numberAfter, List.length_append, List.length_singleton]
  · -- the text is laid over what a replaced model had, and over the initial one where there was none
    change Descends _ (s.base.mergeOrKeep text)
    unfold base
    cases hr : s.replaces with
    | true => exact (h.descends (of_decide_eq_true hr)).replaced rfl
    | false => exact descends_first log rfl

variable [InferenceEngine σ]

def success? (s : Switch σ) : Call → Option Success
  | .load path text =>
    match (s.load path text).1 with
    | .ok graph => some ⟨graph, text, s.replaces⟩
    | .error _ => none
  | .unload => none

/-- The loads of a run that succeeded, in their order. -/
def successes (s : Switch σ) : List Call → List Success
  | [] => []
  | c :: calls => (s.success? c).toList ++ (s.call c).successes calls

theorem recorded_call (h : Recorded log s) (c : Call) :
    Recorded (log ++ (s.success? c).toList) (s.call c) := by
  cases c with
  | unload => exact h.unlogged h.idle rfl nofun
  | load path text =>
    have hend := s.load_end path text
    unfold success? call
    dsimp only
    generalize s.load path text = r at hend ⊢
    cases hend with
    | refused hl =>
      rw [h.idle] at hl
      cases hl
    | loaded hl e d => exact recorded_loaded h e path _ d text
    | notLoaded hl hs e err => exact h.unlogged rfl rfl h.descends
    | restored hl hs hback e err => exact h.unlogged rfl rfl h.descends
    | lost hl hs hback e err again => exact h.unlogged rfl rfl nofun

theorem recorded_after (e : σ) (calls : List Call) :
    Recorded (successes { engine := e } calls) (after e calls) := by
  have hrun (log : List Success) (s : Switch σ) (h : Recorded log s) :
      Recorded (log ++ s.successes calls) (calls.foldl call s) := by
    -- over the calls still to come
    induction calls generalizing log s with
    | nil =>
      rw [successes, List.append_nil]
      exact h
    | cons c calls ih =>
      have hrest := ih _ _ (recorded_call h c)
      rwa [List.append_assoc] at hrest
  exact hrun [] _ ⟨rfl, rfl, rfl, nofun⟩

/-- Over any run of loads and unloads, with any failures of the engine, the loads that succeed are
numbered by consecutive words from one on. After each of them the configuration is the initial one
with the texts of the loads that succeeded laid over it in turn, from the last one on that found no
model to replace; a refused text does what a missing one does. -/
theorem loads_fold (e : σ) (calls : List Call) :
    (successes { engine := e } calls).map (·.graph) =
        (List.range (successes { engine := e } calls).length).map
          (fun i => i % (UInt32.size - 1) + 1) ∧
      (∀ path text graph, ((after e calls).load path text).1 = .ok graph →
        ∃ earlier first later,
          successes { engine := e } (calls ++ [.load path text]) = earlier ++ first :: later ∧
            first.replaced = false ∧ (∀ l ∈ later, l.replaced = true) ∧
            ((after e calls).load path text).2.state.config =
              ((first :: later).map (·.text)).foldl ModelConfig.mergeOrKeep .initial) ∧
      ∀ (base : ModelConfig) text err, base.merge text = .error err →
        ∀ c : ModelConfig, c.mergeOrKeep text = c.mergeOrKeep none := by
  refine ⟨(recorded_after e calls).numbers, fun path text graph hok => ?_, ?_⟩
  · have hnext := recorded_after e (calls ++ [.load path text])
    have hafter : after e (calls ++ [.load path text]) = ((after e calls).load path text).2 :=
      List.foldl_concat _ _ _ _
    rw [hafter] at hnext
    apply hnext.descends
    have hend := (after e calls).load_end path text
    generalize (after e calls).load path text = r at hend hok ⊢
    cases hend with
    | loaded hl e d => rfl
    | refused hl => cases hok
    | notLoaded hl hs e err => cases hok
    | restored hl hs hback e err => cases hok
    | lost hl hs hback e err again => cases hok
  · exact fun base text err h c => ModelConfig.mergeOrKeep_of_refused h c

/-- A load that fails gives way to the model before, a dropped model is followed by a load that fails
and one that succeeds, and another replaces that one with a text that is refused. -/
theorem loads_fold_after_failures :
    let e : RehearsedEngine :=
      { outcomes := [true, true, false, true, true, true, true, false, true, true] }
    let text := some "\x7b\"n_predict\": 5\x7d"
    let calls : List Call := [.load "a" none, .load "b" text, .load "b" text, .unload,
      .load "a" none, .load "c" text]
    (successes { engine := e } calls).map (·.graph) = [1, 2, 3] ∧
      ((after e calls).load "d" (some "x")).1 = .ok 4 ∧
      ((after e calls).load "d" (some "x")).2.state.config.model.predict = 5 ∧
      (∃ earlier first later,
        successes { engine := e } (calls ++ [.load "d" (some "x")]) = earlier ++ first :: later ∧
          first.replaced = false ∧ (∀ l ∈ later, l.replaced = true) ∧
          ((after e calls).load "d" (some "x")).2.state.config =
            ((first :: later).map (·.text)).foldl ModelConfig.mergeOrKeep .initial) ∧
      ∀ c : ModelConfig, c.mergeOrKeep (some "x") = c.mergeOrKeep none := by
  intro e text calls
  have hok : ((after e calls).load "d" (some "x")).1 = .ok 4 := by decide +kernel
  have hpredict : ((after e calls).load "d" (some "x")).2.state.config.model.predict = 5 := by decide +kernel
  have hcount : (successes { engine := e } calls).length = 3 := by decide +kernel
  have hrefused : ModelConfig.initial.merge (some "x") = .error .notJson := rfl
  obtain ⟨hnumbers, hfold, hkeep⟩ := loads_fold e calls
  refine ⟨?_, hok, hpredict, hfold "d" (some "x") 4 hok, ?_⟩
  · rw [hnumbers, hcount]
    rfl
  · exact hkeep .initial (some "x") .notJson hrefused

end Switch

end ChatInference
