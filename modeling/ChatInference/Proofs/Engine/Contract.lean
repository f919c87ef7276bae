import ChatInference.Engine.Local

/-!
What the service relies on in an engine. The contract says what an engine holds after each call on
one that holds nothing; of a load onto a model that is still there it says nothing.
-/

namespace ChatInference

/-- What an engine holds. -/
inductive Holding where
  | nothing
  /-- The model of a path, without what turns need. -/
  | model (path : String)
  /-- The model of a path, made ready for turns by a configuration. -/
  | running (path : String) (config : ModelConfig)

namespace Holding

def isLoaded : Holding → Bool
  | nothing => false
  | model _ | running _ _ => true

end Holding

class EngineContract (σ : Type) [InferenceEngine σ] where
  holds : σ → Holding → Prop
  isLoaded_eq {e : σ} {h : Holding} : holds e h → InferenceEngine.isLoaded e = h.isLoaded
  /-- Dropping the model leaves nothing, also where nothing was. -/
  unload_holds (e : σ) : holds (InferenceEngine.unload e) .nothing
  load_ok {e e' : σ} {path : String} {c : ModelConfig} {d : ModelDescription} :
    holds e .nothing → InferenceEngine.load e path c = (.ok d, e') → holds e' (.model path)
  /-- A load that fails leaves nothing behind. -/
  load_error {e e' : σ} {path : String} {c : ModelConfig} {err : EngineError} :
    holds e .nothing → InferenceEngine.load e path c = (.error err, e') → holds e' .nothing
  start_ok {e e' : σ} {path : String} {c : ModelConfig} :
    holds e (.model path) → InferenceEngine.start e c = (.ok (), e') → holds e' (.running path c)

namespace LocalEngine

/-- The model it has is the one read at the path, and its slots are those that the configuration
makes for that model. -/
def Holds (e : LocalEngine) : Holding → Prop
  | .nothing => e.loaded = none ∧ e.slots = none
  | .model path => (∃ m, e.read path = .ok m ∧ e.loaded = some m) ∧ e.slots = none
  | .running path c =>
    (∃ m, e.read path = .ok m ∧ e.loaded = some m) ∧
      (e.start c).1 = .ok () ∧ (e.start c).2.slots = e.slots

theorem isLoaded_of_holds {e : LocalEngine} {h : Holding} (hh : e.Holds h) :
    e.loaded.isSome = h.isLoaded := by
  cases h with
  | nothing =>
    rw [hh.1]
    rfl
  | model path =>
    obtain ⟨⟨m, -, hm⟩, -⟩ := hh
    rw [hm]
    rfl
  | running path c =>
    obtain ⟨⟨m, -, hm⟩, -⟩ := hh
    rw [hm]
    rfl

theorem unload_holds (e : LocalEngine) : e.unload.Holds .nothing := by
  unfold unload
  cases e.loaded with
  | none => exact ⟨rfl, rfl⟩
  | some m => exact ⟨rfl, rfl⟩

theorem load_holds {e e' : LocalEngine} {path : String} {r : Except EngineError ModelDescription}
    (he : e.Holds .nothing) (h : e.load path = (r, e')) :
    e'.Holds (match r with | .ok _ => .model path | .error _ => .nothing) := by
  unfold load at h
  cases hr : e.read path with
  | error err =>
    rw [hr] at h
    cases h
    exact he
  | ok m =>
    rw [hr] at h
    cases h
    -- what is read at a path depends on the disk alone
    exact ⟨⟨m, hr, rfl⟩, he.2⟩

/-- Making a model ready a second time changes nothing. -/
theorem start_again {e e' : LocalEngine} {c : ModelConfig} (h : e.start c = (.ok (), e')) :
    (e'.start c).1 = .ok () ∧ (e'.start c).2.slots = e'.slots := by
  unfold start at h
  split at h
  case h_1 => cases h
  case h_2 m hm =>
    by_cases hn : contextOf c.model.ctxSize m.file.contextLength = 0
    · simp only [hn, if_true] at h
      cases h
    · simp only [hn, if_false] at h
      cases h
      simp only [start, hm, hn, if_false, and_self]

theorem loaded_start {e e' : LocalEngine} {c : ModelConfig} (h : e.start c = (.ok (), e')) :
    e'.loaded = e.loaded ∧ e'.disk = e.disk := by
  unfold start at h
  split at h
  case h_1 => cases h
  case h_2 m hm =>
    dsimp only at h
    split at h
    · cases h
    · cases h
      exact ⟨rfl, rfl⟩

theorem read_congr {e e' : LocalEngine} (h : e'.disk = e.disk) (path : String) :
    e'.read path = e.read path := by
  simp only [read, readModel, readTokenizer, h]

theorem start_holds {e e' : LocalEngine} {path : String} {c : ModelConfig}
    (he : e.Holds (.model path)) (h : e.start c = (.ok (), e')) : e'.Holds (.running path c) := by
  obtain ⟨⟨m, hr, hm⟩, -⟩ := he
  obtain ⟨hloaded, hdisk⟩ := loaded_start h
  refine ⟨⟨m, ?_, hloaded.trans hm⟩, start_again h⟩
  rw [read_congr hdisk, hr]

end LocalEngine

instance : EngineContract LocalEngine where
  holds := LocalEngine.Holds
  isLoaded_eq := LocalEngine.isLoaded_of_holds
  unload_holds := LocalEngine.unload_holds
  load_ok he h := LocalEngine.load_holds he h
  load_error he h := LocalEngine.load_holds he h
  start_ok := LocalEngine.start_holds

/-- An engine whose loads and starts succeed or fail as a list says; past its end all succeed. -/
structure RehearsedEngine where
  held : Holding := .nothing
  outcomes : List Bool := []

namespace RehearsedEngine

/-- Whether the next load or start succeeds. -/
def next (e : RehearsedEngine) : Bool := e.outcomes.headD true

def load (e : RehearsedEngine) (path : String) : Except EngineError ModelDescription × RehearsedEngine :=
  if e.next then (.ok ⟨"", 0, 0⟩, ⟨.model path, e.outcomes.tail⟩)
  else (.error .notLoaded, { e with outcomes := e.outcomes.tail })

def start (e : RehearsedEngine) (c : ModelConfig) : Except EngineError Unit × RehearsedEngine :=
  match e.held, e.next with
  | .model path, true => (.ok (), ⟨.running path c, e.outcomes.tail⟩)
  | _, _ => (.error .notLoaded, { e with outcomes := e.outcomes.tail })

end RehearsedEngine

instance : InferenceEngine RehearsedEngine where
  nCtx _ := 0
  posMax _ _ := none
  remove e _ _ _ := (true, e)
  shift e _ _ _ _ := e
  clear e := e
  stamp _ _ := none
  load e path _ := e.load path
  start e c := e.start c
  releaseSlots e := e
  unload e := { e with held := .nothing }
  isLoaded e := e.held.isLoaded
  pendingTokens _ _ _ := 0
  generate e _ := (.error .notLoaded, e)

instance : EngineContract RehearsedEngine where
  holds e h := e.held = h
  isLoaded_eq h := by
    rw [← h]
    rfl
  unload_holds _ := rfl
  load_ok {e _ _ _ _} _ h := by
    change e.load _ = _ at h
    unfold RehearsedEngine.load at h
    split at h <;> cases h
    rfl
  load_error {e _ _ _ _} he h := by
    change e.load _ = _ at h
    unfold RehearsedEngine.load at h
    split at h <;> cases h
    exact he
  start_ok {e _ path c} he h := by
    change e.start c = _ at h
    change e.held = .model path at he
    unfold RehearsedEngine.start at h
    rw [he] at h
    cases hn : e.next <;> rw [hn] at h <;> cases h
    rfl

end ChatInference
