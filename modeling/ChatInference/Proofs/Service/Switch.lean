import ChatInference.Proofs.Engine.Contract
import ChatInference.Service.Basic

/-!
The model state and the engine over runs of loads and unloads: whatever fails on the way, between two
calls the state says exactly what the engine holds.
-/

namespace ChatInference

variable {σ : Type}

namespace Switch

variable [InferenceEngine σ]

/-- One call of a load, refused while another is running. -/
def load (s : Switch σ) (path : String) (text : Option String) :
    Except Error GraphId × Switch σ :=
  match s.begin with
  | .error e => (.error e, s)
  | .ok s =>
    let (r, s) := s.replace path text
    (r, s.finish)

/-- What is asked of a switch. -/
inductive Call where
  | load (path : String) (text : Option String)
  | unload

def call (s : Switch σ) : Call → Switch σ
  | .load path text => (s.load path text).2
  | .unload => s.unload

/-- The switch after a run of calls, started with no model. -/
def after (e : σ) (calls : List Call) : Switch σ := calls.foldl call { engine := e }

end Switch

/-- The service's own load replaces the model in the same way. -/
theorem Service.load_eq_switch_load [InferenceEngine σ] (s : Service σ) (path : String)
    (text : Option String) :
    (s.load path text).1 = (s.model.load path text).1 ∧
      (s.load path text).2.model = (s.model.load path text).2 := by
  have hcancel (ids : List SessionId) (s : Service σ) :
      (ids.foldl Service.cancelTasksOf s).model = s.model := by
    induction ids generalizing s with
    | nil => rfl
    | cons id ids ih => exact ih (s.cancelTasksOf id)
  unfold Service.load Switch.load
  cases s.model.begin with
  | error e => exact ⟨rfl, rfl⟩
  | ok model =>
    dsimp only
    cases h : model.replace path text with
    | mk r m =>
      cases r with
      | error e => exact ⟨rfl, rfl⟩
      | ok graph =>
        refine ⟨rfl, ?_⟩
        dsimp only [Service.onModelReplaced]
        rw [hcancel]

namespace Switch

variable [InferenceEngine σ] [EngineContract σ]

open EngineContract (holds)

/-- What the engine holds by the word of the state. -/
def Agrees (state : ModelState) (e : σ) : Prop :=
  match state.status with
  | .ready => ∃ path, state.path = some path ∧ holds e (.running path state.config)
  | .empty | .unstable => holds e .nothing
  | .switching => False

theorem agrees_ready {state : ModelState} {e : σ} {path : String} (hs : state.status = .ready)
    (hp : state.path = some path) (he : holds e (.running path state.config)) : Agrees state e := by
  rw [Agrees, hs]
  exact ⟨path, hp, he⟩

/-- Bringing a model up on an engine without one leaves it running, or nothing at all. -/
theorem bringUp_holds {e e' : σ} {path : String} {c : ModelConfig}
    {r : Except EngineError ModelDescription} (he : holds e .nothing)
    (h : bringUp e path c = (r, e')) :
    holds e' (match r with | .ok _ => .running path c | .error _ => .nothing) := by
  unfold bringUp at h
  split at h
  case h_1 err e1 hl =>
    cases h
    exact EngineContract.load_error he hl
  case h_2 d e1 hl =>
    have hm : holds e1 (.model path) := EngineContract.load_ok he hl
    split at h
    case h_1 u e2 hr =>
      cases h
      exact EngineContract.start_ok hm hr
    case h_2 err e2 hr =>
      -- a model that does not start is taken out again
      cases h
      exact EngineContract.unload_holds e2

theorem agrees_refreshed {s : Switch σ} {e : σ} {path : String} {d : ModelDescription}
    {c : ModelConfig} (he : holds e (.running path c)) :
    Agrees (s.refreshed e path d c).2.state (s.refreshed e path d c).2.engine :=
  agrees_ready rfl rfl he

/-- A failed first load leaves the state alone, which then names no model in use. -/
theorem agrees_firstLoad {s : Switch σ} (h : Agrees s.state s.engine)
    (hr : s.state.status ≠ .ready) (path : String) (text : Option String) :
    Agrees (s.firstLoad path text).2.state (s.firstLoad path text).2.engine := by
  unfold firstLoad
  dsimp only
  cases hb : bringUp (InferenceEngine.unload (InferenceEngine.releaseSlots s.engine)) path
      (ModelConfig.initial.mergeOrKeep text) with
  | mk r e =>
    have he := bringUp_holds (EngineContract.unload_holds _) hb
    cases r with
    | ok d => exact agrees_refreshed he
    | error err =>
      -- the state keeps its status, which already spoke of an engine with nothing
      unfold Agrees at h ⊢
      cases hs : s.state.status with
      | empty => exact he
      | unstable => exact he
      | ready => exact absurd hs hr
      | switching =>
        rw [hs] at h
        exact h.elim

theorem agrees_restore {s : Switch σ} {e : σ} (he : holds e .nothing) (err : EngineError) :
    Agrees (s.restore e err).2.state (s.restore e err).2.engine := by
  -- nothing is asked of the state before: the restore writes its status in every case
  unfold restore
  cases hp : s.state.path with
  | none => exact he
  | some path =>
    dsimp only
    cases hb : bringUp e path s.state.config with
    | mk r e' =>
      have he' := bringUp_holds he hb
      cases r with
      | ok d => exact agrees_ready rfl hp he'
      | error again => exact he'

theorem agrees_hotSwap (s : Switch σ) (path : String) (text : Option String) :
    Agrees (s.hotSwap path text).2.state (s.hotSwap path text).2.engine := by
  unfold hotSwap
  dsimp only
  cases hb : bringUp
      (InferenceEngine.unload (KvCache.clear (InferenceEngine.releaseSlots s.engine))) path
      (s.state.config.mergeOrKeep text) with
  | mk r e =>
    have he := bringUp_holds (EngineContract.unload_holds _) hb
    cases r with
    | ok d => exact agrees_refreshed he
    | error err => exact agrees_restore he err

theorem agrees_replace {s : Switch σ} (h : Agrees s.state s.engine) (path : String)
    (text : Option String) :
    Agrees (s.replace path text).2.state (s.replace path text).2.engine := by
  unfold replace replaces
  by_cases hr : s.state.status = .ready
  · rw [if_pos (decide_eq_true hr)]
    exact agrees_hotSwap s path text
  · rw [if_neg (by rwa [decide_eq_true_eq])]
    exact agrees_firstLoad h hr path text

/-- What holds between calls: no load is running, and the state is right about the engine. -/
structure Settled (s : Switch σ) : Prop where
  loading : s.loading = false
  exclusive : s.exclusive = false
  agrees : Agrees s.state s.engine

theorem settled_call {s : Switch σ} (h : s.Settled) (c : Call) : (s.call c).Settled := by
  cases c with
  | unload => exact ⟨h.loading, h.exclusive, EngineContract.unload_holds _⟩
  | load path text =>
    have hb : s.begin = .ok { s with loading := true } := by
      rw [begin, h.loading]
      rfl
    have ha := agrees_replace (s := { s with loading := true }) h.agrees path text
    rw [call, load, hb]
    exact ⟨rfl, rfl, ha⟩

theorem settled_after {e : σ} (he : holds e .nothing) (calls : List Call) :
    (after e calls).Settled := by
  have hrun (s : Switch σ) (h : s.Settled) : (calls.foldl call s).Settled := by
    -- over the calls still to come, from any settled switch
    induction calls generalizing s with
    | nil => exact h
    | cons c calls ih => exact ih (s.call c) (settled_call h c)
  exact hrun _ ⟨rfl, rfl, he⟩

/-- After any run of loads and unloads, with any failures of the engine, the status is ready exactly
when the engine has a model running, which then is the one of the state's path, made ready by the
state's configuration. Otherwise the status is empty or unstable, the engine has no model, and the
state refuses to lend one or to name its graph. -/
theorem status_agrees_with_engine {e : σ} (he : holds e .nothing) (calls : List Call) :
    let s := after e calls
    (s.snapshot.status = .ready ↔ ∃ path c, holds s.engine (.running path c)) ∧
      (s.snapshot.status = .ready →
        ∃ path, s.state.path = some path ∧ holds s.engine (.running path s.state.config)) ∧
      (s.snapshot.status ≠ .ready →
        (s.snapshot.status = .empty ∧ s.state.usable = .error ModelState.noModel ∨
          s.snapshot.status = .unstable ∧ s.state.usable = .error ModelState.noUsableModel) ∧
        holds s.engine .nothing ∧ InferenceEngine.isLoaded s.engine = false) := by
  obtain ⟨-, hexcl, hag⟩ := settled_after he calls
  intro s
  have hsnap : s.snapshot = s.state := by
    rw [snapshot, hexcl]
    rfl
  -- an engine with a model says so, and one with nothing does not
  have hnone (hn : holds s.engine .nothing) : ¬∃ path c, holds s.engine (.running path c) := by
    rintro ⟨path, c, hr⟩
    have h1 := EngineContract.isLoaded_eq hn
    have h2 := EngineContract.isLoaded_eq hr
    rw [h1] at h2
    cases h2
  change Agrees s.state s.engine at hag
  rw [hsnap]
  unfold Agrees at hag
  cases hs : s.state.status with
  | switching =>
    rw [hs] at hag
    exact hag.elim
  | ready =>
    rw [hs] at hag
    obtain ⟨path, hp, hr⟩ := hag
    exact ⟨⟨fun _ => ⟨path, _, hr⟩, fun _ => rfl⟩, fun _ => ⟨path, hp, hr⟩,
      fun h => absurd rfl h⟩
  | empty =>
    rw [hs] at hag
    have hne : ModelStatus.empty ≠ .ready := by decide
    have hu : s.state.usable = .error ModelState.noModel := by rw [ModelState.usable, hs]
    exact ⟨⟨fun h => absurd h hne, fun h => absurd h (hnone hag)⟩, fun h => absurd h hne,
      fun _ => ⟨.inl ⟨rfl, hu⟩, hag, EngineContract.isLoaded_eq hag⟩⟩
  | unstable =>
    rw [hs] at hag
    have hne : ModelStatus.unstable ≠ .ready := by decide
    have hu : s.state.usable = .error ModelState.noUsableModel := by rw [ModelState.usable, hs]
    exact ⟨⟨fun h => absurd h hne, fun h => absurd h (hnone hag)⟩, fun h => absurd h hne,
      fun _ => ⟨.inr ⟨rfl, hu⟩, hag, EngineContract.isLoaded_eq hag⟩⟩

end Switch

/-- A load, one whose model does not start and gives way to the first again, and one that fails with
its restore; another load then recovers. -/
theorem status_agrees_after_failures :
    let e : RehearsedEngine := { outcomes := [true, true, true, false, true, true, false, false] }
    let calls : List Switch.Call := [.load "a" none, .load "b" none, .load "c" none]
    EngineContract.holds e .nothing ∧ (Switch.after e calls).snapshot.status = .unstable ∧
      EngineContract.holds (Switch.after e calls).engine .nothing ∧
      (Switch.after e (calls ++ [.load "d" none])).snapshot.status = .ready ∧
      ∃ path, (Switch.after e (calls ++ [.load "d" none])).state.path = some path ∧
        EngineContract.holds (Switch.after e (calls ++ [.load "d" none])).engine
          (.running path (Switch.after e (calls ++ [.load "d" none])).state.config) := by
  intro e calls
  have he : EngineContract.holds e .nothing := rfl
  have hfail := Switch.status_agrees_with_engine he calls
  have hback := Switch.status_agrees_with_engine he (calls ++ [.load "d" none])
  have hunstable : (Switch.after e calls).snapshot.status = .unstable := rfl
  have hready : (Switch.after e (calls ++ [.load "d" none])).snapshot.status = .ready := rfl
  refine ⟨he, hunstable, (hfail.2.2 ?_).2.1, hready, hback.2.1 hready⟩
  rw [hunstable]
  decide

end ChatInference
