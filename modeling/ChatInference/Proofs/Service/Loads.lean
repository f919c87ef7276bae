import ChatInference.Proofs.Queue.Waiting
import ChatInference.Proofs.Service.Switch

/-!
How a load may end, on any engine. One that fails leaves the model state as it was, but for the
status where the model before does not come back, and touches nothing else of the service. One that
succeeds ends all sessions, and every task that waits for one of them is answered once.
-/

namespace ChatInference

variable {σ : Type}

namespace Switch

variable [InferenceEngine σ]

/-- The configuration that the text of a load is laid over. -/
def base (s : Switch σ) : ModelConfig := if s.replaces then s.state.config else .initial

/-- The model before, brought up again where a load has failed. -/
def bringBack (s : Switch σ) (e : σ) (err : EngineError) :
    Except EngineError ModelDescription × σ :=
  match s.state.path with
  | some previous => bringUp e previous s.state.config
  | none => (.error err, e)

/-- Whether a load that replaces a model fails with that model back in place. -/
def comesBack (s : Switch σ) (path : String) (text : Option String) : Bool :=
  let e := InferenceEngine.unload (KvCache.clear (InferenceEngine.releaseSlots s.engine))
  match bringUp e path (s.state.config.mergeOrKeep text) with
  | (.error err, e) => (s.bringBack e err).1.isOk
  | (.ok _, _) => false

/-- All that a load may come to. -/
inductive LoadEnd (s : Switch σ) (path : String) (text : Option String) :
    Except Error GraphId × Switch σ → Prop where
  | refused (hl : s.loading = true) : LoadEnd s path text (.error .alreadyInProgress, s)
  | loaded (hl : s.loading = false) (e : σ) (d : ModelDescription) :
      LoadEnd s path text (.ok (ModelState.nextGraph s.state.graph),
        ⟨e, s.state.refresh path (InferenceEngine.stamp e path) d (s.base.mergeOrKeep text), false,
          false⟩)
  /-- There was no model to replace. -/
  | notLoaded (hl : s.loading = false) (hs : s.state.status ≠ .ready) (e : σ) (err : EngineError) :
      LoadEnd s path text (.error (.ofEngine err), ⟨e, s.state, false, false⟩)
  | restored (hl : s.loading = false) (hs : s.state.status = .ready)
      (hback : s.comesBack path text = true) (e : σ) (err : EngineError) :
      LoadEnd s path text
        (.error (.runtime s!"model switch failed ({err.message}); previous model restored"),
          ⟨e, s.state, false, false⟩)
  /-- Neither the new model nor the one before is there. -/
  | lost (hl : s.loading = false) (hs : s.state.status = .ready)
      (hback : s.comesBack path text = false) (e : σ) (err again : EngineError) :
      LoadEnd s path text
        (.error (.unstable
            s!"model switch failed ({err.message}) and restore failed ({again.message})"),
          ⟨e, { s.state with status := .unstable }, false, false⟩)

variable {s : Switch σ} {path : String} {text : Option String}

theorem loadEnd_firstLoad (hl : s.loading = false) (hs : s.state.status ≠ .ready) :
    let out := { s with loading := true }.firstLoad path text
    LoadEnd s path text (out.1, out.2.finish) := by
  have hbase : s.base = .initial := if_neg (by rwa [replaces, decide_eq_true_eq])
  unfold firstLoad
  dsimp only
  cases hb : bringUp (InferenceEngine.unload (InferenceEngine.releaseSlots s.engine)) path
      (ModelConfig.initial.mergeOrKeep text) with
  | mk r e =>
    cases r with
    | ok d =>
      rw [← hbase]
      exact .loaded hl e d
    | error err => exact .notLoaded hl hs e err

theorem restore_eq (s : Switch σ) (e : σ) (err : EngineError) :
    s.restore e err =
      match s.bringBack e err with
      | (.ok _, e) =>
        (.error (.runtime s!"model switch failed ({err.message}); previous model restored"),
          { s with engine := e, state := { s.state with status := .ready } })
      | (.error again, e) =>
        (.error (.unstable
            s!"model switch failed ({err.message}) and restore failed ({again.message})"),
          { s with engine := e, state := { s.state with status := .unstable } }) := by
  unfold restore bringBack
  cases s.state.path with
  | none => rfl
  | some previous =>
    dsimp only
    cases bringUp e previous s.state.config with
    | mk r e => cases r <;> rfl

theorem loadEnd_hotSwap (hl : s.loading = false) (hs : s.state.status = .ready) :
    let out := { s with loading := true }.hotSwap path text
    LoadEnd s path text (out.1, out.2.finish) := by
  have hbase : s.base = s.state.config := if_pos (decide_eq_true hs)
  have hready : { s.state with status := .ready } = s.state := by rw [← hs]
  unfold hotSwap
  dsimp only
  cases hb : bringUp
      (InferenceEngine.unload (KvCache.clear (InferenceEngine.releaseSlots s.engine))) path
      (s.state.config.mergeOrKeep text) with
  | mk r e =>
    cases r with
    | ok d =>
      rw [← hbase]
      exact .loaded hl e d
    | error err =>
      -- the model before is brought up on what the failed load has left of the engine
      have hback : s.comesBack path text = (s.bringBack e err).1.isOk := by
        unfold comesBack
        dsimp only
        rw [hb]
      have hagain : bringBack { s with loading := true } e err = s.bringBack e err := rfl
      dsimp only
      rw [restore_eq, hagain]
      cases hr : s.bringBack e err with
      | mk r e' =>
        rw [hr] at hback
        cases r with
        | ok d =>
          dsimp only
          rw [hready]
          exact .restored hl hs hback e' err
        | error again => exact .lost hl hs hback e' err again

theorem load_end (s : Switch σ) (path : String) (text : Option String) :
    s.LoadEnd path text (s.load path text) := by
  unfold load begin
  cases hl : s.loading with
  | true => exact .refused hl
  | false =>
    -- a load that is let in takes the switch for itself and gives it back at its end
    change LoadEnd s path text (({ s with loading := true }.replace path text).1,
      ({ s with loading := true }.replace path text).2.finish)
    unfold replace
    split
    case isTrue hs => exact loadEnd_hotSwap hl (of_decide_eq_true hs)
    case isFalse hs => exact loadEnd_firstLoad hl fun h => hs (decide_eq_true h)

end Switch

/-- The elements with one property, and of the others those with another, are those with either. -/
theorem filter_or_perm {α : Type} (p q : α → Bool) (xs : List α) :
    (xs.filter p ++ (xs.filter fun x => !p x).filter q).Perm (xs.filter fun x => p x || q x) := by
  have hfirst (x : α) : (p x && (p x || q x)) = p x := by cases p x <;> rfl
  have hothers (x : α) : (!p x && (p x || q x)) = (q x && !p x) := by
    cases p x <;> cases q x <;> rfl
  have h := List.filter_append_perm p (xs.filter fun x => p x || q x)
  rw [List.filter_filter, List.filter_filter] at h
  simp only [hfirst, hothers] at h
  rwa [List.filter_filter]

namespace Service

/-- The answer that a task gets when it is withdrawn. -/
def withdrawn (t : Task) : Nat × Outcome := (t.ticket, .error .cancelled)

/-- All waiting tasks of some sessions are cancelled, each with one answer, and nothing else
changes. -/
theorem foldl_cancelTasksOf (ids : List SessionId) (s : Service σ) :
    let s' := ids.foldl cancelTasksOf s
    s'.queue.waiting = s.queue.waiting.filter (fun t => !ids.contains t.session) ∧
      ∃ answers, s' = { s with queue := s'.queue, mail := s.mail ++ answers } ∧
        answers.Perm ((s.queue.waiting.filter fun t => ids.contains t.session).map withdrawn) := by
  induction ids generalizing s with
  | nil =>
    have hnone : s.queue.waiting.filter (fun t => ([] : List SessionId).contains t.session) = [] :=
      List.filter_eq_nil_iff.2 fun _ _ => Bool.false_ne_true
    refine ⟨(List.filter_eq_self.2 fun _ _ => rfl).symm, [], ?_, ?_⟩
    · rw [List.append_nil]
      rfl
    · rw [hnone]
      exact List.Perm.refl _
  | cons id ids ih =>
    obtain ⟨hwaiting, later, hrest, hlater⟩ := ih (s.cancelTasksOf id)
    have hstep : (s.cancelTasksOf id).queue.waiting =
        s.queue.waiting.filter fun t => !(t.session == id) := Queue.waiting_keep _ _
    have hmail : (s.cancelTasksOf id).mail =
        s.mail ++ (s.queue.waiting.filter fun t => t.session == id).map withdrawn := by
      change s.mail ++ List.map _ (List.map _ _) = _
      rw [List.map_map]
      rfl
    rw [hstep] at hwaiting hlater
    -- the tasks of the first session are answered before those of the others, whatever their places
    refine ⟨?_, (s.queue.waiting.filter fun t => t.session == id).map withdrawn ++ later, ?_, ?_⟩
    · rw [List.foldl_cons, hwaiting, List.filter_filter]
      simp only [List.contains_cons, Bool.not_or, Bool.and_comm]
    · rw [List.foldl_cons, ← List.append_assoc, ← hmail]
      exact hrest
    · have hsplit := (filter_or_perm (fun t : Task => t.session == id)
        (fun t => ids.contains t.session) s.queue.waiting).map withdrawn
      rw [List.map_append] at hsplit
      simp only [List.contains_cons]
      exact (hlater.append_left _).trans hsplit

/-- Once the model is replaced no session is open, and each task that waited for one of them has its
answer. All else of the service stays. -/
theorem onModelReplaced_ends_sessions (s : Service σ) :
    let s' := s.onModelReplaced
    let ofSession (t : Task) : Bool := s.sessions.sessions.keys.contains t.session
    s'.queue.waiting = s.queue.waiting.filter (fun t => !ofSession t) ∧
      ∃ answers, s' = { s with
          queue := s'.queue
          mail := s.mail ++ answers
          sessions := {}
          gate := { s.gate with sessions := 0 } } ∧
        answers.Perm ((s.queue.waiting.filter ofSession).map withdrawn) := by
  obtain ⟨hwaiting, answers, hs, hanswers⟩ := foldl_cancelTasksOf s.sessions.sessions.keys s
  refine ⟨hwaiting, answers, ?_, hanswers⟩
  unfold onModelReplaced
  dsimp only
  rw [hs]
  rfl

/-- The end of the sessions does not depend on the model. -/
theorem onModelReplaced_model (s : Service σ) (model : Switch σ) :
    ({ s with model } : Service σ).onModelReplaced = { s.onModelReplaced with model } := by
  have hcancel (ids : List SessionId) (s : Service σ) :
      ids.foldl cancelTasksOf { s with model } = { ids.foldl cancelTasksOf s with model } := by
    induction ids generalizing s with
    | nil => rfl
    | cons id ids ih => exact ih (s.cancelTasksOf id)
  unfold onModelReplaced
  dsimp only
  rw [hcancel]

variable [InferenceEngine σ]

/-- A load of the service is one of its model, and the sessions end with the model before. -/
theorem load_eq (s : Service σ) (path : String) (text : Option String) :
    s.load path text =
      ((s.model.load path text).1,
        match (s.model.load path text).1 with
        | .ok _ => { s.onModelReplaced with model := (s.model.load path text).2 }
        | .error _ => { s with model := (s.model.load path text).2 }) := by
  unfold load Switch.load
  cases s.model.begin with
  | error e => rfl
  | ok model =>
    dsimp only
    cases model.replace path text with
    | mk r model =>
      cases r with
      | error e => rfl
      | ok graph =>
        dsimp only
        rw [onModelReplaced_model]

/-- A load is refused exactly while another one runs, and then changes nothing. One that fails changes
the model state in no way, except that the status is unstable once a model is neither replaced nor
back; of the rest of the service it changes nothing at all. One that succeeds ends the sessions, once. -/
theorem failed_load_changes_status_only (s : Service σ) (path : String) (text : Option String) :
    let out := s.load path text
    (out.1 = .error .alreadyInProgress ↔ s.model.loading = true) ∧
      (s.model.loading = true → out.2 = s) ∧
      (∀ err, out.1 = .error err →
        out.2 = { s with model := out.2.model } ∧
          (s.model.state.status ≠ .ready → out.2.model.state = s.model.state) ∧
          (s.model.loading = false → s.model.state.status = .ready →
            out.2.model.state =
              if s.model.comesBack path text then s.model.state
              else { s.model.state with status := .unstable })) ∧
      ∀ graph, out.1 = .ok graph → out.2 = { s.onModelReplaced with model := out.2.model } := by
  intro out
  have hout : out = _ := s.load_eq path text
  have hend := s.model.load_end path text
  generalize s.model.load path text = r at hend hout
  rw [hout]
  have hfree {P : Prop} (hl : s.model.loading = false) (h : s.model.loading = true) : P := by
    rw [hl] at h
    cases h
  cases hend with
  | refused hl =>
    refine ⟨iff_of_true rfl hl, fun _ => rfl, fun err _ => ⟨rfl, fun _ => rfl, ?_⟩, nofun⟩
    exact fun hl' => hfree hl' hl
  | loaded hl e d => exact ⟨⟨nofun, hfree hl⟩, hfree hl, nofun, fun _ _ => rfl⟩
  | notLoaded hl hs e err =>
    refine ⟨⟨fun h => ?_, hfree hl⟩, hfree hl, fun _ _ => ⟨rfl, fun _ => rfl, ?_⟩, nofun⟩
    · -- no engine reports what a refusal says
      cases err <;> cases h
    · exact fun _ hready => absurd hready hs
  | restored hl hs hback e err =>
    refine ⟨⟨nofun, hfree hl⟩, hfree hl, fun _ _ => ⟨rfl, fun _ => rfl, fun _ _ => ?_⟩, nofun⟩
    rw [if_pos hback]
  | lost hl hs hback e err again =>
    refine ⟨⟨nofun, hfree hl⟩, hfree hl, fun _ _ => ⟨rfl, fun h => absurd hs h, fun _ _ => ?_⟩, nofun⟩
    rw [hback, if_neg Bool.false_ne_true]

/-- A session is open when two loads fail, the second one with the restore. -/
theorem failed_load_changes_status_only_twice :
    ∃ s s' : Service RehearsedEngine, s.sessions.size = 1 ∧ s.model.state.status = .ready ∧
      (s.load "b" none).2 = s' ∧ s' = { s with model := s'.model } ∧ s'.model.state = s.model.state ∧
      (s'.load "c" none).2.model.state = { s.model.state with status := .unstable } ∧
      (s'.load "c" none).2.sessions = s.sessions := by
  let e : RehearsedEngine := { outcomes := [true, true, false, true, true, false, false] }
  let start : Service RehearsedEngine := .ofConfig { limits := { autoCleanup := false } } e
  let s := ((start.load "a" none).2.createSession 0 none).2
  let s' := (s.load "b" none).2
  let why := EngineError.notLoaded.message
  have hfirst : (s.load "b" none).1 =
      .error (.runtime s!"model switch failed ({why}); previous model restored") := by decide +kernel
  have hsecond : (s'.load "c" none).1 =
      .error (.unstable s!"model switch failed ({why}) and restore failed ({why})") := by decide +kernel
  have hready : s.model.state.status = .ready := by decide +kernel
  have hagain : s'.model.state.status = .ready := by decide +kernel
  have hidle : s'.model.loading = false := by decide +kernel
  have hback : s.model.comesBack "b" none = true := by decide +kernel
  have hlost : s'.model.comesBack "c" none = false := by decide +kernel
  obtain ⟨-, -, hfailed, -⟩ := failed_load_changes_status_only s "b" none
  obtain ⟨hrest, -, hstate⟩ := hfailed _ hfirst
  have hsame : s'.model.state = s.model.state := by
    have h := hstate rfl hready
    rwa [if_pos hback] at h
  obtain ⟨-, -, hfailed', -⟩ := failed_load_changes_status_only s' "c" none
  obtain ⟨hrest', -, hstate'⟩ := hfailed' _ hsecond
  refine ⟨s, s', rfl, hready, rfl, hrest, hsame, ?_, ?_⟩
  · have h := hstate' hidle hagain
    rw [hlost, if_neg Bool.false_ne_true] at h
    rw [← hsame]
    exact h
  · have hkept := congrArg Service.sessions hrest
    rw [hrest']
    exact hkept

end Service

end ChatInference
