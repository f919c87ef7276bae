import ChatInference.Proofs.Service.World
import ChatInference.Service.Turn

/-!
The calls of the service as runs of steps. A call that nothing comes between takes the same steps as
one among others, so that what holds of all runs holds of every sequence of calls.
-/

namespace ChatInference.World

variable {σ : Type} [InferenceEngine σ] {w : World σ}

theorem run_one {w' : World σ} (h : Step w w') : Run w w' := Relation.ReflTransGen.single h

/-- A step of the call that holds the lock, at any place but the search for an id. -/
theorem run_advance (now : Nat) (h : w.held ≠ .insert) : Run w (w.advance now) :=
  run_one (.advance now fun hh => absurd hh h)

theorem run_retire (ids : List SessionId) (next : AfterRetire) (w : World σ) :
    Run { w with held := .retire ids next }
      { w with service := ids.foldl Service.retireOne w.service, held := .retire [] next } := by
  induction ids generalizing w with
  | nil => exact .refl
  | cons id ids ih =>
    have hstep : Run { w with held := .retire (id :: ids) next }
        { w with service := w.service.retireOne id, held := .retire ids next } :=
      run_advance 0 nofun
    exact hstep.trans (ih { w with service := w.service.retireOne id })

/-- Sessions that are out of the table are retired in the steps of the call that took them out. -/
theorem run_owe (ids : List SessionId) (next : AfterRetire) (w : World σ) :
    Run { w with held := .owe ids next }
      { w with service := w.service.retire ids, held := .retire [] next } := by
  have hgate : Run { w with held := .owe ids next }
      { w with
        service := { w.service with gate := w.service.gate.closeSessions ids.length }
        held := .retire ids next } :=
    run_advance 0 nofun
  exact hgate.trans (run_retire ids next
    { w with service := { w.service with gate := w.service.gate.closeSessions ids.length } })

theorem run_closeSession (hf : w.held = .free) (id : SessionId) :
    Run w { w with service := (w.service.closeSession id).2 } := by
  have hlock : Run w { w with held := .close id } := run_one (.close id hf)
  have hfree (s : Service σ) : { w with service := s } = { w with service := s, held := .free } := by
    rw [← hf]
  rw [hfree]
  apply hlock.trans
  have hstep := run_advance (w := { w with held := .close id }) 0 nofun
  unfold advance at hstep
  unfold Service.closeSession
  dsimp only at hstep ⊢
  cases hc : w.service.sessions.close id with
  | error e =>
    rw [hc] at hstep
    exact hstep
  | ok r =>
    rw [hc] at hstep
    have hretire := run_owe [id] .last { w with service := { w.service with sessions := r.2 } }
    have hlast : Run
        { w with
          service := { w.service with sessions := r.2 }.retire [id]
          held := .retire [] .last }
        { w with service := { w.service with sessions := r.2 }.retire [id], held := .last } :=
      run_advance 0 nofun
    exact ((hstep.trans hretire).trans hlast).trans (run_advance 0 nofun)

theorem run_sweep (w : World σ) (now : Nat) :
    Run { w with held := .sweep }
      { w with service := w.service.withoutIdle now, held := .atGate } := by
  let idle := (w.service.sessions.evictIdle w.service.sessionPolicy now).1
  let s : Service σ := { w.service with sessions := w.service.swept now }
  have hsweep : Run { w with held := .sweep } { w with service := s, held := .owe idle .atGate } :=
    run_advance now nofun
  have hretire : Run { w with service := s, held := .owe idle .atGate }
      { w with service := s.retire idle, held := .retire [] .atGate } :=
    run_owe idle .atGate { w with service := s }
  have hgate : Run { w with service := s.retire idle, held := .retire [] .atGate }
      { w with service := s.retire idle, held := .atGate } :=
    run_advance now nofun
  exact (hsweep.trans hretire).trans hgate

theorem run_openSession (w : World σ) (now : Nat)
    (hs : w.service.sessions.SearchEnds w.service.sessionPolicy now) :
    ∃ answers, Run { w with held := .atGate }
      { w with service := (w.service.openSession now).2, held := .free, answers } := by
  have hgate := run_advance (w := { w with held := .atGate }) now nofun
  -- the gate refuses, or the table answers and either evicts or gives the place at the gate back
  unfold advance at hgate
  unfold Service.openSession
  dsimp only at hgate
  cases hg : w.service.gate.openSession with
  | error e =>
    rw [hg] at hgate
    exact ⟨_, hgate⟩
  | ok gate =>
    rw [hg] at hgate
    have hinsert := run_one (.advance (w := { w with service := { w.service with gate }, held := .insert })
      now fun _ => hs)
    unfold advance at hinsert
    dsimp only at hinsert ⊢
    have hsame : Service.sessionPolicy { w.service with gate } = w.service.sessionPolicy := rfl
    rw [hsame] at hinsert
    cases hc : w.service.sessions.create w.service.sessionPolicy now none with
    | mk r sessions =>
      rw [hc] at hinsert
      cases r with
      | ok c =>
        have hretire := run_owe c.evicted (.answer c.id)
          { w with service := { w.service with gate, sessions } }
        have hanswer : Run
            { w with
              service := { w.service with gate, sessions }.retire c.evicted
              held := .retire [] (.answer c.id) }
            { w with
              service := { w.service with gate, sessions }.retire c.evicted
              held := .free
              answers := w.answers ++ [.ok c.id] } :=
          run_advance now nofun
        exact ⟨_, ((hgate.trans hinsert).trans hretire).trans hanswer⟩
      | error e =>
        have hback : Run
            { w with service := { w.service with gate, sessions }, held := .giveBack e }
            { w with
              service := { w.service with gate := gate.closeSessions 1, sessions }
              held := .free
              answers := w.answers ++ [.error e] } :=
          run_advance now nofun
        exact ⟨_, (hgate.trans hinsert).trans hback⟩

theorem run_createSession (hf : w.held = .free) (now : Nat) (graph : Option GraphId)
    (hs : (w.service.swept now).SearchEnds w.service.sessionPolicy now) :
    ∃ answers, Run w { w with service := (w.service.createSession now graph).2, answers } := by
  have hsame : ∃ answers, Run w { w with service := w.service, answers } := ⟨w.answers, .refl⟩
  rw [Service.createSession_eq]
  cases w.service.currentGraph with
  | error e => exact hsame
  | ok current =>
    dsimp only
    cases graph.filter (· != current) with
    | some g => exact hsame
    | none =>
      obtain ⟨hsessions, hconfig, -⟩ := Service.retire_sessions
        { w.service with sessions := w.service.swept now }
        (w.service.sessions.evictIdle w.service.sessionPolicy now).1
      have hlock : Run w { w with held := .sweep } := run_one (.create hf)
      have hsweep := run_sweep w now
      obtain ⟨answers, hopen⟩ := run_openSession
        { w with service := w.service.withoutIdle now } now (by
          unfold Service.sessionPolicy Service.withoutIdle
          rw [hsessions, hconfig]
          exact hs)
      refine ⟨answers, ?_⟩
      have hrun := (hlock.trans hsweep).trans hopen
      rw [← hf] at hrun
      exact hrun

theorem run_cancel (ids : List SessionId) (w : World σ) :
    Run { w with held := .cancel ids }
      { w with service := ids.foldl Service.cancelTasksOf w.service, held := .cancel [] } := by
  induction ids generalizing w with
  | nil => exact .refl
  | cons id ids ih =>
    have hstep : Run { w with held := .cancel (id :: ids) }
        { w with service := w.service.cancelTasksOf id, held := .cancel ids } :=
      run_advance 0 nofun
    exact hstep.trans (ih { w with service := w.service.cancelTasksOf id })

/-- The sessions of the model before are dropped in the steps of the load that replaced it. -/
theorem run_onModelReplaced (hf : w.held = .free) (hl : w.load = .replaced) :
    Run w { w with service := w.service.onModelReplaced, load := .ended } := by
  have hlock : Run w { w with held := .replaced } := run_one (.replaced hf hl)
  have hread : Run { w with held := .replaced }
      { w with held := .cancel w.service.sessions.sessions.keys } :=
    run_advance 0 nofun
  let s := w.service.sessions.sessions.keys.foldl Service.cancelTasksOf w.service
  have hcancel : Run { w with held := .cancel w.service.sessions.sessions.keys }
      { w with service := s, held := .cancel [] } :=
    run_cancel w.service.sessions.sessions.keys w
  have hclear : Run { w with service := s, held := .cancel [] }
      { w with service := { s with sessions := s.sessions.clear }, held := .cleared } :=
    run_advance 0 nofun
  have hreset : Run { w with service := { s with sessions := s.sessions.clear }, held := .cleared }
      { w with service := w.service.onModelReplaced, held := .free, load := .ended } :=
    run_advance 0 nofun
  have hrun := (((hlock.trans hread).trans hcancel).trans hclear).trans hreset
  rw [← hf] at hrun
  exact hrun

theorem run_load (hf : w.held = .free) (hl : w.load = .none) (path : String)
    (text : Option String) : Run w { w with service := (w.service.load path text).2 } := by
  have hbegin := run_one (.load (w := w) path text)
  unfold loadStep at hbegin
  rw [hl] at hbegin
  unfold Service.load
  dsimp only at hbegin
  cases hb : w.service.model.begin with
  | error e => exact .refl
  | ok model =>
    rw [hb] at hbegin
    have hreplace := run_one
      (.load (w := { w with service := { w.service with model }, load := .begun }) path text)
    unfold loadStep at hreplace
    dsimp only at hreplace ⊢
    cases hr : model.replace path text with
    | mk r m =>
      rw [hr] at hreplace
      cases r with
      | error e =>
        have hfinish : Run { w with service := { w.service with model := m }, load := .ended }
            { w with service := { w.service with model := m.finish }, load := .none } :=
          run_one (.load path text)
        have hrun := (hbegin.trans hreplace).trans hfinish
        rw [← hl] at hrun
        exact hrun
      | ok graph =>
        have hdrop := run_onModelReplaced
          (w := { w with service := { w.service with model := m }, load := .replaced }) hf rfl
        have hfinish := run_one
          (.load (w := { w with
            service := Service.onModelReplaced { w.service with model := m }
            load := .ended }) path text)
        have hrun := ((hbegin.trans hreplace).trans hdrop).trans hfinish
        unfold loadStep at hrun
        dsimp only at hrun
        rw [← hl] at hrun
        exact hrun

/-- A turn that is the last of those under way takes its next step. -/
theorem run_turn (w : World σ) (ts : List InlineTurn) (t : InlineTurn) (now : Nat) :
    Run { w with turns := ts ++ [t] }
      (match t with
      | .admitted id prompt o =>
        match w.service.startTurn now id prompt o with
        | (.error e, service) => { w with service, turns := ts ++ [.ended (.error e)] }
        | (.ok turn, service) => { w with service, turns := ts ++ [.running turn] }
      | .running turn =>
        { w with
          service := (w.service.endTurn now turn).2
          turns := ts ++ [.ended (w.service.endTurn now turn).1] }
      | .ended _ => { w with service := w.service.releaseSlot, turns := ts }) := by
  -- the turn stands at the end of the list
  have hget : (ts ++ [t])[ts.length]? = some t := List.getElem?_concat_length
  have hset (u : InlineTurn) : (ts ++ [t]).set ts.length u = ts ++ [u] := by
    rw [List.set_append_right _ _ (Nat.le_refl _), Nat.sub_self, List.set_cons_zero]
  have herase : (ts ++ [t]).eraseIdx ts.length = ts := by
    rw [List.eraseIdx_append_of_length_le (Nat.le_refl _), Nat.sub_self, List.eraseIdx_cons_zero,
      List.append_nil]
  have hstep := run_one (.turn (w := { w with turns := ts ++ [t] }) ts.length now)
  unfold turnStep at hstep
  dsimp only at hstep
  rw [hget] at hstep
  cases t with
  | admitted id prompt o =>
    dsimp only at hstep ⊢
    cases hs : w.service.startTurn now id prompt o with
    | mk r s =>
      rw [hs] at hstep
      cases r with
      | error e =>
        dsimp only at hstep
        rw [hset] at hstep
        exact hstep
      | ok turn =>
        dsimp only at hstep
        rw [hset] at hstep
        exact hstep
  | running turn =>
    dsimp only at hstep
    rw [hset] at hstep
    exact hstep
  | ended r =>
    dsimp only at hstep
    rw [herase] at hstep
    exact hstep

/-- A turn that has a slot runs to its end. -/
theorem run_admitted (w : World σ) (now : Nat) (id : SessionId) (prompt : String)
    (o : Overrides) :
    Run { w with turns := w.turns ++ [.admitted id prompt o] }
      { w with
        service := match w.service.startTurn now id prompt o with
          | (.error _, s) => s.releaseSlot
          | (.ok t, s) => (s.closeTurn now t).2 } := by
  have hstart := run_turn w w.turns (.admitted id prompt o) now
  dsimp only at hstart
  cases hs : w.service.startTurn now id prompt o with
  | mk r s =>
    rw [hs] at hstart
    cases r with
    | error e => exact hstart.trans (run_turn { w with service := s } w.turns (.ended (.error e)) now)
    | ok t =>
      have hend := run_turn { w with service := s } w.turns (.running t) now
      have hover := run_turn { w with service := (s.endTurn now t).2 } w.turns
        (.ended (s.endTurn now t).1) now
      exact (hstart.trans hend).trans hover

theorem run_submit (w : World σ) (now : Nat) (id : SessionId) (prompt : String)
    (o : Overrides) : Run w { w with service := (w.service.submit now id prompt o).2 } := by
  have henter := run_one (.enter (w := w) now id prompt o)
  unfold enter at henter
  unfold Service.submit Service.openTurn
  cases w.service.checkTurn id with
  | error e => exact .refl
  | ok _ =>
    dsimp only
    cases he : w.service.enter now id prompt o with
    | mk r s =>
      rw [he] at henter
      cases r with
      | error e => exact henter
      | ok admission =>
        cases admission with
        | queued task ticket => exact henter
        | slot =>
          have hrun := henter.trans (run_admitted { w with service := s } now id prompt o)
          dsimp only at hrun ⊢
          cases hs : s.startTurn now id prompt o with
          | mk r s' =>
            rw [hs] at hrun
            cases r with
            | error e => exact hrun
            | ok t => exact hrun

theorem run_foldl {α : Type} {f : Service σ → α → Service σ}
    (hf : ∀ (w : World σ) a, Run w { w with service := f w.service a }) (xs : List α)
    (w : World σ) : Run w { w with service := xs.foldl f w.service } := by
  induction xs generalizing w with
  | nil => exact .refl
  | cons x xs ih => exact (hf w x).trans (ih { w with service := f w.service x })

theorem run_work (w : World σ) (now : Nat) : Run w { w with service := w.service.work now } := by
  have htask (w : World σ) (i : Nat) : Run w { w with service := w.service.workTask (now + i) } :=
    run_foldl (fun w _ => run_one (.worker (w := w) (now + i))) (List.range Service.stepsPerTask) w
  exact run_foldl htask (List.range (w.service.queue.size + 2)) w

end ChatInference.World
