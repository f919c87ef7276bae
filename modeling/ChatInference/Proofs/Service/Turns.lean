import ChatInference.Service.Turn

/-!
What a turn leaves alone while it is executed, and what it can come to. A turn works on its session,
the cache and the engine; the queue, the worker and the outcomes of other turns are none of its
business, and its own outcome is never that of a turn given up before it began.
-/

namespace ChatInference

/-- The outcome of a turn that was given up: late, or taken out of the queue. -/
def Outcome.isRefusal : Outcome → Bool
  | .error (.timeout _) | .error .cancelled => true
  | _ => false

namespace SessionTable

variable {t : SessionTable} {id : SessionId} {e : Error}

theorem get_error (h : t.get id = .error e) : e = missing id := by
  unfold get at h
  split at h <;> cases h
  rfl

theorem update_error {f : Session → Session} (h : t.update id f = .error e) : e = missing id := by
  unfold update at h
  cases hs : t.get id with
  | error e' =>
    rw [hs] at h
    cases h
    exact get_error hs
  | ok s =>
    rw [hs] at h
    cases h

/-- A turn can begin in every session that is open. -/
theorem beginTurn_error {now : Nat} {prompt : String} (h : t.beginTurn id now prompt = .error e) :
    e = missing id := by
  unfold beginTurn at h
  cases hu : t.update id (·.begin now prompt) with
  | error e' =>
    rw [hu] at h
    cases h
    exact update_error hu
  | ok t' =>
    rw [hu] at h
    change (t'.get id >>= fun s => pure (s, t')) = .error e at h
    cases hs : t'.get id with
    | error e' =>
      rw [hs] at h
      cases h
      exact get_error hs
    | ok s =>
      rw [hs] at h
      cases h

end SessionTable

namespace Service

variable {σ : Type}

/-- The queue, the worker and all that is known of outcomes are the same in both states. -/
structure Undisturbed (s s' : Service σ) : Prop where
  queue : s'.queue = s.queue
  worker : s'.worker = s.worker
  mail : s'.mail = s.mail
  nextTicket : s'.nextTicket = s.nextTicket
  collectable : s'.collectable = s.collectable

theorem undisturbed_refl (s : Service σ) : Undisturbed s s := ⟨rfl, rfl, rfl, rfl, rfl⟩

theorem Undisturbed.trans {s s' s'' : Service σ} (h : Undisturbed s s')
    (h' : Undisturbed s' s'') : Undisturbed s s'' :=
  ⟨h'.queue.trans h.queue, h'.worker.trans h.worker, h'.mail.trans h.mail,
    h'.nextTicket.trans h.nextTicket, h'.collectable.trans h.collectable⟩

theorem undisturbed_record (s : Service σ) (now : Nat) (id : SessionId) (reply : Option String)
    (nPast : Nat) : Undisturbed s (s.record now id reply nPast) := by
  unfold record
  split
  · exact ⟨rfl, rfl, rfl, rfl, rfl⟩
  · exact undisturbed_refl s

theorem not_isRefusal_unusable {m : ModelState} {e : Error} (h : m.usable = .error e) :
    Outcome.isRefusal (.error e) = false := by
  unfold ModelState.usable at h
  split at h <;> cases h <;> rfl

theorem not_isRefusal_beginTurn {t : SessionTable} {id : SessionId} {now : Nat} {prompt : String}
    {e : Error} (h : t.beginTurn id now prompt = .error e) :
    Outcome.isRefusal (.error e) = false := by
  rw [SessionTable.beginTurn_error h]
  rfl

variable [InferenceEngine σ]

theorem undisturbed_clearCache (s : Service σ) (seq : Option SeqId) :
    Undisturbed s (s.clearCache seq) :=
  ⟨rfl, rfl, rfl, rfl, rfl⟩

theorem undisturbed_startTurn (s : Service σ) (now : Nat) (id : SessionId) (prompt : String)
    (o : Overrides) : Undisturbed s (s.startTurn now id prompt o).2 := by
  unfold startTurn
  split
  · exact undisturbed_refl s
  · dsimp only
    split
    · exact undisturbed_refl s
    · exact ⟨rfl, rfl, rfl, rfl, rfl⟩

theorem undisturbed_endTurn (s : Service σ) (now : Nat) (t : Turn) :
    Undisturbed s (s.endTurn now t).2 := by
  have hengine (e : σ) : Undisturbed s { s with model := { s.model with engine := e } } :=
    ⟨rfl, rfl, rfl, rfl, rfl⟩
  unfold endTurn
  dsimp only
  split
  · exact (hengine _).trans (undisturbed_record _ _ _ _ _)
  · exact (hengine _).trans (undisturbed_record _ _ _ _ _)

theorem not_isRefusal_startTurn {s : Service σ} {now : Nat} {id : SessionId} {prompt : String}
    {o : Overrides} {e : Error} (h : (s.startTurn now id prompt o).1 = .error e) :
    Outcome.isRefusal (.error e) = false := by
  unfold startTurn at h
  split at h
  case h_1 e' hu =>
    cases h
    exact not_isRefusal_unusable hu
  case h_2 model hu =>
    dsimp only at h
    split at h
    case h_1 e' hb =>
      cases h
      exact not_isRefusal_beginTurn hb
    case h_2 => cases h

theorem not_isRefusal_endTurn (s : Service σ) (now : Nat) (t : Turn) :
    Outcome.isRefusal (s.endTurn now t).1 = false := by
  unfold endTurn
  dsimp only
  split
  · rfl
  · rfl

end Service

end ChatInference
