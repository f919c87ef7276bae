import ChatInference.Proofs.Service.Mailroom

/-!
What only ever grows. Ids and tickets are given out in ascending order, never more ids than tickets, and
an outcome that was sent can be read from then on.
-/

namespace ChatInference

namespace Service

variable {σ : Type}

/-- The outcome of a task that is known this way, if there is one by now. -/
def outcomeOf (s : Service σ) : Collectable → Option Outcome
  | .ready outcome => some outcome
  | .posted ticket => s.received ticket

/-- The id that the queue gives out next. -/
def nextQueued (s : Service σ) : Nat := s.queue.nextId

/-- The id that goes to the next task that does not have to wait. -/
def nextReplied (s : Service σ) : Nat := s.nextInline

/-- Ids and tickets are given out in order, an id with a ticket each, and what was sent stays sent. -/
structure Onward (s s' : Service σ) : Prop where
  mail : s.mail <+: s'.mail
  nextTicket : s.nextTicket ≤ s'.nextTicket
  nextQueued : s.nextQueued ≤ s'.nextQueued
  numbered : s'.nextQueued + s.nextTicket ≤ s.nextQueued + s'.nextTicket

theorem onward_refl (s : Service σ) : Onward s s :=
  ⟨List.prefix_rfl, Nat.le_refl _, Nat.le_refl _, Nat.le_refl _⟩

theorem Onward.trans {s s' s'' : Service σ} (h : Onward s s') (h' : Onward s' s'') :
    Onward s s'' := by
  obtain ⟨hmail, hticket, hid, hn⟩ := h
  obtain ⟨hmail', hticket', hid', hn'⟩ := h'
  exact ⟨hmail.trans hmail', by omega, by omega, by omega⟩

/-- A step that gives out neither ids nor tickets. -/
theorem onward_of_eq {s s' : Service σ} (hmail : s.mail <+: s'.mail)
    (hticket : s'.nextTicket = s.nextTicket) (hid : s'.nextQueued = s.nextQueued) :
    Onward s s' :=
  ⟨hmail, Nat.le_of_eq hticket.symm, Nat.le_of_eq hid.symm, by omega⟩

theorem Undisturbed.onward {s s' : Service σ} (h : Undisturbed s s') : Onward s s' :=
  onward_of_eq (h.mail ▸ List.prefix_rfl) h.nextTicket (congrArg Queue.nextId h.queue)

/-- An outcome stays the same once it is there. -/
theorem Onward.outcomeOf {s s' : Service σ} (h : Onward s s') {c : Collectable} {o : Outcome}
    (ho : s.outcomeOf c = some o) : s'.outcomeOf c = some o := by
  cases c with
  | ready o' => exact ho
  | posted ticket =>
    obtain ⟨more, hmore⟩ := h.mail
    change s'.mail.lookup ticket = some o
    rw [← hmore, List.lookup_append, show s.mail.lookup ticket = some o from ho]
    rfl

/-- What an admission gives out. -/
theorem enter_numbers {s : Service σ} {now : Nat} {id : SessionId} {prompt : String}
    {o : Overrides} {r : Except Error Admission × Service σ} (hr : s.enter now id prompt o = r) :
    (r.1 = .ok .slot ∧ r.2.nextQueued = s.nextQueued ∧ r.2.nextTicket = s.nextTicket) ∨
      (r.1 = .ok (.queued s.nextQueued s.nextTicket) ∧
        r.2.nextQueued = s.nextQueued + 1 ∧ r.2.nextTicket = s.nextTicket + 1) ∨
      ((∃ e, r.1 = .error e) ∧ r.2.nextQueued = s.nextQueued ∧
        r.2.nextTicket = s.nextTicket + 1) := by
  rw [← hr]
  unfold enter
  cases s.gate.acquire? with
  | some gate => exact .inl ⟨rfl, rfl, rfl⟩
  | none =>
    right
    dsimp only
    -- the task is handed over without an id, which is the queue's to give
    generalize ht : Task.withOverrides _ o = t
    have hid : t.id = 0 := by
      rw [← ht]
      rfl
    rcases s.queue.enqueue_id now hid with ⟨hok, hnext⟩ | ⟨⟨e, he⟩, hnext⟩
    · left
      rw [hok]
      exact ⟨rfl, hnext, rfl⟩
    · right
      rw [he]
      exact ⟨⟨e, rfl⟩, hnext, rfl⟩

theorem onward_enter (s : Service σ) (now : Nat) (id : SessionId) (prompt : String)
    (o : Overrides) : Onward s (s.enter now id prompt o).2 := by
  have hmail : s.mail <+: (s.enter now id prompt o).2.mail := by
    unfold enter
    cases s.gate.acquire? with
    | some gate => exact List.prefix_rfl
    | none => exact List.prefix_append _ _
  rcases enter_numbers (rfl : s.enter now id prompt o = _) with
    ⟨-, hid, hticket⟩ | ⟨-, hid, hticket⟩ | ⟨-, hid, hticket⟩
  · exact onward_of_eq hmail hticket hid
  · exact ⟨hmail, by omega, by omega, by omega⟩
  · exact ⟨hmail, by omega, by omega, by omega⟩

theorem collectable_enter (s : Service σ) (now : Nat) (id : SessionId) (prompt : String)
    (o : Overrides) : (s.enter now id prompt o).2.collectable = s.collectable ∧
      (s.enter now id prompt o).2.nextReplied = s.nextReplied := by
  unfold enter
  cases s.gate.acquire? with
  | some gate => exact ⟨rfl, rfl⟩
  | none => exact ⟨rfl, rfl⟩

theorem onward_workerStep [InferenceEngine σ] (s : Service σ) (now : Nat) :
    Onward s (s.workerStep now) := by
  unfold workerStep
  cases s.worker with
  | idle =>
    dsimp only
    split
    · have hid := s.queue.nextId_dequeue now
      split <;> exact onward_of_eq (List.prefix_append _ _) rfl hid
    · exact onward_of_eq List.prefix_rfl rfl rfl
  | waiting t =>
    dsimp only
    split
    · exact onward_of_eq List.prefix_rfl rfl rfl
    · split <;> exact onward_of_eq List.prefix_rfl rfl rfl
  | admitted t =>
    have ht := (undisturbed_startTurn s now t.session t.prompt t.overrides).onward
    dsimp only
    split
    case h_1 e s' h =>
      rw [h] at ht
      exact ⟨ht.mail, ht.nextTicket, ht.nextQueued, ht.numbered⟩
    case h_2 turn s' h =>
      rw [h] at ht
      exact ⟨ht.mail, ht.nextTicket, ht.nextQueued, ht.numbered⟩
  | running t turn =>
    have ht := (undisturbed_endTurn s now turn).onward
    exact ⟨ht.mail, ht.nextTicket, ht.nextQueued, ht.numbered⟩
  | «over» t r => exact onward_of_eq List.prefix_rfl rfl rfl
  | uncounted t r => exact onward_of_eq List.prefix_rfl rfl rfl
  | unsent t r => exact onward_of_eq (List.prefix_append _ _) rfl rfl
  | stopped => exact onward_of_eq List.prefix_rfl rfl rfl

end Service

namespace Mailroom

variable {σ : Type} [InferenceEngine σ] {m m' : Mailroom σ}

theorem onward_step (h : Step m m') : m.service.Onward m'.service := by
  cases h with
  | enter now id prompt o => exact m.service.onward_enter now id prompt o
  | work now => exact m.service.onward_workerStep now
  | cancelTask id => exact Service.onward_of_eq List.prefix_rfl rfl rfl
  | cancelSession id => exact Service.onward_of_eq List.prefix_rfl rfl rfl
  | shutdown => exact Service.onward_of_eq List.prefix_rfl rfl rfl
  | answer i =>
    unfold answer
    split
    · exact Service.onward_refl _
    · exact Service.onward_of_eq (List.prefix_append _ _) rfl rfl
  | elsewhere hs collectable =>
    have h := hs.onward
    exact ⟨h.mail, h.nextTicket, h.nextQueued, h.numbered⟩

theorem onward_run (h : Run m m') : m.service.Onward m'.service := by
  induction h with
  | refl => exact Service.onward_refl _
  | tail _ step ih => exact ih.trans (onward_step step)

end Mailroom

end ChatInference
