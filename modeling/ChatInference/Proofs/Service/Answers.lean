import ChatInference.Proofs.Service.Mailroom

/-!
Each queued turn comes to one outcome. At all times a queued turn is answered, with the worker,
waiting, or in the hands of a call that is about to answer it, and in one of these places alone; and
the outcomes of the turns that are executed are those that are neither late nor cancelled.
-/

namespace ChatInference

namespace Mailroom

variable {σ : Type}

/-- The turns that have been sent an outcome, by ticket, once for each they were sent. -/
def answered (m : Mailroom σ) : List Nat := m.service.mail.map (·.1)

/-- The turns with the worker, in the queue, or in the hands of a call that will answer them. -/
def unanswered (m : Mailroom σ) : List Nat :=
  tickets (m.service.worker.held ++ m.service.queue.waiting ++ m.withdrawn)

/-- What holds after every step: the tickets add up, and what was executed is sent or about to be. -/
structure InOrder (m : Mailroom σ) : Prop where
  places : m.queued.Perm (m.service.traced ++ tickets m.withdrawn)
  distinct : m.queued.Nodup
  issued : ∀ k ∈ m.queued, k < m.service.nextTicket
  numbered : m.service.queue.Numbered
  results : m.results = m.service.outcomes
  executed : m.executed = m.results.map (·.1) ++ m.service.worker.underway

theorem inOrder_opened (config : ServiceConfig) (e : σ) : InOrder (opened config e) :=
  ⟨List.Perm.refl _, List.nodup_nil, List.forall_mem_nil _, Queue.numbered_ofLimits _, rfl, rfl⟩

variable {m : Mailroom σ}

theorem inOrder_enter (h : InOrder m) (now : Nat) (id : SessionId) (prompt : String)
    (o : Overrides) : InOrder (m.enter now id prompt o) := by
  have he := m.service.entered_enter now id prompt o
  unfold enter
  generalize m.service.enter now id prompt o = r at he
  have hqueued : (Admission.queuedTickets r.1).Nodup := by
    unfold Admission.queuedTickets
    split
    · exact List.nodup_singleton _
    · exact List.nodup_nil
    · exact List.nodup_nil
  refine ⟨?_, ?_, ?_, he.numbered h.numbered, ?_, ?_⟩
  · -- the new ticket is traced from now on
    rw [List.perm_iff_count]
    intro x
    have hold := h.places.count_eq x
    have hnew := he.traced.count_eq x
    rw [List.count_append] at hold hnew
    dsimp only
    rw [List.count_append, List.count_append]
    omega
  · rw [List.nodup_append]
    refine ⟨h.distinct, hqueued, ?_⟩
    intro k hk k' hk' hkk'
    have hlt := h.issued k hk
    have hle := (he.fresh k' hk').1
    omega
  · intro k hk
    rcases List.mem_append.1 hk with hold | hnew
    · exact Nat.lt_of_lt_of_le (h.issued k hold) he.nextTicket
    · exact (he.fresh k hnew).2
  · change m.results = Outcome.executed r.2.mail ++ r.2.worker.pending
    rw [he.executed, he.worker]
    exact h.results
  · change m.executed = m.results.map (·.1) ++ r.2.worker.underway
    rw [he.worker]
    exact h.executed

theorem inOrder_withdraw (h : InOrder m) {gone : List Task} {queue : Queue}
    (hmoves : m.service.queue.Moves [] gone queue) (hid : queue.nextId = m.service.queue.nextId) :
    InOrder (m.withdraw gone queue) := by
  refine ⟨?_, h.distinct, h.issued, Queue.numbered_of_moves h.numbered hmoves hid, h.results,
    h.executed⟩
  apply h.places.trans
  rw [List.perm_iff_count]
  intro x
  have hx := Books.count_moves hmoves x
  rw [Books.tickets_nil, List.count_nil] at hx
  simp only [withdraw, Service.traced, Books.tickets_append, List.count_append]
  omega

theorem inOrder_shutdown (h : InOrder m) :
    InOrder (m.withdraw (m.service.queue.shutdown.1.map (·.1)) m.service.queue.shutdown.2) := by
  -- the queue stops, and then loses all that wait in it
  let stopped : Queue := { m.service.queue with running := false }
  have hstopped : InOrder { m with service := { m.service with queue := stopped } } :=
    ⟨h.places, h.distinct, h.issued, ⟨h.numbered.distinct, h.numbered.below⟩, h.results, h.executed⟩
  have hgone : m.service.queue.shutdown.1.map (·.1) = (stopped.withdraw fun _ => true).1 := by
    change ((stopped.withdraw fun _ => true).1.map Queue.cancelled).map (·.1) = _
    simp only [List.map_map, Queue.cancelled, Function.comp_def, List.map_id']
  rw [hgone]
  exact inOrder_withdraw hstopped (Queue.moves_withdraw stopped fun _ => true) rfl

theorem inOrder_answer (h : InOrder m) (i : Nat) : InOrder (m.answer i) := by
  unfold answer
  split
  case h_1 => exact h
  case h_2 t hi =>
    obtain ⟨hlt, rfl⟩ := List.getElem?_eq_some_iff.1 hi
    refine ⟨?_, h.distinct, h.issued, h.numbered, ?_, h.executed⟩
    · apply h.places.trans
      rw [List.perm_iff_count]
      intro x
      have hout := ((List.getElem_cons_eraseIdx_perm hlt).map (·.ticket)).count_eq x
      have hmail := Service.count_mail m.service [Queue.cancelled m.withdrawn[i]] rfl x
      change (tickets ([m.withdrawn[i]] ++ m.withdrawn.eraseIdx i)).count x =
        (tickets m.withdrawn).count x at hout
      change _ = _ + (tickets [m.withdrawn[i]]).count x at hmail
      rw [Books.tickets_append, List.count_append] at hout
      rw [List.count_append, List.count_append, Service.count_traced, Service.count_traced, hmail]
      dsimp only [Service.send]
      omega
    · have hrefused (a : Answer) (ha : a ∈ [Queue.cancelled m.withdrawn[i]]) :
          a.2.isRefusal = true := by
        rw [List.mem_singleton.1 ha]
        rfl
      change m.results = Outcome.executed _ ++ m.service.worker.pending
      rw [Service.executed_mail rfl hrefused]
      exact h.results

theorem inOrder_elsewhere (h : InOrder m) {s : Service σ} (hs : m.service.Undisturbed s)
    (collectable : Keyed Collectable) :
    InOrder { m with service := { s with collectable } } := by
  refine ⟨?_, h.distinct, ?_, ?_, ?_, ?_⟩
  · change m.queued.Perm (s.mail.map (·.1) ++ tickets s.worker.held ++ tickets s.queue.waiting ++
      tickets m.withdrawn)
    rw [hs.mail, hs.worker, hs.queue]
    exact h.places
  · change ∀ k ∈ m.queued, k < s.nextTicket
    rw [hs.nextTicket]
    exact h.issued
  · change s.queue.Numbered
    rw [hs.queue]
    exact h.numbered
  · change m.results = Outcome.executed s.mail ++ s.worker.pending
    rw [hs.mail, hs.worker]
    exact h.results
  · change m.executed = m.results.map (·.1) ++ s.worker.underway
    rw [hs.worker]
    exact h.executed

theorem perm_places (h : InOrder m) : m.queued.Perm (m.answered ++ m.unanswered) := by
  have hp := h.places
  unfold Service.traced at hp
  unfold answered unanswered
  rw [Books.tickets_append, Books.tickets_append, ← List.append_assoc, ← List.append_assoc]
  exact hp

theorem executed_sublist (h : InOrder m) :
    m.executed.Sublist (m.answered ++ tickets m.service.worker.held) := by
  have hsent : ((Outcome.executed m.service.mail).map (·.1)).Sublist m.answered :=
    List.filter_sublist.map _
  have hexecuted : m.executed = (Outcome.executed m.service.mail).map (·.1) ++
      (m.service.worker.pending.map (·.1) ++ m.service.worker.underway) := by
    rw [h.executed, h.results, Service.outcomes, List.map_append, List.append_assoc]
  rw [hexecuted]
  exact hsent.append m.service.worker.executing_sublist

theorem nodup_answered (h : InOrder m) : (m.answered ++ m.unanswered).Nodup :=
  (perm_places h).nodup_iff.1 h.distinct

theorem held_sublist (m : Mailroom σ) : (tickets m.service.worker.held).Sublist m.unanswered := by
  unfold unanswered
  rw [Books.tickets_append, Books.tickets_append, List.append_assoc]
  exact List.sublist_append_left _ _

theorem nodup_executed (h : InOrder m) : m.executed.Nodup :=
  (nodup_answered h).sublist ((executed_sublist h).trans ((held_sublist m).append_left _))

theorem not_executed_of_refusal (h : InOrder m) {k : Nat} {r : Outcome}
    (hkr : (k, r) ∈ m.service.mail) (hr : r.isRefusal = true) : k ∉ m.executed := by
  obtain ⟨hanswered, -, hdisjoint⟩ := List.nodup_append.1 (nodup_answered h)
  have hk : k ∈ m.answered := List.mem_map_of_mem hkr
  intro hx
  rw [h.executed, h.results, Service.outcomes, List.map_append, List.append_assoc] at hx
  rcases List.mem_append.1 hx with hsent | hheld
  · -- the turn would have been sent another outcome
    obtain ⟨⟨k', r'⟩, hmem, rfl⟩ := List.mem_map.1 hsent
    obtain ⟨hkr', hr'⟩ := List.mem_filter.1 hmem
    have hsame := List.inj_on_of_nodup_map hanswered hkr hkr' rfl
    cases hsame
    rw [hr] at hr'
    exact Bool.false_ne_true hr'
  · -- the turn would still be with the worker
    have hu := (held_sublist m).subset (m.service.worker.executing_sublist.subset hheld)
    exact hdisjoint k hk k hu rfl

theorem executed_of_reply (h : InOrder m) {k : Nat} {r : Outcome}
    (hkr : (k, r) ∈ m.service.mail) (hr : r.isRefusal = false) :
    k ∈ m.executed ∧ (k, r) ∈ m.results := by
  have hresult : (k, r) ∈ m.results := by
    rw [h.results]
    apply List.mem_append_left
    apply List.mem_filter.2
    exact ⟨hkr, by rw [hr]; rfl⟩
  have hk : k ∈ m.results.map (·.1) := List.mem_map_of_mem hresult
  exact ⟨h.executed ▸ List.mem_append_left _ hk, hresult⟩

variable [InferenceEngine σ]

theorem inOrder_work (h : InOrder m) (now : Nat) : InOrder (m.work now) := by
  have hw := m.service.worked_workerStep now
  unfold work
  generalize m.service.workerStep now = s at hw
  refine ⟨?_, h.distinct, ?_, hw.numbered h.numbered, ?_, ?_⟩
  · exact h.places.trans (hw.traced.symm.append_right _)
  · dsimp only
    rw [hw.nextTicket]
    exact h.issued
  · dsimp only
    rw [hw.outcomes, h.results]
  · -- the turn that starts is under way or already over
    dsimp only
    rw [h.executed, List.append_assoc, hw.underway, List.map_append, List.append_assoc]

theorem inOrder_step {m' : Mailroom σ} (hs : Step m m') (h : InOrder m) : InOrder m' := by
  cases hs with
  | enter now id prompt o => exact inOrder_enter h now id prompt o
  | work now => exact inOrder_work h now
  | cancelTask id =>
    have hmoves := Queue.moves_cancel m.service.queue id
    rw [Queue.cancel_drops_nothing h.numbered, List.nil_append] at hmoves
    exact inOrder_withdraw h hmoves rfl
  | cancelSession id =>
    exact inOrder_withdraw h (Queue.moves_withdraw _ fun t => t.session == id) rfl
  | shutdown => exact inOrder_shutdown h
  | answer i => exact inOrder_answer h i
  | elsewhere hs collectable => exact inOrder_elsewhere h hs collectable

theorem inOrder_run {m' : Mailroom σ} (hr : Run m m') (h : InOrder m) : InOrder m' := by
  -- over the steps taken so far
  induction hr with
  | refl => exact h
  | tail _ step ih => exact inOrder_step step ih

/-- The calls under way can answer all they took out while the queue and the worker stand still. -/
theorem exists_run_answered (m : Mailroom σ) :
    ∃ m', Run m m' ∧ m'.withdrawn = [] ∧ m'.queued = m.queued ∧
      m'.service.queue = m.service.queue ∧ m'.service.worker = m.service.worker :=
  ⟨_, run_answers m.withdrawn { m with withdrawn := [] }, rfl, rfl, rfl, rfl⟩

/-- In every run, whatever steps of other calls come between: each queued turn is answered, or else
with the worker, in the queue, or in the hands of the call that took it out, which only has to answer;
no turn is sent two outcomes; a turn that is answered as late or cancelled is never executed, before
or after, and any other is sent what its one execution came to. -/
theorem queued_turns_answered_once (config : ServiceConfig) (e : σ) (m : Mailroom σ)
    (h : Run (opened config e) m) :
    m.queued.Perm (m.answered ++ m.unanswered) ∧ m.queued.Nodup ∧
      (∀ k ∈ m.queued, k ∉ m.unanswered → m.answered.count k = 1) ∧
      (∀ k, m.answered.count k ≤ 1) ∧
      (∀ k r, (k, r) ∈ m.service.mail → k ∈ m.queued ∧ k ∉ m.unanswered ∧
        (r.isRefusal = true → k ∉ m.executed) ∧
        (r.isRefusal = false → k ∈ m.executed ∧ (k, r) ∈ m.results)) ∧
      m.executed.Nodup ∧
      ∃ m', Run m m' ∧ m'.withdrawn = [] ∧ m'.queued = m.queued ∧
        m'.service.queue = m.service.queue ∧ m'.service.worker = m.service.worker := by
  have ho : InOrder m := inOrder_run h (inOrder_opened config e)
  have hp := perm_places ho
  obtain ⟨hanswered, -, hdisjoint⟩ := List.nodup_append.1 (nodup_answered ho)
  refine ⟨hp, ho.distinct, ?_, List.nodup_iff_count.1 hanswered, ?_, nodup_executed ho,
    exists_run_answered m⟩
  · intro k hk hnot
    rcases List.mem_append.1 (hp.mem_iff.1 hk) with ha | hu
    · exact List.count_eq_one_of_mem hanswered ha
    · exact absurd hu hnot
  · intro k r hkr
    have ha : k ∈ m.answered := List.mem_map_of_mem hkr
    have hnot : k ∉ m.unanswered := fun hu => hdisjoint k ha k hu rfl
    exact ⟨hp.mem_iff.2 (List.mem_append_left _ ha), hnot, not_executed_of_refusal ho hkr,
      executed_of_reply ho hkr⟩

/-- An engine with every model, which answers each turn with its last message. -/
structure EchoingEngine where
  loaded : Bool := false

instance : InferenceEngine EchoingEngine where
  nCtx _ := 0
  posMax _ _ := none
  remove e _ _ _ := (true, e)
  shift e _ _ _ _ := e
  clear e := e
  stamp _ _ := none
  load _ _ _ := (.ok ⟨"", 0, 0⟩, ⟨true⟩)
  start e _ := (.ok (), e)
  releaseSlots e := e
  unload _ := ⟨false⟩
  isLoaded e := e.loaded
  pendingTokens _ _ _ := 0
  generate e r := (.ok ⟨(r.messages.getLast?.map (·.content)).getD "", 0, 0, .endOfSequence⟩, e)

/-- One turn at a time, and no session is evicted. -/
def oneSlot : ServiceConfig := { limits := { maxConcurrent := 1, autoCleanup := false } }

/-- A turn has the slot, and two more of its session wait. -/
def crowded : Mailroom EchoingEngine :=
  let start : Service EchoingEngine := .ofConfig oneSlot {}
  let ready : Mailroom EchoingEngine :=
    { service := ((start.load "a" none).2.createSession 0 none).2 }
  ((ready.enter 1 1 "Hi" {}).enter 2 1 "And you" {}).enter 3 1 "Bye" {}

/-- The worker answers the second turn once the first is over, and the third is taken back. -/
def cleared : Mailroom EchoingEngine :=
  let taken := crowded.work 4
  let free := { taken with service := taken.service.releaseSlot }
  let replied := (((((free.work 5).work 5).work 5).work 5).work 5).work 5
  let q := replied.service.queue
  (replied.withdraw (q.cancel 2).1.toList (q.cancel 2).2.2).answer 0

theorem queued_turns_answered_once_cleared :
    Run (opened oneSlot {}) cleared ∧ cleared.answered = [0, 1] ∧ cleared.answered.count 1 = 1 ∧
      (0, .ok "And you") ∈ cleared.results ∧ 0 ∈ cleared.executed ∧ 1 ∉ cleared.executed := by
  let start : Mailroom EchoingEngine := opened oneSlot {}
  let s := ((start.service.load "a" none).2.createSession 0 none).2
  have hs : start.service.Undisturbed s := ⟨rfl, rfl, rfl, rfl, rfl⟩
  have hready : Run start { start with service := s } := run_one (.elsewhere hs s.collectable)
  have hcrowded : Run start crowded :=
    ((hready.tail (.enter 1 1 "Hi" {})).tail (.enter 2 1 "And you" {})).tail (.enter 3 1 "Bye" {})
  -- the first turn ends in the call it was submitted by
  let taken := crowded.work 4
  have hslot : taken.service.Undisturbed taken.service.releaseSlot := ⟨rfl, rfl, rfl, rfl, rfl⟩
  have hfree : Run start { taken with service := taken.service.releaseSlot } :=
    (hcrowded.tail (.work 4)).tail (.elsewhere hslot taken.service.collectable)
  have hreplied := (((((hfree.tail (.work 5)).tail (.work 5)).tail (.work 5)).tail (.work 5)).tail
    (.work 5)).tail (.work 5)
  have hrun : Run start cleared := (hreplied.tail (.cancelTask 2)).tail (.answer 0)
  have h := queued_turns_answered_once oneSlot {} cleared hrun
  have hreply : (0, .ok "And you") ∈ cleared.service.mail := List.mem_cons_self
  have hcancelled : (1, .error .cancelled) ∈ cleared.service.mail :=
    List.mem_cons_of_mem _ List.mem_cons_self
  have hfirst := (h.2.2.2.2.1 0 _ hreply).2.2.2 rfl
  exact ⟨hrun, rfl, rfl, hfirst.2, hfirst.1, (h.2.2.2.2.1 1 _ hcancelled).2.2.1 rfl⟩

end Mailroom

end ChatInference
