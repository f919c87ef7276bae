import ChatInference.Proofs.Service.Collecting
import ChatInference.Proofs.Service.Desk

/-!
Whole calls. Between calls that are made one after the other no task is in anybody's hands, and each of
them goes over the desk: what it does to the service, the id it gives out and the outcome it hands out are
those of a run of the desk.
-/

namespace ChatInference

/-- A call on the service, made whole; one that waits for an outcome lets the worker go on first. -/
inductive Service.Call where
  | submit (now : Nat) (id : SessionId) (prompt : String) (o : Overrides)
  | result (task : TaskId)
  | cancel (task : TaskId)
  | close (id : SessionId)
  | work (now : Nat)

namespace Service

/-- How many of some calls submit. -/
def Call.submissions (calls : List Call) : Nat :=
  calls.countP fun
    | .submit _ _ _ _ => true
    | .result _ | .cancel _ | .close _ | .work _ => false

theorem Call.submissions_append (calls more : List Call) :
    submissions (calls ++ more) = submissions calls + submissions more :=
  List.countP_append

variable {σ : Type}

theorem outcome?_eq (s : Service σ) (task : TaskId) :
    s.outcome? task = (s.collectable.get? task).bind s.outcomeOf :=
  rfl

/-- A call for a task without an outcome changes nothing. -/
theorem taskResult_of_pending {s : Service σ} {task : TaskId} {c : Collectable}
    (hc : s.collectable.get? task = some c) (h : s.outcomeOf c = none) :
    s.taskResult task = (.ok none, s) := by
  unfold taskResult
  rw [hc]
  cases c with
  | ready o => cases h
  | posted ticket =>
    change s.received ticket = none at h
    dsimp only
    rw [h]

/-- Nothing is submitted, answered or collected between the two states. -/
structure SameShelf (s s' : Service σ) : Prop where
  collectable : s'.collectable = s.collectable
  nextReplied : s'.nextReplied = s.nextReplied
  nextTicket : s'.nextTicket = s.nextTicket

theorem sameShelf_cancelTask (s : Service σ) (task : TaskId) :
    SameShelf s (s.cancelTask task).2 := by
  unfold cancelTask
  split <;> exact ⟨rfl, rfl, rfl⟩

theorem nextReplied_record (s : Service σ) (now : Nat) (id : SessionId) (reply : Option String)
    (nPast : Nat) : (s.record now id reply nPast).nextReplied = s.nextReplied := by
  unfold record
  split <;> rfl

variable [InferenceEngine σ]

def after (s : Service σ) : Call → Service σ
  | .submit now id prompt o => (s.submitTask now id prompt o).2
  | .result task => (s.taskResult task).2
  | .cancel task => (s.cancelTask task).2
  | .close id => (s.closeSession id).2
  | .work now => s.workerStep now

def afterAll (s : Service σ) (calls : List Call) : Service σ := calls.foldl after s

/-- The id that a call gives out. -/
def given (s : Service σ) : Call → List TaskId
  | .submit now id prompt o => (s.submitTask now id prompt o).1.toOption.toList
  | .result _ | .cancel _ | .close _ | .work _ => []

/-- The outcome that a call hands out, with its task. -/
def handed (s : Service σ) : Call → List (TaskId × Outcome)
  | .result task => ((s.outcome? task).map (task, ·)).toList
  | .submit _ _ _ _ | .cancel _ | .close _ | .work _ => []

def givenBy (s : Service σ) : List Call → List TaskId
  | [] => []
  | c :: calls => s.given c ++ (s.after c).givenBy calls

def handedBy (s : Service σ) : List Call → List (TaskId × Outcome)
  | [] => []
  | c :: calls => s.handed c ++ (s.after c).handedBy calls

theorem sameShelf_closeSession (s : Service σ) (id : SessionId) :
    SameShelf s (s.closeSession id).2 := by
  unfold closeSession
  cases s.sessions.close id with
  | error e => exact ⟨rfl, rfl, rfl⟩
  | ok r =>
    dsimp only
    split <;> exact ⟨rfl, rfl, rfl⟩

theorem nextReplied_startTurn (s : Service σ) (now : Nat) (id : SessionId) (prompt : String)
    (o : Overrides) : (s.startTurn now id prompt o).2.nextReplied = s.nextReplied := by
  unfold startTurn
  split
  · rfl
  · dsimp only
    split <;> rfl

theorem nextReplied_endTurn (s : Service σ) (now : Nat) (t : Turn) :
    (s.endTurn now t).2.nextReplied = s.nextReplied := by
  unfold endTurn
  dsimp only
  split <;> exact nextReplied_record _ _ _ _ _

theorem sameShelf_workerStep (s : Service σ) (now : Nat) : SameShelf s (s.workerStep now) := by
  refine ⟨collectable_workerStep s now, ?_, (worked_workerStep s now).nextTicket⟩
  unfold workerStep
  cases s.worker with
  | idle =>
    dsimp only
    split
    · split <;> rfl
    · rfl
  | waiting t =>
    dsimp only
    split
    · rfl
    · split <;> rfl
  | admitted t =>
    have ht := nextReplied_startTurn s now t.session t.prompt t.overrides
    dsimp only
    split
    case h_1 e s' h =>
      rw [h] at ht
      exact ht
    case h_2 turn s' h =>
      rw [h] at ht
      exact ht
  | running t turn => exact nextReplied_endTurn s now turn
  | «over» t r => rfl
  | uncounted t r => rfl
  | unsent t r => rfl
  | stopped => rfl

/-- The service after a submitted turn that had a slot: its reply can be collected under a new id. -/
def replied (s : Service σ) : Outcome → Service σ
  | .ok text => { s.expect s.nextInline (.ready (.ok text)) with nextInline := s.nextInline + 1 }
  | .error _ => s

/-- What becomes of a submission: it is turned away before the gate or at it, or queued, or its turn runs
to an end in a slot. -/
theorem submitTask_cases (s : Service σ) (now : Nat) (id : SessionId) (prompt : String)
    (o : Overrides) :
    (∃ e, s.submitTask now id prompt o = (.error e, s)) ∨
      (∃ e s₁, s.enter now id prompt o = (.error e, s₁) ∧
        s.submitTask now id prompt o = (.error e, s₁)) ∨
      (∃ task ticket s₁, s.enter now id prompt o = (.ok (.queued task ticket), s₁) ∧
        s.submitTask now id prompt o = (.ok task, s₁.expect task (.posted ticket))) ∨
      ∃ s₁ s₂ r, s.enter now id prompt o = (.ok .slot, s₁) ∧ s₁.Undisturbed s₂ ∧
        s₂.nextReplied = s₁.nextReplied ∧
        s.submitTask now id prompt o = ((fun _ => s₂.nextInline) <$> r, s₂.replied r) := by
  unfold submitTask submit openTurn
  cases s.checkTurn id with
  | error e => exact .inl ⟨e, rfl⟩
  | ok u =>
    right
    dsimp only
    cases hr : s.enter now id prompt o with
    | mk r s₁ =>
      cases r with
      | error e => exact .inl ⟨e, s₁, rfl, rfl⟩
      | ok a =>
        right
        cases a with
        | queued task ticket => exact .inl ⟨task, ticket, s₁, rfl, rfl⟩
        | slot =>
          right
          have hstart := undisturbed_startTurn s₁ now id prompt o
          have hstart' := nextReplied_startTurn s₁ now id prompt o
          dsimp only
          cases ht : s₁.startTurn now id prompt o with
          | mk t s₂ =>
            rw [ht] at hstart hstart'
            cases t with
            | error e =>
              -- the turn does not start, and the slot is free again
              have hslot : s₁.Undisturbed s₂.releaseSlot := hstart.trans ⟨rfl, rfl, rfl, rfl, rfl⟩
              exact ⟨s₁, s₂.releaseSlot, .error e, rfl, hslot, hstart', rfl⟩
            | ok turn =>
              have hend := undisturbed_endTurn s₂ now turn
              have hend' := nextReplied_endTurn s₂ now turn
              have hslot : s₁.Undisturbed (s₂.closeTurn now turn).2 :=
                (hstart.trans hend).trans ⟨rfl, rfl, rfl, rfl, rfl⟩
              refine ⟨s₁, (s₂.closeTurn now turn).2, (s₂.closeTurn now turn).1, rfl, hslot,
                hend'.trans hstart', ?_⟩
              dsimp only
              cases (s₂.closeTurn now turn).1 with
              | error e => rfl
              | ok text => rfl

end Service

namespace Mailroom

variable {σ : Type} [InferenceEngine σ]

theorem reaches_closeSession (m : Mailroom σ) (id : SessionId) :
    Reaches m (m.service.closeSession id).2 := by
  unfold Service.closeSession
  cases m.service.sessions.close id with
  | error e => exact reaches_self m
  | ok r =>
    have hgate : m.service.Undisturbed
        { m.service with sessions := r.2, gate := m.service.gate.closeSessions 1 } :=
      ⟨rfl, rfl, rfl, rfl, rfl⟩
    -- the gate hears of it first, then the queue, and the cache last
    apply (reaches_elsewhere hgate).trans
    intro m₁ h₁
    apply (reaches_retireOne m₁ id).trans
    intro m₂ h₂
    rw [h₁] at h₂
    apply reaches_elsewhere
    rw [h₂]
    dsimp only
    split
    · exact Service.undisturbed_clearCache _ _
    · exact Service.undisturbed_refl _

end Mailroom

namespace Desk

variable {σ : Type}

/-- A service to which a desk belongs that nobody stands at. -/
structure Serves (d : Desk σ) (s : Service σ) : Prop where
  service : d.service = s
  filing : d.filing = []
  polls : d.polls = []

variable {d : Desk σ} {s : Service σ}

variable [InferenceEngine σ]

/-- What does not submit or collect goes by mail. -/
theorem serves_mail (h : d.Serves s) {s' : Service σ}
    (hreaches : ∀ m : Mailroom σ, m.service = s → Mailroom.Reaches m s')
    (hshelf : s.SameShelf s') :
    ∃ d', Run d d' ∧ d'.Serves s' ∧ d'.submissions = d.submissions ∧ d'.inline = d.inline ∧
      d'.tasks = d.tasks ∧ d'.collected = d.collected := by
  obtain ⟨m, hrun, hm, -⟩ := hreaches d.mailroom h.service
  obtain ⟨hcollectable, hreplied, hticket⟩ := hshelf
  rw [← hm, ← h.service] at hcollectable hreplied hticket
  refine ⟨_, .single (.mail hrun hcollectable hreplied), ⟨hm, h.filing, h.polls⟩, ?_, rfl, rfl, rfl⟩
  dsimp only
  rw [hticket, Nat.sub_self, Nat.add_zero]

theorem serves_elsewhere (h : d.Serves s) {s' : Service σ} (hs : s.Undisturbed s')
    (hreplied : s'.nextReplied = s.nextReplied) :
    ∃ d', Run d d' ∧ d'.Serves s' ∧ d'.submissions = d.submissions ∧ d'.inline = d.inline ∧
      d'.tasks = d.tasks ∧ d'.collected = d.collected := by
  apply serves_mail h
  · intro m hm
    rw [← hm] at hs
    exact Mailroom.reaches_elsewhere hs
  · exact ⟨hs.collectable, hreplied, hs.nextTicket⟩

/-- A task that has just got its id is filed, and nobody stands at the desk. -/
theorem serves_file {x : Nat × Collectable} (hfiling : d.filing = [x]) (hpolls : d.polls = []) :
    ∃ d', Run d d' ∧ d'.Serves (d.service.expect x.1 x.2) ∧ d'.submissions = d.submissions ∧
      d'.tasks = d.tasks ∧ d'.collected = d.collected := by
  refine ⟨d.file 0, .single (.file 0), ?_⟩
  unfold file
  rw [hfiling]
  exact ⟨⟨rfl, rfl, hpolls⟩, rfl, rfl, rfl⟩

/-- A submitted turn that has its slot runs to its end in the call. -/
theorem serves_replied (h : d.Serves s) (hinline : 0 < d.inline) {s' : Service σ}
    (hs : s.Undisturbed s') (hreplied : s'.nextReplied = s.nextReplied) (r : Outcome) :
    ∃ d', Run d d' ∧ d'.Serves (s'.replied r) ∧ d'.submissions = d.submissions ∧
      d'.tasks.map (·.1) = d.tasks.map (·.1) ++ (r.toOption.map fun _ => s'.nextReplied).toList ∧
      d'.collected = d.collected := by
  obtain ⟨d₁, hrun, h₁, hsubmissions, hinline₁, htasks, hcollected⟩ := serves_elsewhere h hs hreplied
  cases r with
  | error e =>
    refine ⟨d₁, hrun, h₁, hsubmissions, ?_, hcollected⟩
    rw [htasks]
    exact (List.append_nil _).symm
  | ok text =>
    have hreply : Step d₁ (d₁.reply text) := .reply text (by rw [hinline₁]; exact hinline)
    have hfiling : (d₁.reply text).filing = [(d₁.service.nextReplied, .ready (.ok text))] := by
      change d₁.filing ++ _ = _
      rw [h₁.filing]
      rfl
    obtain ⟨d₂, hrun₂, h₂, hsubmissions₂, htasks₂, hcollected₂⟩ := serves_file hfiling h₁.polls
    refine ⟨d₂, (hrun.tail hreply).trans hrun₂, ?_, hsubmissions₂.trans hsubmissions, ?_,
      hcollected₂.trans hcollected⟩
    · rw [← h₁.service]
      exact h₂
    · have hreplied₁ : (d₁.reply text).tasks =
          d₁.tasks ++ [(d₁.service.nextReplied, .ready (.ok text))] := rfl
      rw [htasks₂, hreplied₁, htasks, h₁.service, List.map_append]
      rfl

theorem serves_submitTask (h : d.Serves s) (now : Nat) (id : SessionId) (prompt : String)
    (o : Overrides) :
    ∃ d', Run d d' ∧ d'.Serves (s.submitTask now id prompt o).2 ∧
      d'.submissions ≤ d.submissions + 1 ∧
      d'.tasks.map (·.1) = d.tasks.map (·.1) ++ (s.submitTask now id prompt o).1.toOption.toList ∧
      d'.collected = d.collected := by
  have hs : d.service = s := h.service
  have hstep : Step d (d.submit now id prompt o) := .submit now id prompt o
  have hentered : (d.mailroom.enter now id prompt o).service = (s.enter now id prompt o).2 := by
    rw [← hs]
    rfl
  unfold submit at hstep
  rw [hs] at hstep
  rcases s.submitTask_cases now id prompt o with ⟨e, he⟩ | ⟨e, s₁, hr, he⟩ |
    ⟨task, ticket, s₁, hr, hok⟩ | ⟨s₁, s₂, r, hr, hslot, hreplied, hend⟩
  · -- turned away before the gate: nothing has happened
    rw [he]
    exact ⟨d, .refl, h, Nat.le_succ _, (List.append_nil _).symm, rfl⟩
  · -- the queue does not take it, and a ticket is spent
    rw [hr] at hstep hentered
    rw [he]
    exact ⟨_, .single hstep, ⟨hentered, h.filing, h.polls⟩, Nat.le_refl _,
      (List.append_nil _).symm, rfl⟩
  · -- queued: the id is there, and the task has to be filed
    rw [hr] at hstep hentered
    let d₁ : Desk σ := { d with
      mailroom := d.mailroom.enter now id prompt o
      submissions := d.submissions + 1 }
    have hfiling : (d₁.issue task (.posted ticket)).filing = [(task, .posted ticket)] := by
      change d.filing ++ _ = _
      rw [h.filing]
      rfl
    obtain ⟨d', hrun, hserves, hsubmissions, htasks, hcollected⟩ := serves_file hfiling h.polls
    refine ⟨d', (Relation.ReflTransGen.single hstep).trans hrun, ?_, Nat.le_of_eq hsubmissions, ?_,
      hcollected⟩
    · rw [hok]
      dsimp only at hentered ⊢
      rw [← hentered]
      exact hserves
    · rw [htasks, hok]
      exact List.map_append
  · -- a slot: the turn runs, and an id comes with its reply
    rw [hr] at hstep hentered
    let d₁ : Desk σ := { d with
      mailroom := d.mailroom.enter now id prompt o
      submissions := d.submissions + 1
      inline := d.inline + 1 }
    have h₁ : d₁.Serves s₁ := ⟨hentered, h.filing, h.polls⟩
    obtain ⟨d', hrun, hserves, hsubmissions, htasks, hcollected⟩ :=
      serves_replied h₁ (Nat.succ_pos _) hslot hreplied r
    refine ⟨d', (Relation.ReflTransGen.single hstep).trans hrun, ?_, Nat.le_of_eq hsubmissions, ?_,
      hcollected⟩
    · rw [hend]
      exact hserves
    · rw [htasks, hend]
      cases r with
      | error e => rfl
      | ok text => rfl

/-- A call for a task that has no outcome yet takes it, gives up waiting, and puts it back. -/
theorem run_pending {task ticket : Nat}
    (hget : d.service.collectable.get? task = some (.posted ticket)) (hpolls : d.polls = [])
    (hnone : d.service.received ticket = none) : Run d d := by
  let taken : Desk σ :=
    { d.shelve (d.service.collectable.erase task) with polls := [⟨task, ticket, false⟩] }
  let late : Desk σ := { taken with polls := [⟨task, ticket, true⟩] }
  have htake : Step d taken := by
    have h : Step d (d.take task) := .take task
    unfold take at h
    rw [hget, hpolls] at h
    exact h
  have hlate : Step taken late := by
    have h : Step taken (taken.look 0) := .look 0
    rw [look_of_nothing rfl rfl hnone] at h
    exact h
  have hback : Step late d := by
    have h : Step late (late.look 0) := .look 0
    have hlook : late.look 0 = { d.shelve ((d.service.collectable.erase task).set task
        (.posted ticket)) with polls := [] } :=
      look_of_late (d := late) (i := 0) (p := ⟨task, ticket, true⟩) rfl rfl
    rw [hlook, Keyed.set_erase hget, ← hpolls] at h
    exact h
  exact ((Relation.ReflTransGen.single htake).tail hlate).tail hback

/-- A call for a task whose outcome has come takes it and hands the outcome out. -/
theorem run_received {task ticket : Nat} {o : Outcome}
    (hget : d.service.collectable.get? task = some (.posted ticket)) (hpolls : d.polls = [])
    (ho : d.service.received ticket = some o) :
    Run d { d.shelve (d.service.collectable.erase task) with
      polls := [], collected := d.collected ++ [(task, o)] } := by
  let taken : Desk σ :=
    { d.shelve (d.service.collectable.erase task) with polls := [⟨task, ticket, false⟩] }
  have htake : Step d taken := by
    have h : Step d (d.take task) := .take task
    unfold take at h
    rw [hget, hpolls] at h
    exact h
  have hlook : Step taken (taken.look 0) := .look 0
  rw [look_of_received rfl rfl ho] at hlook
  exact (Relation.ReflTransGen.single htake).tail hlook

theorem serves_taskResult (h : d.Serves s) (task : TaskId) :
    ∃ d', Run d d' ∧ d'.Serves (s.taskResult task).2 ∧ d'.submissions = d.submissions ∧
      d'.tasks = d.tasks ∧ d'.collected = d.collected ++ ((s.outcome? task).map (task, ·)).toList := by
  obtain ⟨rfl, hfiling, hpolls⟩ := h
  have houtcome := d.service.outcome?_eq task
  cases hget : d.service.collectable.get? task with
  | none =>
    rw [hget] at houtcome
    rw [Service.taskResult_of_missing hget, houtcome, Keyed.erase_of_missing hget]
    exact ⟨d, .refl, ⟨rfl, hfiling, hpolls⟩, rfl, rfl, (List.append_nil _).symm⟩
  | some c =>
    rw [hget] at houtcome
    cases ho : d.service.outcomeOf c with
    | none =>
      cases c with
      | ready o => cases ho
      | posted ticket =>
        rw [Service.taskResult_of_pending hget ho, houtcome.trans ho]
        exact ⟨d, run_pending hget hpolls ho, ⟨rfl, hfiling, hpolls⟩, rfl, rfl,
          (List.append_nil _).symm⟩
    | some o =>
      rw [Service.taskResult_of_outcome (houtcome.trans ho), houtcome.trans ho]
      cases c with
      | ready o' =>
        cases ho
        have htake : Step d (d.take task) := .take task
        unfold take at htake
        rw [hget] at htake
        exact ⟨_, .single htake, ⟨rfl, hfiling, hpolls⟩, rfl, rfl, rfl⟩
      | posted ticket =>
        exact ⟨_, run_received hget hpolls ho, ⟨rfl, hfiling, rfl⟩, rfl, rfl, rfl⟩

theorem serves_after (h : d.Serves s) (c : Service.Call) :
    ∃ d', Run d d' ∧ d'.Serves (s.after c) ∧
      d'.submissions ≤ d.submissions + Service.Call.submissions [c] ∧
      d'.tasks.map (·.1) = d.tasks.map (·.1) ++ s.given c ∧
      d'.collected = d.collected ++ s.handed c := by
  have hmail {s' : Service σ} (hreaches : ∀ m : Mailroom σ, m.service = s → Mailroom.Reaches m s')
      (hshelf : s.SameShelf s') :
      ∃ d', Run d d' ∧ d'.Serves s' ∧ d'.submissions ≤ d.submissions + 0 ∧
        d'.tasks.map (·.1) = d.tasks.map (·.1) ++ [] ∧ d'.collected = d.collected ++ [] := by
    obtain ⟨d', hrun, hserves, hsubmissions, -, htasks, hcollected⟩ := serves_mail h hreaches hshelf
    rw [List.append_nil, List.append_nil]
    exact ⟨d', hrun, hserves, Nat.le_of_eq hsubmissions, congrArg _ htasks, hcollected⟩
  cases c with
  | submit now id prompt o =>
    obtain ⟨d', hrun, hserves, hsubmissions, htasks, hcollected⟩ :=
      serves_submitTask h now id prompt o
    exact ⟨d', hrun, hserves, hsubmissions, htasks, hcollected.trans (List.append_nil _).symm⟩
  | result task =>
    obtain ⟨d', hrun, hserves, hsubmissions, htasks, hcollected⟩ := serves_taskResult h task
    refine ⟨d', hrun, hserves, Nat.le_of_eq hsubmissions, ?_, hcollected⟩
    rw [htasks]
    exact (List.append_nil _).symm
  | cancel task =>
    refine hmail (fun m hm => ?_) (s.sameShelf_cancelTask task)
    exact hm ▸ Mailroom.reaches_cancelTask m task
  | close id =>
    refine hmail (fun m hm => ?_) (s.sameShelf_closeSession id)
    exact hm ▸ Mailroom.reaches_closeSession m id
  | work now =>
    refine hmail (fun m hm => ?_) (s.sameShelf_workerStep now)
    exact hm ▸ Mailroom.reaches_workerStep m now

/-- Calls made one after the other are a run of the desk, which gives out and hands out the same. -/
theorem serves_afterAll (h : d.Serves s) (calls : List Service.Call) :
    ∃ d', Run d d' ∧ d'.Serves (s.afterAll calls) ∧
      d'.submissions ≤ d.submissions + Service.Call.submissions calls ∧
      d'.tasks.map (·.1) = d.tasks.map (·.1) ++ s.givenBy calls ∧
      d'.collected = d.collected ++ s.handedBy calls := by
  -- over the calls, each from the desk that the one before left empty
  induction calls generalizing d s with
  | nil => exact ⟨d, .refl, h, Nat.le_refl _, (List.append_nil _).symm, (List.append_nil _).symm⟩
  | cons c calls ih =>
    obtain ⟨d₁, hrun₁, h₁, hsubmissions₁, htasks₁, hcollected₁⟩ := serves_after h c
    obtain ⟨d₂, hrun₂, h₂, hsubmissions₂, htasks₂, hcollected₂⟩ := ih h₁
    have hcount := Service.Call.submissions_append [c] calls
    rw [List.singleton_append] at hcount
    refine ⟨d₂, hrun₁.trans hrun₂, h₂, by omega, ?_, ?_⟩
    · rw [htasks₂, htasks₁, List.append_assoc]
      rfl
    · rw [hcollected₂, hcollected₁, List.append_assoc]
      rfl

end Desk

end ChatInference
