import ChatInference.Proofs.Service.Collecting
import ChatInference.Proofs.Service.Loads
import ChatInference.Proofs.Service.Parts

/-!
What an error in the arguments of a call leaves behind. A call looks at its arguments, asks the
service, and writes what the service has answered. Where an argument is turned down first, nothing
has happened; where the answer then finds no place, the service has done all that it was asked.
-/

namespace ChatInference

theorem ModelState.nextGraph_ne (graph : Nat) : nextGraph graph ≠ graph := by
  intro h
  have hnext : max 1 ((graph + 1) % 4294967296) = graph := h
  omega

namespace Service

variable {σ : Type}

/-- How many messages the history of a session has. -/
def messages (s : Service σ) (id : SessionId) : Nat :=
  (s.sessions.sessions.get? id).elim 0 (·.history.length)

theorem messages_record (s : Service σ) (now : Nat) (id : SessionId) (text : String) (nPast : Nat) :
    s.messages id ≤ (s.record now id (some text) nPast).messages id := by
  unfold messages
  rw [get?_record, if_pos rfl]
  cases s.sessions.sessions.get? id with
  | none => exact Nat.le_refl _
  | some session =>
    change session.history.length ≤ (session.history ++ [Message.mk .assistant text]).length
    rw [List.length_append]
    exact Nat.le_add_right _ _

variable {s s' : Service σ}

theorem submitted_enter {now : Nat} {id : SessionId} {prompt : String} {o : Overrides}
    {task : TaskId} {ticket : Nat} (h : s.enter now id prompt o = (.ok (.queued task ticket), s')) :
    s'.queue.counters.submitted = s.queue.counters.submitted + 1 := by
  unfold enter at h
  split at h
  case h_1 => cases h
  case h_2 =>
    dsimp only at h
    generalize Task.withOverrides _ o = t at h
    have hcounters := Queue.enqueue_cases s.queue now t
    generalize s.queue.enqueue now t = r at h hcounters
    obtain ⟨-, rfl⟩ := Prod.mk.inj h
    obtain haway | hin := hcounters
    · exact congrArg QueueCounters.submitted haway.counters
    · exact congrArg QueueCounters.submitted hin.counters

/-- A reply that is handed out was there to be collected, and is not any more. -/
theorem taskResult_some {task : TaskId} {text : String}
    (h : s.taskResult task = (.ok (some text), s')) :
    s.collectable.get? task ≠ none ∧ s'.collectable.get? task = none := by
  have hgone : (s.collectable.erase task).get? task = none := Keyed.get?_erase_self _ _
  unfold taskResult at h
  cases hc : s.collectable.get? task with
  | none =>
    rw [hc] at h
    cases h
  | some c =>
    refine ⟨Option.some_ne_none c, ?_⟩
    dsimp only at h
    split at h
    case h_1 outcome _ =>
      obtain ⟨-, rfl⟩ := Prod.mk.inj h
      exact hgone
    case h_2 => cases h

variable [InferenceEngine σ]

/-- A load that succeeds gives the model a number of its own. -/
theorem graph_of_load {path : String} {text : Option String} {graph : GraphId}
    (h : (s.load path text).1 = .ok graph) :
    (s.load path text).2.model.state.graph = ModelState.nextGraph s.model.state.graph := by
  obtain ⟨hr, hm⟩ := s.load_eq_switch_load path text
  rw [hr] at h
  rw [hm]
  have hend := s.model.load_end path text
  generalize s.model.load path text = out at h hend ⊢
  cases hend with
  | loaded hl e d => rfl
  | refused hl => cases h
  | notLoaded hl hs e err => cases h
  | restored hl hs hback e err => cases h
  | lost hl hs hback e err again => cases h

theorem messages_startTurn {now : Nat} {id : SessionId} {prompt : String} {o : Overrides} {t : Turn}
    (h : s.startTurn now id prompt o = (.ok t, s')) :
    t.session = id ∧ s.messages id < s'.messages id := by
  unfold startTurn at h
  split at h
  case h_1 => cases h
  case h_2 model _ =>
    dsimp only at h
    split at h
    case h_1 => cases h
    case h_2 session sessions hb =>
      cases h
      refine ⟨rfl, ?_⟩
      have hu := SessionTable.update_of_beginTurn hb
      obtain ⟨v, hv, -⟩ := SessionTable.update_eq hu
      unfold messages
      dsimp only
      rw [SessionTable.get?_update hu, if_pos rfl, hv]
      change v.history.length < (v.history ++ [Message.mk .user prompt]).length
      rw [List.length_append]
      exact Nat.lt_succ_self _

theorem messages_endTurn {now : Nat} {t : Turn} {text : String}
    (h : s.endTurn now t = (.ok text, s')) : s.messages t.session ≤ s'.messages t.session := by
  unfold endTurn at h
  cases hg : InferenceEngine.generate s.model.engine t.request with
  | mk r engine =>
    rw [hg] at h
    cases r with
    | ok g =>
      cases h
      exact messages_record { s with model := { s.model with engine } } now t.session g.text _
    | error e => cases h

/-- The worker submits nothing. -/
theorem submitted_workerStep (s : Service σ) (now : Nat) :
    (s.workerStep now).queue.counters.submitted = s.queue.counters.submitted := by
  unfold workerStep
  cases s.worker with
  | idle =>
    have hcounters := congrArg QueueCounters.submitted (Queue.counters_dequeue s.queue now)
    dsimp only
    split
    · split
      · exact hcounters
      · exact hcounters
    · rfl
  | waiting t =>
    dsimp only
    split
    · rfl
    · split <;> rfl
  | admitted t =>
    have ht := (undisturbed_startTurn s now t.session t.prompt t.overrides).queue
    dsimp only
    split
    case h_1 e s₁ h =>
      rw [h] at ht
      exact congrArg (·.counters.submitted) ht
    case h_2 turn s₁ h =>
      rw [h] at ht
      exact congrArg (·.counters.submitted) ht
  | running t turn =>
    exact congrArg (·.counters.submitted) (undisturbed_endTurn s now turn).queue
  | «over» t r => rfl
  | uncounted t r => rfl
  | unsent t r => rfl
  | stopped => rfl

theorem submitted_work (s : Service σ) (now : Nat) :
    (s.work now).queue.counters.submitted = s.queue.counters.submitted := by
  let Same (s' : Service σ) : Prop := s'.queue.counters.submitted = s.queue.counters.submitted
  have htask (s' : Service σ) (h : Same s') (i : Nat) : Same (s'.workTask (now + i)) :=
    List.foldlRecOn (motive := Same) _ _ h fun s'' h'' _ _ =>
      (submitted_workerStep s'' (now + i)).trans h''
  exact List.foldlRecOn (motive := Same) _ _ rfl fun s' h i _ => htask s' h i

/-- A turn that is let in grows the history of its session, or joins the queue. -/
theorem submit_ok {now : Nat} {id : SessionId} {prompt : String} {o : Overrides} {r : Submission}
    (h : s.submit now id prompt o = (.ok r, s')) :
    (∃ text, r = .completed text ∧ s.messages id < s'.messages id) ∨
      ∃ task ticket, r = .queued task ticket ∧
        s'.queue.counters.submitted = s.queue.counters.submitted + 1 := by
  unfold submit openTurn at h
  cases hcheck : s.checkTurn id with
  | error e =>
    rw [hcheck] at h
    cases h
  | ok u =>
    rw [hcheck] at h
    dsimp only at h
    obtain ⟨gate, -, he⟩ | ⟨-, hslot, -⟩ := s.enter_cases now id prompt o
    · -- the turn runs to its end in the slot
      rw [he] at h
      dsimp only at h
      cases hstart : startTurn { s with gate } now id prompt o with
      | mk t s₁ =>
        rw [hstart] at h
        cases t with
        | error e => cases h
        | ok t =>
          obtain ⟨ht, hbegun⟩ := messages_startTurn hstart
          dsimp only [closeTurn] at h
          cases hend : s₁.endTurn now t with
          | mk reply s₂ =>
            rw [hend] at h
            cases reply with
            | error e => cases h
            | ok text =>
              have hended := messages_endTurn hend
              rw [ht] at hended
              cases h
              exact .inl ⟨text, rfl, Nat.lt_of_lt_of_le hbegun hended⟩
    · cases henter : s.enter now id prompt o with
      | mk a s₁ =>
        rw [henter] at h hslot
        cases a with
        | error e => cases h
        | ok a =>
          cases a with
          | slot => exact absurd rfl hslot
          | queued task ticket =>
            cases h
            exact .inr ⟨task, ticket, rfl, submitted_enter henter⟩

theorem infer_ok {now : Nat} {id : SessionId} {prompt : String} {o : Overrides} {text : String}
    (h : s.infer now id prompt o = (.ok text, s')) :
    s.messages id < s'.messages id ∨
      s'.queue.counters.submitted = s.queue.counters.submitted + 1 := by
  unfold infer at h
  cases hsubmit : s.submit now id prompt o with
  | mk r s₁ =>
    rw [hsubmit] at h
    cases r with
    | error e => cases h
    | ok r =>
      obtain ⟨reply, rfl, hgrown⟩ | ⟨task, ticket, rfl, hjoined⟩ := submit_ok hsubmit
      · cases h
        exact .inl hgrown
      · right
        obtain ⟨-, rfl⟩ := Prod.mk.inj h
        unfold settle
        rw [submitted_work, submitted_work]
        exact hjoined

end Service

namespace Boundary

/-- A call as it comes in, with its bytes and with what it has room for. -/
inductive Call where
  | load (path config : Bytes) (room : Bool)
  | openSession (graph : GraphId) (room : Bool)
  | closeSession (id : SessionId)
  | infer (id : SessionId) (prompt overrides : Bytes) (reply : Buffer)
  | submit (id : SessionId) (prompt overrides : Bytes) (room : Bool)
  | taskResult (task : TaskId) (wait : Int) (reply : Buffer) (ready : Bool)

/-- A call whose arguments are in order, as the service gets it. -/
inductive Command where
  | load (path : String) (config : Option String)
  | openSession (graph : GraphId)
  | closeSession (id : SessionId)
  | infer (id : SessionId) (prompt : String) (overrides : Option String)
  | submit (id : SessionId) (prompt : String) (overrides : Option String)
  | taskResult (task : TaskId) (wait : Int)

/-- What the service answers with, where it does not fail. -/
inductive Reply where
  | nothing
  | number
  | text (text : String)

/-- A text that is not there. -/
def Missing (bytes : Bytes) : Prop := bytes = none ∨ bytes = some []

/-- Bytes that are no text. -/
def Garbled (bytes : Bytes) : Prop :=
  ∃ bs, bytes = some bs ∧ bs ≠ [] ∧ String.fromUTF8? ⟨bs.toArray⟩ = none

/-- What is wrong with the arguments of a call by themselves. The room for the result of a load, of
a turn or of a task is not among them. -/
def Call.Flawed : Call → Prop
  | .load path config _ => Missing path ∨ Garbled path ∨ Garbled config
  | .openSession _ room => room = false
  | .closeSession _ => False
  | .infer _ prompt overrides _ => Missing prompt ∨ Garbled prompt ∨ Garbled overrides
  | .submit _ prompt overrides room =>
    Missing prompt ∨ Garbled prompt ∨ Garbled overrides ∨ room = false
  | .taskResult _ _ _ ready => ready = false

variable {σ : Type}

/-- Looks at a text that has to be there, and at one that may be missing. -/
def arguments (text config : Bytes) : Except Status (String × Option String) := do
  return (← required text, ← text? config)

/-- Looks at the arguments of a call. -/
def Call.check : Call → Except Status Command
  | .load path config _ => (fun (path, config) => .load path config) <$> arguments path config
  | .openSession graph room => if room then .ok (.openSession graph) else .error .invalidArgument
  | .closeSession id => .ok (.closeSession id)
  | .infer id prompt overrides _ =>
    (fun (prompt, overrides) => .infer id prompt overrides) <$> arguments prompt overrides
  | .submit id prompt overrides room => do
    let (prompt, overrides) ← arguments prompt overrides
    if room then .ok (.submit id prompt overrides) else .error .invalidArgument
  | .taskResult task wait _ ready =>
    if ready then .ok (.taskResult task wait) else .error .invalidArgument

/-- Writes what the service has answered. -/
def Call.place : Call → Reply → Status
  | .load _ _ false, .number => .invalidArgument
  | .infer _ _ _ reply, .text text => (write reply text).status
  | .taskResult _ _ reply _, .text text => (write reply text).status
  | _, _ => .success

/-- What a call comes to once the service has answered. -/
def Call.conclude (c : Call) : Except Error Reply × Service σ → Status × Handle σ
  | (.error e, s) => (e.status, some s)
  | (.ok r, s) => (c.place r, some s)

/-- What shows of a service: its model with the number, its sessions with their histories, its queue
and the results that can be collected. -/
def contents (h : Handle σ) : Option (ModelState × SessionTable × Queue × Keyed Collectable) :=
  h.map fun s => (s.model.state, s.sessions, s.queue, s.collectable)

theorem of_contents_eq {s s' : Service σ} (h : contents (some s') = contents (some s)) :
    s'.model.state = s.model.state ∧ s'.sessions = s.sessions ∧ s'.queue = s.queue ∧
      s'.collectable = s.collectable := by
  obtain ⟨hstate, hrest⟩ := Prod.ext_iff.1 (Option.some.inj h)
  obtain ⟨hsessions, hrest⟩ := Prod.ext_iff.1 hrest
  exact ⟨hstate, hsessions, Prod.ext_iff.1 hrest⟩

/-- A check turns down what is flawed, with a status that blames the arguments, and nothing else. -/
inductive Checked {α : Type} (flaw : Prop) : Except Status α → Prop where
  | refused {e : Status} (hf : flaw) (he : e = .invalidArgument ∨ e = .invalidEncoding) :
      Checked flaw (.error e)
  | passed (a : α) (hf : ¬flaw) : Checked flaw (.ok a)

namespace Checked

variable {α β : Type} {p q : Prop} {x : Except Status α}

theorem bind {f : α → Except Status β} (hx : Checked p x) (hf : ∀ a, x = .ok a → Checked q (f a)) :
    Checked (p ∨ q) (x >>= f) := by
  cases hx with
  | refused hp he => exact .refused (.inl hp) he
  | passed a hp =>
    change Checked (p ∨ q) (f a)
    have hthen := hf a rfl
    generalize f a = y at hthen ⊢
    cases hthen with
    | refused hq he => exact .refused (.inr hq) he
    | passed b hq => exact .passed b fun h => h.elim hp hq

theorem map (g : α → β) (hx : Checked p x) : Checked p (g <$> x) := by
  cases hx with
  | refused hp he => exact .refused hp he
  | passed a hp => exact .passed (g a) hp

theorem congr (hx : Checked p x) (h : p ↔ q) : Checked q x := by
  rwa [← propext h]

end Checked

theorem checked_room {α : Type} (room : Bool) (a : α) :
    Checked (room = false) (if room then .ok a else .error .invalidArgument) := by
  cases room with
  | false => exact .refused rfl (.inl rfl)
  | true => exact .passed a (by decide)

/-- What bytes are as a text: there is none, they are none, or they are one. -/
theorem text?_cases (bytes : Bytes) :
    (Missing bytes ∧ ¬Garbled bytes ∧ text? bytes = .ok none) ∨
      (Garbled bytes ∧ text? bytes = .error .invalidEncoding) ∨
      ∃ text, ¬Missing bytes ∧ ¬Garbled bytes ∧ text? bytes = .ok (some text) := by
  cases bytes with
  | none => exact .inl ⟨.inl rfl, by simp [Garbled], rfl⟩
  | some bs =>
    cases bs with
    | nil => exact .inl ⟨.inr rfl, by simp [Garbled], rfl⟩
    | cons b bs =>
      right
      have hthere : ¬Missing (some (b :: bs)) := by simp [Missing]
      cases hs : String.fromUTF8? ⟨(b :: bs).toArray⟩ with
      | none =>
        refine .inl ⟨⟨b :: bs, rfl, List.cons_ne_nil b bs, hs⟩, ?_⟩
        simp only [text?, hs]
      | some text =>
        refine .inr ⟨text, hthere, ?_, by simp only [text?, hs]⟩
        rintro ⟨bs', heq, -, hnone⟩
        cases heq
        rw [hs] at hnone
        cases hnone

theorem checked_text? (bytes : Bytes) : Checked (Garbled bytes) (text? bytes) := by
  obtain ⟨-, hclear, h⟩ | ⟨hgarbled, h⟩ | ⟨text, -, hclear, h⟩ := text?_cases bytes
  · rw [h]
    exact .passed none hclear
  · rw [h]
    exact .refused hgarbled (.inr rfl)
  · rw [h]
    exact .passed (some text) hclear

theorem checked_required (bytes : Bytes) :
    Checked (Missing bytes ∨ Garbled bytes) (required bytes) := by
  unfold required
  obtain ⟨hmissing, -, h⟩ | ⟨hgarbled, h⟩ | ⟨text, hthere, hclear, h⟩ := text?_cases bytes
  · rw [h]
    exact .refused (.inl hmissing) (.inl rfl)
  · rw [h]
    exact .refused (.inr hgarbled) (.inr rfl)
  · rw [h]
    exact .passed text fun hf => hf.elim hthere hclear

theorem checked_arguments (text config : Bytes) :
    Checked ((Missing text ∨ Garbled text) ∨ Garbled config) (arguments text config) := by
  unfold arguments
  apply (checked_required text).bind
  intro t _
  exact (checked_text? config).map fun c => (t, c)

theorem checked_check (c : Call) : Checked c.Flawed c.check := by
  cases c with
  | load path config room =>
    apply ((checked_arguments path config).map _).congr
    exact or_assoc
  | openSession graph room => exact checked_room room _
  | closeSession id => exact .passed _ not_false
  | infer id prompt overrides reply =>
    apply ((checked_arguments prompt overrides).map _).congr
    exact or_assoc
  | submit id prompt overrides room =>
    apply ((checked_arguments prompt overrides).bind fun a _ => checked_room room _).congr
    simp only [Call.Flawed, or_assoc]
  | taskResult task wait reply ready => exact checked_room ready _

theorem ok_of_map {α β : Type} {x : Except Status α} {f : α → β} {b : β} (h : f <$> x = .ok b) :
    ∃ a, x = .ok a ∧ f a = b := by
  cases x with
  | error e => cases h
  | ok a => exact ⟨a, rfl, Except.ok.inj h⟩

/-- A call on a service looks at its texts like any other. -/
theorem arguments_some (s : Service σ) (text config : Bytes) :
    (do return (← service (some s), ← required text, ← text? config)) =
      (fun (text, config) => (s, text, config)) <$> arguments text config := by
  unfold arguments
  cases required text with
  | error e => rfl
  | ok text => cases text? config <;> rfl

variable [InferenceEngine σ]

def Command.ask (s : Service σ) (now : Nat) : Command → Except Error Reply × Service σ
  | .load path config =>
    let (r, s) := s.load path config
    ((fun _ => .number) <$> r, s)
  | .openSession graph =>
    let (r, s) := s.createSession now (some graph)
    ((fun _ => .number) <$> r, s)
  | .closeSession id =>
    let (r, s) := s.closeSession id
    ((fun _ => .nothing) <$> r, s)
  | .infer id prompt overrides =>
    let (r, s) := s.infer now id prompt (.parse overrides)
    (.text <$> r, s)
  | .submit id prompt overrides =>
    let (r, s) := s.submitTask now id prompt (.parse overrides)
    ((fun _ => .number) <$> r, s)
  | .taskResult task wait =>
    let s := if wait < 0 then s.settle now else s
    let (r, s) := s.taskResult task
    ((fun text => text.elim .nothing .text) <$> r, s)

/-- The status a call answers with, and what it leaves behind. -/
def Call.run (h : Handle σ) (now : Nat) : Call → Status × Handle σ
  | .load path config room =>
    let r := Boundary.load h path config room
    (r.1, r.2.2)
  | .openSession graph room =>
    let r := Boundary.openSession h now graph room
    (r.1, r.2.2)
  | .closeSession id => Boundary.closeSession h id
  | .infer id prompt overrides reply =>
    let r := Boundary.infer h now id prompt overrides reply
    (r.1.status, r.2)
  | .submit id prompt overrides room =>
    let r := Boundary.submit h now id prompt overrides room
    (r.1, r.2.2)
  | .taskResult task wait reply ready =>
    let r := Boundary.taskResult h now task wait reply ready
    (r.1.status, r.2.2)

theorem run_none (now : Nat) (c : Call) : c.run (none : Handle σ) now = (.invalidArgument, none) := by
  cases c <;> rfl

/-- Each call looks at its arguments, asks, and writes the answer, in this order. -/
theorem run_some (s : Service σ) (now : Nat) (c : Call) :
    c.run (some s) now =
      match c.check with
      | .error e => (e, some s)
      | .ok command => c.conclude (command.ask s now) := by
  -- an argument that is turned down ends the call in the same way on both sides
  cases c with
  | load path config room =>
    dsimp only [Call.run, Boundary.load, Call.check]
    rw [arguments_some]
    cases arguments path config with
    | error e => rfl
    | ok a =>
      obtain ⟨path, config⟩ := a
      dsimp only [Functor.map, Except.map, Command.ask]
      cases (s.load path config).1 with
      | error e => rfl
      | ok graph => cases room <;> rfl
  | openSession graph room =>
    cases room with
    | false => rfl
    | true =>
      change ((number (s.createSession now (some graph)).1 true).1,
        some (s.createSession now (some graph)).2) = Call.conclude _ (Command.ask s now _)
      dsimp only [Command.ask]
      cases (s.createSession now (some graph)).1 <;> rfl
  | closeSession id =>
    change (statusOf (s.closeSession id).1, some (s.closeSession id).2) =
      Call.conclude _ (Command.ask s now _)
    dsimp only [Command.ask]
    cases (s.closeSession id).1 <;> rfl
  | infer id prompt overrides reply =>
    dsimp only [Call.run, Boundary.infer, Call.check]
    rw [arguments_some]
    cases arguments prompt overrides with
    | error e => rfl
    | ok a =>
      obtain ⟨prompt, overrides⟩ := a
      dsimp only [Functor.map, Except.map, Command.ask]
      cases s.infer now id prompt (.parse overrides) with
      | mk r s => cases r <;> rfl
  | submit id prompt overrides room =>
    dsimp only [Call.run, Boundary.submit, Call.check]
    rw [arguments_some]
    cases arguments prompt overrides with
    | error e => rfl
    | ok a =>
      obtain ⟨prompt, overrides⟩ := a
      cases room with
      | false => rfl
      | true =>
        change ((number (s.submitTask now id prompt (.parse overrides)).1 true).1,
          some (s.submitTask now id prompt (.parse overrides)).2) =
          Call.conclude _ (Command.ask s now _)
        dsimp only [Command.ask]
        cases (s.submitTask now id prompt (.parse overrides)).1 <;> rfl
  | taskResult task wait reply ready =>
    cases ready with
    | false => rfl
    | true =>
      let c : Collection := ⟨now, wait, reply⟩
      change ((Boundary.taskResult (some s) c.now task c.wait c.buffer true).1.status,
          (Boundary.taskResult (some s) c.now task c.wait c.buffer true).2.2) =
        Call.conclude _ (_ <$> ((c.awaited s).taskResult task).1, ((c.awaited s).taskResult task).2)
      rw [taskResult_eq]
      cases (c.awaited s).taskResult task with
      | mk r s =>
        cases r with
        | error e => rfl
        | ok text => cases text <;> rfl

/-- The service itself blames an argument, whatever those of the call are like. -/
def Call.Blamed (h : Handle σ) (now : Nat) (c : Call) : Prop :=
  ∃ s command detail, h = some s ∧ c.check = .ok command ∧
    (command.ask s now).1 = .error (.invalidArgument detail)

/-- The call ends with a status for what is wrong with its arguments. -/
def Call.ArgumentError (h : Handle σ) (now : Nat) (c : Call) : Prop :=
  (c.run h now).1 = .invalidEncoding ∨ (c.run h now).1 = .invalidArgument ∧ ¬c.Blamed h now

theorem status_ne_invalidEncoding (e : Error) : e.status ≠ .invalidEncoding := by
  cases e <;> exact Status.noConfusion

theorem place_ne_invalidEncoding (c : Call) (r : Reply) : c.place r ≠ .invalidEncoding := by
  have hwrite (b : Buffer) (text : String) : (write b text).status ≠ .invalidEncoding := by
    unfold write
    dsimp only
    split
    · exact Status.noConfusion
    · split
      · exact Status.noConfusion
      · split <;> exact Status.noConfusion
  unfold Call.place
  split
  · exact Status.noConfusion
  · exact hwrite _ _
  · exact hwrite _ _
  · exact Status.noConfusion

section Done

variable {s s' : Service σ} {now : Nat} {r : Reply}

theorem contents_load_ne {path : String} {config : Option String}
    (h : (Command.load path config).ask s now = (.ok r, s')) :
    contents (some s') ≠ contents (some s) := by
  dsimp only [Command.ask] at h
  obtain ⟨hr, rfl⟩ := Prod.mk.inj h
  cases hload : (s.load path config).1 with
  | error e =>
    rw [hload] at hr
    cases hr
  | ok graph =>
    intro hsame
    obtain ⟨hstate, -⟩ := of_contents_eq hsame
    have hgraph := Service.graph_of_load hload
    exact ModelState.nextGraph_ne _ (hgraph.symm.trans (congrArg ModelState.graph hstate))

theorem contents_infer_ne {id : SessionId} {prompt : String} {overrides : Option String}
    (h : (Command.infer id prompt overrides).ask s now = (.ok r, s')) :
    contents (some s') ≠ contents (some s) := by
  dsimp only [Command.ask] at h
  obtain ⟨hr, rfl⟩ := Prod.mk.inj h
  cases hinfer : s.infer now id prompt (.parse overrides) with
  | mk reply s' =>
    rw [hinfer] at hr
    cases reply with
    | error e => cases hr
    | ok text =>
      intro hsame
      dsimp only at hsame
      obtain ⟨-, hsessions, hqueue, -⟩ := of_contents_eq hsame
      obtain hgrown | hjoined := Service.infer_ok hinfer
      · unfold Service.messages at hgrown
        rw [hsessions] at hgrown
        exact Nat.lt_irrefl _ hgrown
      · rw [hqueue] at hjoined
        exact Nat.succ_ne_self _ hjoined.symm

theorem contents_taskResult_ne {task : TaskId} {wait : Int} {text : String}
    (h : (Command.taskResult task wait).ask s now = (.ok (.text text), s')) :
    contents (some s') ≠ contents (some s) := by
  let c : Collection := ⟨now, wait, { capacity := none }⟩
  have hsame : (c.awaited s).collectable = s.collectable := collectable_awaited c s
  dsimp only [Command.ask] at h
  change (_ <$> ((c.awaited s).taskResult task).1, ((c.awaited s).taskResult task).2) = _ at h
  cases hr : (c.awaited s).taskResult task with
  | mk r s₁ =>
    rw [hr] at h
    cases r with
    | error e => cases h
    | ok reply =>
      cases reply with
      | none => cases h
      | some reply =>
        cases h
        obtain ⟨hthere, hgone⟩ := Service.taskResult_some hr
        intro hcontents
        obtain ⟨-, -, -, hcollectable⟩ := of_contents_eq hcontents
        rw [hsame, ← hcollectable] at hthere
        exact hthere hgone

/-- An answer that finds no place is the answer to something done. -/
theorem contents_ask_ne {c : Call} {command : Command} (hcheck : c.check = .ok command)
    (hask : command.ask s now = (.ok r, s')) (hplace : c.place r = .invalidArgument) :
    contents (some s') ≠ contents (some s) := by
  cases c with
  | load path config room =>
    obtain ⟨⟨path, config⟩, -, rfl⟩ := ok_of_map hcheck
    exact contents_load_ne hask
  | infer id prompt overrides reply =>
    obtain ⟨⟨prompt, overrides⟩, -, rfl⟩ := ok_of_map hcheck
    exact contents_infer_ne hask
  | taskResult task wait reply ready =>
    cases r with
    | nothing => cases hplace
    | number => cases hplace
    | text text =>
      cases ready with
      | false => cases hcheck
      | true =>
        cases hcheck
        exact contents_taskResult_ne hask
  -- the room for these was looked at first
  | openSession graph room => cases r <;> cases hplace
  | closeSession id => cases r <;> cases hplace
  | submit id prompt overrides room => cases r <;> cases hplace

end Done

/-- A call that ends with a status for its arguments leaves everything as it was where there is no
service, or something is wrong with the arguments by themselves: these it looks at first. Otherwise
it lacks the room for the result of a load, a turn or a collected task, which it looks at last, and
what shows of the service is not as it was. -/
theorem argument_error_without_effect_iff {h : Handle σ} {now : Nat} {c : Call}
    (herror : c.ArgumentError h now) :
    (h = none ∨ c.Flawed → (c.run h now).2 = h) ∧
      (contents (c.run h now).2 = contents h → h = none ∨ c.Flawed) := by
  cases h with
  | none =>
    rw [run_none]
    exact ⟨fun _ => rfl, fun _ => .inl rfl⟩
  | some s =>
    unfold Call.ArgumentError at herror
    rw [run_some] at herror ⊢
    have hchecked := checked_check c
    cases hcheck : c.check with
    | error e =>
      rw [hcheck] at hchecked
      cases hchecked with
      | refused hflawed he => exact ⟨fun _ => rfl, fun _ => .inr hflawed⟩
    | ok command =>
      rw [hcheck] at hchecked herror
      cases hchecked with
      | passed _ hclear =>
        have hnot : ¬(some s = none ∨ c.Flawed) := by
          rintro (hnone | hflawed)
          · cases hnone
          · exact hclear hflawed
        refine ⟨fun h => absurd h hnot, fun hsame => absurd hsame ?_⟩
        dsimp only at herror ⊢
        cases hask : command.ask s now with
        | mk r s' =>
          rw [hask] at herror
          cases r with
          | ok r =>
            obtain hencoding | ⟨hplace, -⟩ := herror
            · exact absurd hencoding (place_ne_invalidEncoding c r)
            · exact contents_ask_ne hcheck hask hplace
          | error e =>
            obtain hencoding | ⟨hstatus, hown⟩ := herror
            · exact absurd hencoding (status_ne_invalidEncoding e)
            · -- only an error of this kind has the status
              obtain ⟨detail, rfl⟩ : ∃ detail, e = .invalidArgument detail := by
                cases e <;> first | exact ⟨_, rfl⟩ | cases hstatus
              exact absurd ⟨s, command, detail, rfl, hcheck, by rw [hask]⟩ hown

/-- A service without a model. -/
def fresh : Handle RehearsedEngine := some (.ofConfig {} {})

/-- A load of the file a, with nowhere to put the number of the model. -/
def unplaced : Call := .load (some [97]) none false

theorem argumentError_unplaced : unplaced.ArgumentError fresh 0 := by
  refine .inr ⟨rfl, ?_⟩
  rintro ⟨s, command, detail, hs, hcheck, hask⟩
  cases hs
  cases hcheck
  cases hask

/-- A load that finds no room for its number, and a turn that comes without a prompt. -/
theorem argument_error_without_effect_iff_fresh :
    contents (unplaced.run fresh 0).2 ≠ contents fresh ∧
      ((Call.infer 1 none none ⟨some 9, true⟩).run fresh 0).2 = fresh := by
  constructor
  · intro hsame
    have hflawed := (argument_error_without_effect_iff argumentError_unplaced).2 hsame
    obtain hnone | hmissing | ⟨bs, hbs, -, hgarbled⟩ | ⟨bs, hbs, -⟩ := hflawed
    · cases hnone
    · obtain hnone | hempty := hmissing
      · cases hnone
      · cases hempty
    · cases hbs
      cases hgarbled
    · cases hbs
  · have hflawed : (Call.infer 1 none none ⟨some 9, true⟩).Flawed := Or.inl (Or.inl rfl)
    apply (argument_error_without_effect_iff ?_).1 (.inr hflawed)
    refine .inr ⟨rfl, ?_⟩
    rintro ⟨s, command, detail, -, hcheck, -⟩
    cases hcheck

/-- The call fails for want of a place for the number, and the model is loaded under that number. -/
theorem load_without_room_takes_effect :
    unplaced.ArgumentError fresh 0 ∧ (unplaced.run fresh 0).1 = .invalidArgument ∧
      (contents fresh).map (·.1.graph) = some 0 ∧
      (contents (unplaced.run fresh 0).2).map (·.1.graph) = some 1 ∧
      contents (unplaced.run fresh 0).2 ≠ contents fresh := by
  have hbefore : (contents fresh).map (·.1.graph) = some 0 := rfl
  have hafter : (contents (unplaced.run fresh 0).2).map (·.1.graph) = some 1 := rfl
  refine ⟨argumentError_unplaced, rfl, hbefore, hafter, ?_⟩
  intro hsame
  rw [hsame, hbefore] at hafter
  cases hafter

end Boundary

end ChatInference
