import ChatInference.Proofs.Service.Answers
import ChatInference.Proofs.Service.Tasks
import ChatInference.Proofs.Session.Tally
import Mathlib.Data.Nat.SuccPred
import Mathlib.Order.SuccPred.Relation

/-!
Whose session a turn works in. A turn carries the number of its session, and the numbers start again
when a load has cleared the table; so each creation is counted here, and each turn is followed from the
check that found its session open to the prompt and the reply it records.
-/

namespace ChatInference

/-- A turn records in the session that has its id by now. -/
structure Entry where
  asked : Asked
  /-- The creation of the session that the turn records in. -/
  creation : Nat
  clearings : Nat
  /-- The creations since the last clearing. -/
  since : Nat

/-- A service with the calls that are under way, and the sessions their turns were asked for. -/
structure Tenancy (σ : Type) where
  world : World σ
  tally : Tally := {}
  /-- The last creation under each id. -/
  latest : SessionId → Nat := fun _ => 0
  /-- The calls that are past the check. -/
  checked : List Asked := []
  /-- What the inline turns were asked for, turn by turn. -/
  inline : List Asked := []
  /-- What the queued turns were asked for, by ticket. -/
  queued : Nat → Asked := fun _ => default
  entries : List Entry := []

/-- The turn is in the session it was asked for, as long as the table has not been cleared and numbers
were left; once the table has been cleared, it is in another. -/
structure Entry.Sound (r : Entry) : Prop where
  clearings : r.asked.clearings ≤ r.clearings
  same : r.creation = r.asked.creation → r.clearings = r.asked.clearings
  kept : r.since < SessionTable.idLimit → r.clearings = r.asked.clearings →
    r.creation = r.asked.creation

namespace Tenancy

variable {σ : Type}

def opened (config : ServiceConfig) (e : σ) : Tenancy σ := { world := .opened config e }

def entry (t : Tenancy σ) (a : Asked) (id : SessionId) : Entry :=
  ⟨a, t.latest id, t.tally.clearings, t.tally.since⟩

/-- The entries, with that of a turn that records in a session now. -/
def noted (t : Tenancy σ) (a : Asked) (id : Option SessionId) : List Entry :=
  t.entries ++ (id.map (t.entry a)).toList

/-- A call finds its session open and a model in use. -/
def check (t : Tenancy σ) (id : SessionId) : Tenancy σ :=
  match t.world.service.checkTurn id with
  | .ok _ => { t with checked := t.checked ++ [⟨id, t.latest id, t.tally.clearings⟩] }
  | .error _ => t

/-- A call that is past the check gets a permit, or goes to the queue. -/
def enter (t : Tenancy σ) (i now : Nat) (prompt : String) (o : Overrides) : Tenancy σ :=
  match t.checked[i]? with
  | none => t
  | some a =>
    let entered := { t with
      world := t.world.enter now a.id prompt o
      checked := t.checked.eraseIdx i }
    match (t.world.service.enter now a.id prompt o).1 with
    | .ok .slot => { entered with inline := t.inline ++ [a] }
    | _ => { entered with queued := Function.update t.queued t.world.service.nextTicket a }

variable [InferenceEngine σ]

/-- The next step of an inline turn. -/
def turn (t : Tenancy σ) (i now : Nat) : Tenancy σ :=
  match t.world.turns[i]?, t.inline[i]? with
  | some u, some a =>
    { t with
      world := t.world.turnStep i now
      inline := match u with
        | .ended _ => t.inline.eraseIdx i
        | .admitted _ _ _ | .running _ => t.inline
      entries := t.noted a (t.world.service.joins now u) }
  | _, _ => t

/-- The next step of the worker. -/
def work (t : Tenancy σ) (now : Nat) : Tenancy σ :=
  { t with
    world := { t.world with service := t.world.service.workerStep now }
    entries := match t.world.service.worker.execution with
      | some (task, u) => t.noted (t.queued task.ticket) (t.world.service.joins now u)
      | none => t.entries }

/-- The next step of the call that holds the lock; creations and clearings are counted. -/
def advance (t : Tenancy σ) (now : Nat) : Tenancy σ :=
  let s := t.world.service
  let next := { t with world := t.world.advance now }
  match t.world.held with
  | .insert =>
    match (s.sessions.create s.sessionPolicy now none).1 with
    | .ok c =>
      { next with
        tally := t.tally.create
        latest := Function.update t.latest c.id (t.tally.created + 1) }
    | .error _ => next
  | .cancel [] => { next with tally := t.tally.clear }
  | _ => next

/-- One step of any call. -/
inductive Step : Tenancy σ → Tenancy σ → Prop
  | check {t : Tenancy σ} (id : SessionId) : Step t (t.check id)
  | enter {t : Tenancy σ} (i now : Nat) (prompt : String) (o : Overrides) :
      Step t (t.enter i now prompt o)
  | turn {t : Tenancy σ} (i now : Nat) : Step t (t.turn i now)
  | work {t : Tenancy σ} (now : Nat) : Step t (t.work now)
  | create {t : Tenancy σ} (h : t.world.held = .free) :
      Step t { t with world := { t.world with held := .sweep } }
  | close {t : Tenancy σ} (id : SessionId) (h : t.world.held = .free) :
      Step t { t with world := { t.world with held := .close id } }
  | replaced {t : Tenancy σ} (h : t.world.held = .free) (hl : t.world.load = .replaced) :
      Step t { t with world := { t.world with held := .replaced } }
  | load {t : Tenancy σ} (path : String) (text : Option String) :
      Step t { t with world := t.world.loadStep path text }
  | advance {t : Tenancy σ} (now : Nat)
      (h : t.world.held = .insert →
        t.world.service.sessions.SearchEnds t.world.service.sessionPolicy now) :
      Step t (t.advance now)

/-- Steps of all calls in any number and order. -/
abbrev Run : Tenancy σ → Tenancy σ → Prop := Relation.ReflTransGen Step

/-- What holds after every step. -/
structure Kept (t : Tenancy σ) : Prop where
  dates : t.tally.Dates t.latest t.world.service.sessions
  checked : ∀ a ∈ t.checked, t.tally.Knows a
  inline : ∀ a ∈ t.inline, t.tally.Knows a
  aligned : List.Forall₂ (fun a u => u.Of a.id) t.inline t.world.turns
  queued : ∀ task ∈ t.world.service.tasks, task.ticket < t.world.service.nextTicket ∧
    (t.queued task.ticket).id = task.session ∧ t.tally.Knows (t.queued task.ticket)
  faithful : t.world.service.worker.Faithful
  entries : ∀ r ∈ t.entries, r.Sound

section

variable {α β : Type} {R : α → β → Prop} {as : List α} {bs : List β}

theorem related_at (h : List.Forall₂ R as bs) {i : Nat} {a : α} {b : β} (ha : as[i]? = some a)
    (hb : bs[i]? = some b) : R a b := by
  induction h generalizing i with
  | nil => cases ha
  | cons hr _ ih =>
    cases i with
    | zero =>
      cases ha
      cases hb
      exact hr
    | succ i => exact ih ha hb

theorem related_set (h : List.Forall₂ R as bs) {i : Nat} {a : α} {b : β} (ha : as[i]? = some a)
    (hr : R a b) : List.Forall₂ R as (bs.set i b) := by
  induction h generalizing i with
  | nil => exact .nil
  | cons hr' hrest ih =>
    cases i with
    | zero =>
      cases ha
      exact .cons hr hrest
    | succ i => exact .cons hr' (ih ha)

theorem related_eraseIdx (h : List.Forall₂ R as bs) (i : Nat) :
    List.Forall₂ R (as.eraseIdx i) (bs.eraseIdx i) := by
  induction h generalizing i with
  | nil => exact .nil
  | cons hr hrest ih =>
    cases i with
    | zero => exact hrest
    | succ i => exact .cons hr (ih i)

end

variable {σ : Type} {t : Tenancy σ}

theorem kept_opened (config : ServiceConfig) (e : σ) : Kept (opened config e) := by
  refine ⟨⟨Nat.le_refl _, fun _ => rfl, fun k hk => ?_⟩, List.forall_mem_nil _, List.forall_mem_nil _,
    .nil, List.forall_mem_nil _, trivial, List.forall_mem_nil _⟩
  cases hk

/-- A call that finds its session open knows it. -/
theorem knows_asked (h : Kept t) {id : SessionId}
    (hin : t.world.service.sessions.contains id = true) :
    t.tally.Knows ⟨id, t.latest id, t.tally.clearings⟩ := by
  obtain ⟨-, hle, hnum⟩ := h.dates.latest id hin
  exact ⟨Nat.le_refl _, hle, fun hlt => absurd hlt (Nat.lt_irrefl _), fun _ => hnum⟩

theorem sound_entry (h : Kept t) {a : Asked} (ha : t.tally.Knows a)
    (hin : t.world.service.sessions.contains a.id = true) : (t.entry a a.id).Sound := by
  obtain ⟨hlt, -, hnum⟩ := h.dates.latest a.id hin
  refine ⟨ha.clearings, fun hsame => ?_, fun hs hkept => ?_⟩
  · -- what was created before the clearing is not open any more
    have hle := ha.clearings
    have hold := ha.earlier
    change t.latest a.id = a.creation at hsame
    change t.tally.clearings = a.clearings
    omega
  · exact (hnum hs).trans (ha.numbered hkept.symm hs).symm

theorem sound_noted [InferenceEngine σ] (h : Kept t) {a : Asked} (ha : t.tally.Knows a) {u : InlineTurn}
    (hu : u.Of a.id) (now : Nat) : ∀ r ∈ t.noted a (t.world.service.joins now u), r.Sound := by
  intro r hr
  rcases List.mem_append.1 hr with hold | hnew
  · exact h.entries r hold
  · cases hj : t.world.service.joins now u with
    | none =>
      rw [hj] at hnew
      cases hnew
    | some id =>
      rw [hj] at hnew
      obtain ⟨rfl, hin⟩ := Service.joins_of hu hj
      rw [List.mem_singleton.1 hnew]
      exact sound_entry h ha hin

/-- What a calm step keeps, whatever is noted of it. -/
theorem kept_calm (h : Kept t) {w : World σ} {inline : List Asked} {entries : List Entry}
    (hc : t.world.service.Calm w.service) (hi : inline ⊆ t.inline)
    (ha : List.Forall₂ (fun a u => InlineTurn.Of a.id u) inline w.turns)
    (he : ∀ r ∈ entries, r.Sound) :
    Kept { t with world := w, inline, entries } := by
  refine ⟨Tally.dates_within h.dates hc.sessions, h.checked, fun a hmem => h.inline a (hi hmem), ha, ?_,
    hc.faithful h.faithful, he⟩
  intro task htask
  dsimp only
  rw [hc.nextTicket]
  exact h.queued task (hc.tasks htask)

theorem kept_world (h : Kept t) {w : World σ} (hc : t.world.service.Calm w.service)
    (ht : w.turns = t.world.turns) : Kept { t with world := w } :=
  kept_calm h hc (List.Subset.refl _) (ht ▸ h.aligned) h.entries

/-- What a count of one more creation or clearing keeps. -/
theorem kept_tally (h : Kept t) {w : World σ} {y : Tally} {latest : SessionId → Nat}
    (hd : y.Dates latest w.service.sessions) (hk : ∀ a, t.tally.Knows a → y.Knows a)
    (hs : w.service = { t.world.service with sessions := w.service.sessions })
    (ht : w.turns = t.world.turns) : Kept { t with world := w, tally := y, latest } := by
  refine ⟨hd, fun a ha => hk a (h.checked a ha), fun a ha => hk a (h.inline a ha), ?_, ?_, ?_,
    h.entries⟩
  · exact ht ▸ h.aligned
  · intro task htask
    dsimp only at htask ⊢
    rw [hs] at htask ⊢
    obtain ⟨hlt, hid, hknows⟩ := h.queued task htask
    exact ⟨hlt, hid, hk _ hknows⟩
  · rw [hs]
    exact h.faithful

theorem kept_check (h : Kept t) (id : SessionId) : Kept (t.check id) := by
  unfold check
  cases hc : t.world.service.checkTurn id with
  | error e => exact h
  | ok _ =>
    have hin : t.world.service.sessions.contains id = true := by
      unfold Service.checkTurn at hc
      split at hc
      case isTrue hin => exact hin
      case isFalse => cases hc
    refine ⟨h.dates, fun a ha => ?_, h.inline, h.aligned, h.queued, h.faithful, h.entries⟩
    rcases List.mem_append.1 ha with hold | hnew
    · exact h.checked a hold
    · rw [List.mem_singleton.1 hnew]
      exact knows_asked h hin

theorem kept_enter (h : Kept t) (i now : Nat) (prompt : String) (o : Overrides) :
    Kept (t.enter i now prompt o) := by
  unfold enter
  cases hi : t.checked[i]? with
  | none => exact h
  | some a =>
    have ha := h.checked a (List.mem_of_getElem? hi)
    have hrest (b : Asked) (hb : b ∈ t.checked.eraseIdx i) : t.tally.Knows b :=
      h.checked b (List.mem_of_mem_eraseIdx hb)
    have henter := t.world.service.tasks_enter now a.id prompt o
    dsimp only
    unfold World.enter
    generalize t.world.service.enter now a.id prompt o = r at henter ⊢
    obtain ⟨r, s⟩ := r
    obtain ⟨hsessions, hworker, hcase⟩ := henter
    have hdates : t.tally.Dates t.latest s.sessions := hsessions ▸ h.dates
    have hfaithful : s.worker.Faithful := hworker ▸ h.faithful
    rcases hcase with ⟨hr, htasks, hnext⟩ | ⟨hr, hnext, htasks⟩
    · -- the turn has a permit, and no task is added
      subst hr
      refine ⟨hdates, hrest, ?_, ?_, ?_, hfaithful, h.entries⟩
      · intro b hb
        rcases List.mem_append.1 hb with hold | hnew
        · exact h.inline b hold
        · rw [List.mem_singleton.1 hnew]
          exact ha
      · exact List.rel_append h.aligned (.cons rfl .nil)
      · rw [htasks, hnext]
        exact h.queued
    · -- the turn goes to the queue, or away
      have hsame (x : Nat) (hx : x < t.world.service.nextTicket) :
          Function.update t.queued t.world.service.nextTicket a x = t.queued x :=
        Function.update_of_ne (Nat.ne_of_lt hx) _ _
      have hqueued (task : Task) (htask : task ∈ s.tasks) : task.ticket < s.nextTicket ∧
          (Function.update t.queued t.world.service.nextTicket a task.ticket).id = task.session ∧
          t.tally.Knows (Function.update t.queued t.world.service.nextTicket a task.ticket) := by
        rw [hnext]
        rcases htasks task htask with hold | ⟨hsession, hticket⟩
        · obtain ⟨hlt, hid, hknows⟩ := h.queued task hold
          rw [hsame _ hlt]
          exact ⟨Nat.lt_succ_of_lt hlt, hid, hknows⟩
        · rw [hticket, Function.update_self]
          exact ⟨Nat.lt_succ_self _, hsession.symm, ha⟩
      match r, hr with
      | .error e, _ => exact ⟨hdates, hrest, h.inline, h.aligned, hqueued, hfaithful, h.entries⟩
      | .ok (.queued task ticket), _ =>
        exact ⟨hdates, hrest, h.inline, h.aligned, hqueued, hfaithful, h.entries⟩
      | .ok .slot, hr => exact absurd rfl hr

variable [InferenceEngine σ]

theorem kept_turn (h : Kept t) (i now : Nat) : Kept (t.turn i now) := by
  unfold turn
  cases hu : t.world.turns[i]? with
  | none => exact h
  | some u =>
    cases ha : t.inline[i]? with
    | none => exact h
    | some a =>
      have hof : u.Of a.id := related_at h.aligned ha hu
      have hnoted := sound_noted h (h.inline a (List.mem_of_getElem? ha)) hof now
      have hgoes (hover : ∀ r, u ≠ .ended r) : Kept { t with
          world := t.world.turnStep i now
          entries := t.noted a (t.world.service.joins now u) } := by
        obtain ⟨hcalm, u', hturns, hof'⟩ := World.turnStep_goes hu hover now
        refine kept_calm h hcalm (List.Subset.refl _) ?_ hnoted
        rw [hturns]
        exact related_set h.aligned ha (hof' _ hof)
      cases u with
      | admitted id prompt o => exact hgoes nofun
      | running turn => exact hgoes nofun
      | ended r =>
        rw [World.turnStep_ended hu]
        have hslot : t.world.service.Calm t.world.service.releaseSlot :=
          Service.calm_of_undisturbed ⟨rfl, rfl, rfl, rfl, rfl⟩ (SessionTable.within_refl _)
        exact kept_calm h hslot (List.eraseIdx_subset) (related_eraseIdx h.aligned i) hnoted

theorem kept_work (h : Kept t) (now : Nat) : Kept (t.work now) := by
  have hcalm := t.world.service.calm_workerStep now
  refine kept_calm h hcalm (List.Subset.refl _) h.aligned ?_
  cases he : t.world.service.worker.execution with
  | none => exact h.entries
  | some r =>
    obtain ⟨htask, hof⟩ := Worker.execution_of he h.faithful
    obtain ⟨-, hid, hknows⟩ := h.queued r.1 (List.mem_append_left _ htask)
    exact sound_noted h hknows (hid ▸ hof) now

theorem kept_advance (h : Kept t) (now : Nat) : Kept (t.advance now) := by
  have hturns := t.world.turns_advance now
  unfold advance
  dsimp only
  split
  case h_1 hh =>
    unfold World.advance
    rw [hh]
    dsimp only
    split
    case h_1 c hc =>
      generalize hr : t.world.service.sessions.create t.world.service.sessionPolicy now none = r at hc
      obtain ⟨r, sessions⟩ := r
      dsimp only at hc
      subst hc
      exact kept_tally h (Tally.dates_create h.dates hr) (fun _ => Tally.knows_create) rfl rfl
    case h_2 e hc =>
      generalize hr : t.world.service.sessions.create t.world.service.sessionPolicy now none = r at hc
      obtain ⟨r, sessions⟩ := r
      dsimp only at hc
      subst hc
      -- a creation that fails may have evicted, and no id comes into use
      exact kept_world h (Service.calm_of_undisturbed ⟨rfl, rfl, rfl, rfl, rfl⟩
        (SessionTable.create_error_within hr)) rfl
  case h_2 hh =>
    unfold World.advance
    rw [hh]
    exact kept_tally h (Tally.dates_clear _ _) (fun _ => Tally.knows_clear) rfl rfl
  case h_3 hi hc => exact kept_world h (World.calm_advance now hi hc) hturns

theorem kept_step {t' : Tenancy σ} (hs : Step t t') (h : Kept t) : Kept t' := by
  cases hs with
  | check id => exact kept_check h id
  | enter i now prompt o => exact kept_enter h i now prompt o
  | turn i now => exact kept_turn h i now
  | work now => exact kept_work h now
  | create => exact kept_world h (Service.calm_refl _) rfl
  | close => exact kept_world h (Service.calm_refl _) rfl
  | replaced => exact kept_world h (Service.calm_refl _) rfl
  | load path text =>
    obtain ⟨hcalm, hturns⟩ := t.world.calm_loadStep path text
    exact kept_world h hcalm hturns
  | advance now => exact kept_advance h now

theorem kept_run {t' : Tenancy σ} (hr : Run t t') (h : Kept t) : Kept t' := by
  -- over the steps taken so far
  induction hr with
  | refl => exact h
  | tail _ step ih => exact kept_step step ih

theorem world_advance (t : Tenancy σ) (now : Nat) :
    (t.advance now).world = t.world.advance now := by
  unfold advance
  dsimp only
  split
  · split <;> rfl
  · rfl
  · rfl

/-- What is counted and noted changes nothing of what the calls do. -/
theorem world_step {t' : Tenancy σ} (hs : Step t t') : World.Run t.world t'.world := by
  cases hs with
  | check id =>
    unfold check
    split <;> exact .refl
  | enter i now prompt o =>
    unfold enter
    split
    · exact .refl
    · dsimp only
      split <;> exact .single (.enter now _ prompt o)
  | turn i now =>
    unfold turn
    split
    · exact .single (.turn i now)
    · exact .refl
  | work now => exact .single (.worker now)
  | create hf => exact .single (.create hf)
  | close id hf => exact .single (.close id hf)
  | replaced hf hl => exact .single (.replaced hf hl)
  | load path text => exact .single (.load path text)
  | advance now hends =>
    rw [world_advance]
    exact .single (.advance now hends)

theorem world_run {t' : Tenancy σ} (hr : Run t t') : World.Run t.world t'.world := by
  induction hr with
  | refl => exact .refl
  | tail _ step ih => exact ih.trans (world_step step)

/-- In every run a turn records in the very session it was asked for, that of the same creation, unless a
load has cleared the table between the check and the entry; and where one has, the turn never records in
that session, but in one that was given the same id since. The ids are taken to last from one clearing
to the next. -/
theorem turn_in_own_session_iff_not_cleared (config : ServiceConfig) (e : σ) (t : Tenancy σ)
    (h : Run (opened config e) t) :
    World.Run (.opened config e) t.world ∧
      ∀ r ∈ t.entries,
        (r.asked.clearings < r.clearings → r.creation ≠ r.asked.creation) ∧
        (r.since < SessionTable.idLimit →
          (r.creation = r.asked.creation ↔ r.clearings = r.asked.clearings)) := by
  refine ⟨world_run h, fun r hr => ?_⟩
  have hsound : r.Sound := (kept_run h (kept_opened config e)).entries r hr
  refine ⟨fun hlt hsame => ?_, fun hs => ⟨hsound.same, hsound.kept hs⟩⟩
  have heq := hsound.same hsame
  omega

/-- The call that holds the lock takes several steps in a row. -/
def advances (t : Tenancy σ) (now : Nat) : Nat → Tenancy σ
  | 0 => t
  | n + 1 => (t.advances now n).advance now

theorem run_advances (t : Tenancy σ) (now n : Nat) (id : SessionId)
    (hid : SessionTable.InRange id)
    (h : ∀ i < n, let s := (t.advances now i).world.service
      (s.sessions.searched s.sessionPolicy now).contains id = false) : Run t (t.advances now n) := by
  have hcount : Relation.ReflTransGen (fun i j => Step (t.advances now i) (t.advances now j)) 0 n :=
    reflTransGen_of_succ_of_le _ (fun i hi => .advance now fun _ => .inr ⟨id, hid, h i hi.2⟩)
      (Nat.zero_le n)
  exact hcount.lift (t.advances now) fun _ _ hr => hr

/-- A load puts a model in place. -/
def loadModel (t : Tenancy σ) (path : String) : Tenancy σ :=
  { t with world := (t.world.loadStep path none).loadStep path none }

/-- The load drops so many sessions of the model before, and ends. -/
def dropSessions (t : Tenancy σ) (now n : Nat) : Tenancy σ :=
  let dropped := advances { t with world := { t.world with held := .replaced } } now (n + 3)
  { dropped with world := dropped.world.loadStep "" none }

/-- A session is opened, and none has to go for it. -/
def openSession (t : Tenancy σ) (now : Nat) : Tenancy σ :=
  advances { t with world := { t.world with held := .sweep } } now 7

section

open Mailroom (EchoingEngine oneSlot)

def ready : Tenancy EchoingEngine :=
  (((opened oneSlot {}).loadModel "a").dropSessions 0 0).openSession 1

/-- A turn is asked for, another model is put in place, and the turn begins in the session it was asked
for. The sessions are dropped, one is opened on the new model, and the turn ends in that. -/
def switched : Tenancy EchoingEngine :=
  let begun := (((ready.check 1).loadModel "b").enter 0 2 "Hi" {}).turn 0 3
  ((begun.dropSessions 4 1).openSession 5).turn 0 6

theorem run_loadModel (t : Tenancy EchoingEngine) (path : String) : Run t (t.loadModel path) :=
  (Relation.ReflTransGen.single (.load path none)).tail (.load path none)

theorem run_ready : Run (opened oneSlot {}) ready := by
  let start : Tenancy EchoingEngine := opened oneSlot {}
  have hplace : Run start (start.loadModel "a") := run_loadModel start "a"
  have hdrop := (hplace.tail (.replaced rfl rfl)).trans
    (run_advances _ 0 3 9 (by decide) (by decide +kernel))
  exact ((hdrop.tail (.load "" none)).tail (.create rfl)).trans
    (run_advances _ 1 7 9 (by decide) (by decide +kernel))

theorem run_switched : Run (opened oneSlot {}) switched := by
  have hplace := (run_ready.tail (.check 1)).trans (run_loadModel _ "b")
  have hbegun := (hplace.tail (.enter 0 2 "Hi" {})).tail (.turn 0 3)
  have hdrop := (hbegun.tail (.replaced rfl rfl)).trans
    (run_advances _ 4 4 9 (by decide) (by decide +kernel))
  have hopen := ((hdrop.tail (.load "" none)).tail (.create rfl)).trans
    (run_advances _ 5 7 9 (by decide) (by decide +kernel))
  exact hopen.tail (.turn 0 6)

theorem turn_in_own_session_until_switched :
    ∃ r r', switched.entries = [r, r'] ∧ r.creation = r.asked.creation ∧
      r'.creation ≠ r'.asked.creation := by
  have h := (turn_in_own_session_iff_not_cleared oneSlot {} switched run_switched).2
  have hentries : switched.entries = [⟨⟨1, 1, 1⟩, 1, 1, 1⟩, ⟨⟨1, 1, 1⟩, 2, 2, 1⟩] := rfl
  rw [hentries] at h
  refine ⟨_, _, hentries, ?_, ?_⟩
  · exact ((h _ List.mem_cons_self).2 (by decide)).2 rfl
  · exact (h _ (List.mem_cons_of_mem _ List.mem_cons_self)).1 (by decide)

/-- A turn that begins while a load is under way ends in a session of the next model. -/
theorem turn_ends_in_session_of_next_model :
    Run (opened oneSlot {}) switched ∧
      switched.world.service.sessions.sessions.keys = [1] ∧
      (switched.world.service.sessions.sessions.get? 1).map (·.history) = some [⟨.assistant, "Hi"⟩] ∧
      ∃ r ∈ switched.entries, r.asked.id = 1 ∧ r.creation ≠ r.asked.creation := by
  refine ⟨run_switched, by decide +kernel, by decide +kernel, ⟨⟨1, 1, 1⟩, 2, 2, 1⟩, ?_, rfl, ?_⟩
  · exact List.mem_cons_of_mem _ List.mem_cons_self
  · decide

end

end Tenancy

end ChatInference
