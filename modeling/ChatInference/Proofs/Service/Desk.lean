import ChatInference.Proofs.Keyed.Keys
import ChatInference.Proofs.Service.Onward

/-!
Where a submitted task is, from the moment it has an id until its outcome is handed out. The submission
files it with those that can be collected, and a call for its outcome takes it from there: for good if
the outcome is there, else until it has waited long enough and puts the task back. Each of these is a
step of its own, and whatever else the service does may come between.
-/

namespace ChatInference

/-- A call that waits for the outcome of a task it has taken. -/
structure Poll where
  task : Nat
  ticket : Nat
  /-- It has waited long enough, and is about to put the task back. -/
  late : Bool := false
  deriving DecidableEq

/-- A service with the submitted tasks, each with how its outcome is known, and with those among them
that a call has in its hands. -/
structure Desk (σ : Type) where
  mailroom : Mailroom σ
  /-- All turns that were submitted. -/
  submissions : Nat := 0
  /-- How many of them were given a slot and have no reply so far. -/
  inline : Nat := 0
  tasks : List (Nat × Collectable) := []
  /-- Tasks that their submission has yet to file. -/
  filing : List (Nat × Collectable) := []
  polls : List Poll := []
  /-- The outcomes that were handed out. -/
  collected : List (Nat × Outcome) := []

namespace Desk

variable {σ : Type}

def opened (config : ServiceConfig) (e : σ) : Desk σ := { mailroom := .opened config e }

def service (d : Desk σ) : Service σ := d.mailroom.service

/-- Puts what can be collected into the service. -/
def shelve (d : Desk σ) (collectable : Keyed Collectable) : Desk σ :=
  { d with mailroom := { d.mailroom with service := { d.service with collectable } } }

/-- A task has its id. -/
def issue (d : Desk σ) (task : Nat) (c : Collectable) : Desk σ :=
  { d with tasks := d.tasks ++ [(task, c)], filing := d.filing ++ [(task, c)] }

/-- A submitted turn gets a slot, a place in the queue with an id, or neither. -/
def submit (d : Desk σ) (now : Nat) (id : SessionId) (prompt : String) (o : Overrides) : Desk σ :=
  let d' := { d with
    mailroom := d.mailroom.enter now id prompt o
    submissions := d.submissions + 1 }
  match (d.service.enter now id prompt o).1 with
  | .ok .slot => { d' with inline := d.inline + 1 }
  | .ok (.queued task ticket) => d'.issue task (.posted ticket)
  | .error _ => d'

/-- A submitted turn that had a slot has come to a reply, and gets an id. -/
def reply (d : Desk σ) (text : String) : Desk σ :=
  { d with
    mailroom := { d.mailroom with
      service := { d.service with nextInline := d.service.nextInline + 1 } }
    inline := d.inline - 1 }.issue d.service.nextReplied (.ready (.ok text))

/-- A submission makes its task collectable. -/
def file (d : Desk σ) (i : Nat) : Desk σ :=
  match d.filing[i]? with
  | none => d
  | some x =>
    { d.shelve (d.service.collectable.set x.1 x.2) with filing := d.filing.eraseIdx i }

/-- A call takes a task, if it is there; an outcome that is ready is handed out at once. -/
def take (d : Desk σ) (task : Nat) : Desk σ :=
  match d.service.collectable.get? task with
  | none => d
  | some (.ready o) =>
    { d.shelve (d.service.collectable.erase task) with collected := d.collected ++ [(task, o)] }
  | some (.posted ticket) =>
    { d.shelve (d.service.collectable.erase task) with polls := d.polls ++ [⟨task, ticket, false⟩] }

/-- A call that waits hands out the outcome if it has come, gives up waiting if it has not, and puts the
task back if it gave up. -/
def look (d : Desk σ) (i : Nat) : Desk σ :=
  match d.polls[i]? with
  | none => d
  | some p =>
    if p.late then
      { d.shelve (d.service.collectable.set p.task (.posted p.ticket)) with
        polls := d.polls.eraseIdx i }
    else
      match d.service.received p.ticket with
      | some o =>
        { d with polls := d.polls.eraseIdx i, collected := d.collected ++ [(p.task, o)] }
      | none => { d with polls := d.polls.set i { p with late := true } }

section

variable {d : Desk σ} {i : Nat} {p : Poll}

theorem look_of_late (hp : d.polls[i]? = some p) (hlate : p.late = true) :
    d.look i = { d.shelve (d.service.collectable.set p.task (.posted p.ticket)) with
      polls := d.polls.eraseIdx i } := by
  unfold look
  rw [hp]
  exact if_pos hlate

theorem look_of_received {o : Outcome} (hp : d.polls[i]? = some p) (hlate : p.late = false)
    (ho : d.service.received p.ticket = some o) :
    d.look i =
      { d with polls := d.polls.eraseIdx i, collected := d.collected ++ [(p.task, o)] } := by
  unfold look
  rw [hp]
  simp only [hlate, Bool.false_eq_true, if_false, ho]

theorem look_of_nothing (hp : d.polls[i]? = some p) (hlate : p.late = false)
    (hnone : d.service.received p.ticket = none) :
    d.look i = { d with polls := d.polls.set i { p with late := true } } := by
  unfold look
  rw [hp]
  simp only [hlate, Bool.false_eq_true, if_false, hnone]

end

/-- Ids of tasks that did not have to wait start here; fewer submissions never come so far. -/
def firstInline : Nat := 0x8000000000000000

/-- The tasks that are filed or about to be, in the hands of a call that waits, or collected. -/
def placed (d : Desk σ) : List Nat :=
  d.filing.map (·.1) ++ d.service.collectable.keys ++ d.polls.map (·.task) ++ d.collected.map (·.1)

theorem count_placed (d : Desk σ) (k : Nat) :
    d.placed.count k = (d.filing.map (·.1)).count k + d.service.collectable.keys.count k +
      (d.polls.map (·.task)).count k + (d.collected.map (·.1)).count k := by
  simp only [placed, List.count_append]

/-- What holds after every step: ids are given out once, and each task is in one place. -/
structure Accounted (d : Desk σ) : Prop where
  below : d.service.nextQueued ≤ d.service.nextTicket + 1
  above : firstInline ≤ d.service.nextReplied
  counted : d.service.nextTicket + d.inline + d.service.nextReplied ≤ firstInline + d.submissions
  issued : ∀ x ∈ d.tasks, x.1 < d.service.nextQueued ∨
    firstInline ≤ x.1 ∧ x.1 < d.service.nextReplied
  distinct : (d.tasks.map (·.1)).Nodup
  places : (d.tasks.map (·.1)).Perm d.placed
  filed : ∀ x ∈ d.filing, x ∈ d.tasks
  kept : ∀ k c, d.service.collectable.get? k = some c → (k, c) ∈ d.tasks
  polled : ∀ p ∈ d.polls, (p.task, .posted p.ticket) ∈ d.tasks
  delivered : ∀ x ∈ d.collected, ∃ c, (x.1, c) ∈ d.tasks ∧ d.service.outcomeOf c = some x.2

theorem accounted_opened (config : ServiceConfig) (e : σ) : Accounted (opened config e) := by
  refine ⟨Nat.le_refl _, Nat.le_refl _, ?_, List.forall_mem_nil _, List.nodup_nil,
    List.Perm.refl _, List.forall_mem_nil _, ?_, List.forall_mem_nil _, List.forall_mem_nil _⟩
  · exact Nat.le_of_eq (Nat.zero_add _)
  · intro k c hk
    change (∅ : Keyed Collectable).get? k = some c at hk
    rw [Keyed.get?_empty] at hk
    cases hk

variable {d : Desk σ}

/-- No task is in two places. -/
theorem Accounted.nodup (h : Accounted d) : d.placed.Nodup :=
  h.places.nodup_iff.1 h.distinct

theorem Accounted.not_mem_keys_of_filing (h : Accounted d) {x : Nat × Collectable}
    (hx : x ∈ d.filing) : x.1 ∉ d.service.collectable.keys := by
  have hnodup := h.nodup
  unfold placed at hnodup
  rw [List.append_assoc, List.append_assoc] at hnodup
  obtain ⟨-, -, hdisjoint⟩ := List.nodup_append.1 hnodup
  intro hk
  exact hdisjoint x.1 (List.mem_map_of_mem hx) x.1 (List.mem_append_left _ hk) rfl

theorem Accounted.not_mem_keys_of_polls (h : Accounted d) {p : Poll} (hp : p ∈ d.polls) :
    p.task ∉ d.service.collectable.keys := by
  obtain ⟨hnodup, -, -⟩ := List.nodup_append.1 h.nodup
  obtain ⟨-, -, hdisjoint⟩ := List.nodup_append.1 hnodup
  intro hk
  exact hdisjoint p.task (List.mem_append_right _ hk) p.task (List.mem_map_of_mem hp) rfl

/-- A task that goes from one place to another. -/
theorem Accounted.places_of_count (h : Accounted d) {d' : Desk σ}
    (hcount : ∀ k, d'.placed.count k = d.placed.count k) : (d.tasks.map (·.1)).Perm d'.placed :=
  h.places.trans (List.perm_iff_count.2 fun k => (hcount k).symm)

/-- The service goes on, and gives out as many ids, tickets and slots as there are submissions. -/
theorem Accounted.onward (h : Accounted d) {m : Mailroom σ} {submissions inline : Nat}
    (ho : d.service.Onward m.service) (hshelf : m.service.collectable = d.service.collectable)
    (hreplied : d.service.nextReplied ≤ m.service.nextReplied)
    (hcount : m.service.nextTicket + inline + m.service.nextReplied + d.submissions ≤
      d.service.nextTicket + d.inline + d.service.nextReplied + submissions) :
    Accounted { d with mailroom := m, submissions, inline } := by
  have hbelow := h.below
  have habove := h.above
  have hcounted := h.counted
  have hqueued := ho.nextQueued
  -- no more ids than tickets, which `hcount` bounds by the submissions
  have hnumbered := ho.numbered
  refine ⟨?_, ?_, ?_, ?_, h.distinct, ?_, h.filed, ?_, h.polled, ?_⟩
  · change m.service.nextQueued ≤ m.service.nextTicket + 1
    omega
  · change firstInline ≤ m.service.nextReplied
    omega
  · change m.service.nextTicket + inline + m.service.nextReplied ≤ firstInline + submissions
    omega
  · intro x hx
    change x.1 < m.service.nextQueued ∨ firstInline ≤ x.1 ∧ x.1 < m.service.nextReplied
    have hi := h.issued x hx
    omega
  · apply h.places_of_count
    intro k
    rw [count_placed, count_placed]
    change _ + m.service.collectable.keys.count k + _ + _ = _
    rw [hshelf]
  · intro k c hk
    change m.service.collectable.get? k = some c at hk
    rw [hshelf] at hk
    exact h.kept k c hk
  · intro x hx
    obtain ⟨c, hc, hout⟩ := h.delivered x hx
    exact ⟨c, hc, ho.outcomeOf hout⟩

theorem accounted_issue (h : Accounted d) {task : Nat} (c : Collectable)
    (hnew : ∀ x ∈ d.tasks, x.1 ≠ task)
    (hissued : task < d.service.nextQueued ∨ firstInline ≤ task ∧ task < d.service.nextReplied) :
    Accounted (d.issue task c) := by
  refine ⟨h.below, h.above, h.counted, ?_, ?_, ?_, ?_, ?_, ?_, ?_⟩
  · intro x hx
    rcases List.mem_append.1 hx with hold | hlast
    · exact h.issued x hold
    · rw [List.mem_singleton.1 hlast]
      exact hissued
  · change ((d.tasks ++ [(task, c)]).map (·.1)).Nodup
    rw [List.map_append, List.nodup_append]
    refine ⟨h.distinct, List.nodup_singleton _, ?_⟩
    intro k hk k' hk' hkk'
    obtain ⟨x, hx, rfl⟩ := List.mem_map.1 hk
    rw [List.mem_singleton.1 hk'] at hkk'
    exact hnew x hx hkk'
  · -- one more task, and one more that has to be filed
    rw [List.perm_iff_count]
    intro k
    have hk := h.places.count_eq k
    rw [count_placed] at hk ⊢
    change ((d.tasks ++ [(task, c)]).map (·.1)).count k =
      ((d.filing ++ [(task, c)]).map (·.1)).count k + d.service.collectable.keys.count k +
        (d.polls.map (·.task)).count k + (d.collected.map (·.1)).count k
    simp only [List.map_append, List.count_append]
    omega
  · intro x hx
    rcases List.mem_append.1 hx with hold | hlast
    · exact List.mem_append_left _ (h.filed x hold)
    · exact List.mem_append_right _ hlast
  · intro k c' hk
    exact List.mem_append_left _ (h.kept k c' hk)
  · intro p hp
    exact List.mem_append_left _ (h.polled p hp)
  · intro x hx
    obtain ⟨c', hc', hout⟩ := h.delivered x hx
    exact ⟨c', List.mem_append_left _ hc', hout⟩

theorem accounted_submit (h : Accounted d) (now : Nat) (id : SessionId) (prompt : String)
    (o : Overrides) (hfew : d.submissions + 1 < firstInline) :
    Accounted (d.submit now id prompt o) := by
  have ho := d.service.onward_enter now id prompt o
  obtain ⟨hshelf, hreplied⟩ := d.service.collectable_enter now id prompt o
  have hbelow := h.below
  have habove := h.above
  have hcounted := h.counted
  unfold submit
  dsimp only
  cases hr : d.service.enter now id prompt o with
  | mk r s =>
    rw [hr] at ho hshelf hreplied
    have hm : (d.mailroom.enter now id prompt o).service = s := by
      change (d.service.enter now id prompt o).2 = s
      rw [hr]
    rw [← hm] at ho hshelf hreplied
    dsimp only at hshelf hreplied
    rcases Service.enter_numbers hr with
      ⟨hslot, hid, hticket⟩ | ⟨hqueued, hid, hticket⟩ | ⟨⟨e, he⟩, hid, hticket⟩
    · -- a slot: its id comes with its reply
      dsimp only at hslot hid hticket ⊢
      rw [hslot]
      rw [← hm] at hid hticket
      exact h.onward ho hshelf (by omega) (by omega)
    · -- a place in the queue: its id is the queue's next
      dsimp only at hqueued hid hticket ⊢
      rw [hqueued]
      rw [← hm] at hid hticket
      apply accounted_issue (h.onward ho hshelf (by omega) (by omega))
      · -- ids of the queue have not come as far as the others
        intro x hx
        have hi := h.issued x hx
        omega
      · left
        change d.service.nextQueued < (d.mailroom.enter now id prompt o).service.nextQueued
        omega
    · -- turned away, and a ticket spent that has no id
      dsimp only at he hid hticket ⊢
      rw [he]
      rw [← hm] at hid hticket
      exact h.onward ho hshelf (by omega) (by omega)

theorem accounted_reply (h : Accounted d) (text : String) (hinline : 0 < d.inline)
    (hfew : d.submissions < firstInline) : Accounted (d.reply text) := by
  have hbelow := h.below
  have habove := h.above
  have hcounted := h.counted
  have hnext : Service.nextReplied { d.service with nextInline := d.service.nextInline + 1 } =
      d.service.nextReplied + 1 := rfl
  unfold reply
  apply accounted_issue
  · apply h.onward
    · exact Service.onward_of_eq List.prefix_rfl rfl rfl
    · rfl
    · exact Nat.le_succ _
    · change d.service.nextTicket + (d.inline - 1) + (d.service.nextReplied + 1) + d.submissions ≤
        d.service.nextTicket + d.inline + d.service.nextReplied + d.submissions
      omega
  · -- the other ids are below it, the queue's by `hfew`
    intro x hx
    have hi := h.issued x hx
    omega
  · right
    dsimp only
    change firstInline ≤ d.service.nextReplied ∧ d.service.nextReplied < d.service.nextReplied + 1
    omega

/-- An entry at a place of a list, and the rest of the list. -/
theorem map_perm_eraseIdx {α : Type} {xs : List α} {i : Nat} {x : α} (hx : xs[i]? = some x)
    (f : α → Nat) : (xs.map f).Perm ([f x] ++ (xs.eraseIdx i).map f) := by
  obtain ⟨hi, rfl⟩ := List.getElem?_eq_some_iff.1 hx
  exact ((List.getElem_cons_eraseIdx_perm hi).map f).symm

/-- A call that has waited long enough still has the same task. -/
theorem tasks_of_late {polls : List Poll} {i : Nat} {p : Poll} (hp : polls[i]? = some p) :
    (polls.set i { p with late := true }).map (·.task) = polls.map (·.task) := by
  obtain ⟨hi, rfl⟩ := List.getElem?_eq_some_iff.1 hp
  have hlen : i < (polls.map (·.task)).length := by
    rw [List.length_map]
    exact hi
  have hself := List.set_getElem_self hlen
  rw [List.getElem_map] at hself
  rw [List.map_set]
  exact hself

/-- Tasks go from place to place: as many are in all places as before, each still known as it was given
out. -/
theorem Accounted.moved (h : Accounted d) {collectable : Keyed Collectable}
    {filing : List (Nat × Collectable)} {polls : List Poll} {collected : List (Nat × Outcome)}
    (hcount : ∀ k, (filing.map (·.1)).count k + collectable.keys.count k +
      (polls.map (·.task)).count k + (collected.map (·.1)).count k = d.placed.count k)
    (hfiled : ∀ x ∈ filing, x ∈ d.tasks)
    (hkept : ∀ k c, collectable.get? k = some c → (k, c) ∈ d.tasks)
    (hpolled : ∀ p ∈ polls, (p.task, .posted p.ticket) ∈ d.tasks)
    (hdelivered : ∀ x ∈ collected, ∃ c, (x.1, c) ∈ d.tasks ∧ d.service.outcomeOf c = some x.2) :
    Accounted { d.shelve collectable with filing, polls, collected } := by
  refine ⟨h.below, h.above, h.counted, h.issued, h.distinct, ?_, hfiled, hkept, hpolled, hdelivered⟩
  apply h.places_of_count
  intro k
  rw [count_placed]
  exact hcount k

theorem Accounted.kept_set (h : Accounted d) {task : Nat} {c : Collectable}
    (hc : (task, c) ∈ d.tasks) (k : Nat) (c' : Collectable)
    (hk : (d.service.collectable.set task c).get? k = some c') : (k, c') ∈ d.tasks := by
  rw [Keyed.get?_set] at hk
  split at hk
  case isTrue hkx =>
    cases hk
    rw [hkx]
    exact hc
  case isFalse => exact h.kept k c' hk

theorem accounted_file (h : Accounted d) (i : Nat) : Accounted (d.file i) := by
  unfold file
  split
  case h_1 => exact h
  case h_2 x hx =>
    have hmem : x ∈ d.filing := List.mem_of_getElem? hx
    have hin : (d.service.collectable.set x.1 x.2).keys.Perm ([x.1] ++ d.service.collectable.keys) :=
      Keyed.keys_set_perm (h.not_mem_keys_of_filing hmem) x.2
    -- from those to be filed to those that can be collected
    apply h.moved
    · intro k
      have hout := (map_perm_eraseIdx hx (·.1)).count_eq k
      have hin' := hin.count_eq k
      rw [List.count_append] at hout hin'
      rw [count_placed]
      change _ + _ + (d.polls.map (·.task)).count k + (d.collected.map (·.1)).count k = _
      omega
    · intro y hy
      exact h.filed y ((List.eraseIdx_sublist _ i).subset hy)
    · exact h.kept_set (h.filed x hmem)
    · exact h.polled
    · exact h.delivered

theorem accounted_take (h : Accounted d) (task : Nat) : Accounted (d.take task) := by
  have hout {c : Collectable} (hget : d.service.collectable.get? task = some c) (k : Nat) :
      d.service.collectable.keys.count k =
        [task].count k + (d.service.collectable.erase task).keys.count k := by
    have hperm : d.service.collectable.keys.Perm
        ([task] ++ (d.service.collectable.erase task).keys) :=
      Keyed.keys_erase_perm (Keyed.mem_keys_of_get? hget)
    rw [hperm.count_eq, List.count_append]
  have hkept : ∀ k c, (d.service.collectable.erase task).get? k = some c → (k, c) ∈ d.tasks :=
    fun k c hk => h.kept k c (Keyed.get?_of_erase hk)
  unfold take
  split
  case h_1 => exact h
  case h_2 o hget =>
    -- its outcome was ready, and goes with it
    apply h.moved
    · intro k
      have hk := hout hget k
      rw [count_placed, List.map_append, List.count_append]
      change (d.filing.map (·.1)).count k + _ + (d.polls.map (·.task)).count k +
        (_ + [task].count k) = _
      omega
    · exact h.filed
    · exact hkept
    · exact h.polled
    · intro x hx
      rcases List.mem_append.1 hx with hold | hlast
      · exact h.delivered x hold
      · rw [List.mem_singleton.1 hlast]
        exact ⟨.ready o, h.kept task _ hget, rfl⟩
  case h_3 ticket hget =>
    -- its outcome comes by mail, so a call waits with the task in its hands
    apply h.moved
    · intro k
      have hk := hout hget k
      rw [count_placed, List.map_append, List.count_append]
      change (d.filing.map (·.1)).count k + _ + (_ + [task].count k) +
        (d.collected.map (·.1)).count k = _
      omega
    · exact h.filed
    · exact hkept
    · intro p hp
      rcases List.mem_append.1 hp with hold | hlast
      · exact h.polled p hold
      · rw [List.mem_singleton.1 hlast]
        exact h.kept task _ hget
    · exact h.delivered

theorem accounted_look (h : Accounted d) (i : Nat) : Accounted (d.look i) := by
  cases hp : d.polls[i]? with
  | none =>
    unfold look
    rw [hp]
    exact h
  | some p =>
    have hmem : p ∈ d.polls := List.mem_of_getElem? hp
    have htask := h.polled p hmem
    have hout (k : Nat) : (d.polls.map (·.task)).count k =
        [p.task].count k + ((d.polls.eraseIdx i).map (·.task)).count k := by
      rw [(map_perm_eraseIdx hp (·.task)).count_eq, List.count_append]
    have hpolled : ∀ q ∈ d.polls.eraseIdx i, (q.task, .posted q.ticket) ∈ d.tasks :=
      fun q hq => h.polled q ((List.eraseIdx_sublist _ i).subset hq)
    cases hlate : p.late with
    | true =>
      -- the task goes back where it was
      have hin : (d.service.collectable.set p.task (.posted p.ticket)).keys.Perm
          ([p.task] ++ d.service.collectable.keys) :=
        Keyed.keys_set_perm (h.not_mem_keys_of_polls hmem) _
      rw [look_of_late hp hlate]
      apply h.moved
      · intro k
        have hk := hout k
        have hin' := hin.count_eq k
        rw [List.count_append] at hin'
        rw [count_placed]
        change (d.filing.map (·.1)).count k + _ + _ + (d.collected.map (·.1)).count k = _
        omega
      · exact h.filed
      · exact h.kept_set htask
      · exact hpolled
      · exact h.delivered
    | false =>
      cases ho : d.service.received p.ticket with
      | some o =>
        -- the outcome has come, and goes with the task
        rw [look_of_received hp hlate ho]
        refine @Accounted.moved _ _ h d.service.collectable _ _ _ ?_ ?_ ?_ ?_ ?_
        · intro k
          have hk := hout k
          rw [count_placed, List.map_append, List.count_append]
          change _ + _ + _ + (_ + [p.task].count k) = _
          omega
        · exact h.filed
        · exact h.kept
        · exact hpolled
        · intro x hx
          rcases List.mem_append.1 hx with hold | hlast
          · exact h.delivered x hold
          · rw [List.mem_singleton.1 hlast]
            exact ⟨_, htask, ho⟩
      | none =>
        -- nothing has come: the call keeps the task for one step more
        rw [look_of_nothing hp hlate ho]
        refine @Accounted.moved _ _ h d.service.collectable _ _ _ ?_ ?_ ?_ ?_ ?_
        · intro k
          rw [count_placed, tasks_of_late hp]
        · exact h.filed
        · exact h.kept
        · intro q hq
          rcases List.mem_or_eq_of_mem_set hq with hold | rfl
          · exact h.polled q hold
          · exact htask
        · exact h.delivered

variable [InferenceEngine σ]

/-- One step of a call that submits or collects, or anything that the rest of the service does, turns
that are submitted for their reply alone included. -/
inductive Step : Desk σ → Desk σ → Prop
  | submit {d : Desk σ} (now : Nat) (id : SessionId) (prompt : String) (o : Overrides) :
      Step d (d.submit now id prompt o)
  | reply {d : Desk σ} (text : String) (h : 0 < d.inline) : Step d (d.reply text)
  | file {d : Desk σ} (i : Nat) : Step d (d.file i)
  | take {d : Desk σ} (task : Nat) : Step d (d.take task)
  | look {d : Desk σ} (i : Nat) : Step d (d.look i)
  | mail {d : Desk σ} {m : Mailroom σ} (h : Mailroom.Run d.mailroom m)
      (hshelf : m.service.collectable = d.service.collectable)
      (hreplied : m.service.nextReplied = d.service.nextReplied) :
      Step d { d with
        mailroom := m
        submissions := d.submissions + (m.service.nextTicket - d.service.nextTicket) }

abbrev Run : Desk σ → Desk σ → Prop := Relation.ReflTransGen Step

theorem submissions_step {d d' : Desk σ} (h : Step d d') : d.submissions ≤ d'.submissions := by
  cases h with
  | submit now id prompt o =>
    unfold submit
    dsimp only
    split <;> exact Nat.le_succ _
  | reply text _ => exact Nat.le_refl _
  | file i =>
    unfold file
    split <;> exact Nat.le_refl _
  | take task =>
    unfold take
    split <;> exact Nat.le_refl _
  | look i =>
    unfold look
    split
    · exact Nat.le_refl _
    · split
      · exact Nat.le_refl _
      · split <;> exact Nat.le_refl _
  | mail _ _ _ => exact Nat.le_add_right _ _

theorem accounted_step {d d' : Desk σ} (h : Accounted d) (hs : Step d d')
    (hfew : d'.submissions < firstInline) : Accounted d' := by
  have hmore := submissions_step hs
  cases hs with
  | submit now id prompt o =>
    have hsubmissions : (d.submit now id prompt o).submissions = d.submissions + 1 := by
      unfold submit
      dsimp only
      split <;> rfl
    exact accounted_submit h now id prompt o (hsubmissions ▸ hfew)
  | reply text hinline => exact accounted_reply h text hinline hfew
  | file i => exact accounted_file h i
  | take task => exact accounted_take h task
  | look i => exact accounted_look h i
  | mail hm hshelf hreplied =>
    have ho := Mailroom.onward_run hm
    have hticket := ho.nextTicket
    exact h.onward ho hshelf (Nat.le_of_eq hreplied.symm) (by rw [hreplied]; omega)

/-- In every run of fewer submissions than there are ids for the queue. -/
theorem accounted_run {d d' : Desk σ} (h : Accounted d) (hrun : Run d d')
    (hfew : d'.submissions < firstInline) : Accounted d' := by
  -- over the steps taken so far, of which the earlier ones counted no more submissions
  induction hrun with
  | refl => exact h
  | tail _ step ih =>
    have hbefore := Nat.lt_of_le_of_lt (submissions_step step) hfew
    exact accounted_step (ih hbefore) step hfew

end Desk

end ChatInference
