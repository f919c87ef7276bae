import ChatInference.Proofs.Session.Creation
import Mathlib.Logic.Function.Basic

/-!
Turns of one session that overlap. A session has one flag for all its turns, so an eviction spares it
after a begin, and no longer after the first finish, though another of its turns may still be running.
-/

namespace ChatInference.SessionTable

/-- Who is in the table that a creation searches was there before. -/
theorem get?_of_searched {t : SessionTable} {p : SessionPolicy} {now : Nat} {k : SessionId}
    {s : Session} (h : (t.searched p now).sessions.get? k = some s) :
    t.sessions.get? k = some s := by
  rw [searched_eq] at h
  exact get?_of_removeAll h

/-- The new session is there, and ready. -/
theorem get?_insert_self (t : SessionTable) (now : Nat) (requested : Option SessionId) :
    ∃ s, (t.insert now requested).2.sessions.get? (t.insert now requested).1 = some s ∧
      s.state = .ready :=
  ⟨_, (Keyed.get?_set _ _ _ _).trans (if_pos rfl), rfl⟩

theorem get?_orKeep_update (t : SessionTable) (id : SessionId) (f : Session → Session)
    (k : SessionId) :
    (t.orKeep (t.update id f)).sessions.get? k =
      if k = id then (t.sessions.get? id).map f else t.sessions.get? k := by
  unfold update get
  cases hs : t.sessions.get? id with
  | none =>
    have hkeep : t.sessions.get? k = if k = id then none else t.sessions.get? k := by
      by_cases hk : k = id
      · rw [if_pos hk, hk, hs]
      · rw [if_neg hk]
    exact hkeep
  | some s => exact Keyed.get?_set t.sessions id (f s) k

theorem snd_beginTurn (t : SessionTable) (id : SessionId) (now : Nat) (prompt : String) :
    Prod.snd <$> t.beginTurn id now prompt = t.update id (·.begin now prompt) := by
  unfold beginTurn update get
  cases hs : t.sessions.get? id with
  | none => rfl
  | some s =>
    have hget : (t.sessions.set id (s.begin now prompt)).get? id = some (s.begin now prompt) := by
      rw [Keyed.get?_set, if_pos rfl]
    simp [bind, Except.bind, pure, Except.pure, hget]

theorem get?_after_beginTurn (p : SessionPolicy) (t : SessionTable) (id : SessionId) (now : Nat)
    (prompt : String) (k : SessionId) :
    (t.after p (.beginTurn id now prompt)).sessions.get? k =
      if k = id then (t.sessions.get? id).map (·.begin now prompt) else t.sessions.get? k := by
  change (t.orKeep (Prod.snd <$> t.beginTurn id now prompt)).sessions.get? k = _
  rw [snd_beginTurn]
  exact get?_orKeep_update t id _ k

theorem get?_after_finishTurn (p : SessionPolicy) (t : SessionTable) (id : SessionId) (now : Nat)
    (reply : Option String) (nPast : Nat) (k : SessionId) :
    (t.after p (.finishTurn id now reply nPast)).sessions.get? k =
      if k = id then (t.sessions.get? id).map (·.finish now reply nPast) else t.sessions.get? k :=
  get?_orKeep_update t id _ k

theorem state_finish (s : Session) (now : Nat) (reply : Option String) (nPast : Nat) :
    (s.finish now reply nPast).state = .ready := by
  cases reply with
  | none => rfl
  | some text => rfl

/-- Whom a creation reports; one that fails reports nobody. -/
def reported : Except Error Created → List SessionId
  | .ok c => c.evicted
  | .error _ => []

/-- Whom a call evicts. -/
def evictedBy (p : SessionPolicy) (t : SessionTable) : Call → List SessionId
  | .create now requested => reported (t.create p now requested).1
  | .evictIdle now => (t.evictIdle p now).1
  | _ => []

theorem ready_of_mem_evictedBy {p : SessionPolicy} {t : SessionTable} (h : t.Sound) {c : Call}
    {id : SessionId} (hid : id ∈ evictedBy p t c) :
    p.autoCleanup = true ∧ ∃ s, t.sessions.get? id = some s ∧ s.state = .ready := by
  cases c with
  | create now requested =>
    change id ∈ reported (t.create p now requested).1 at hid
    rcases t.create_cases p now requested with ⟨-, e, hc⟩ | ⟨-, ⟨-, e, hc⟩ | ⟨-, hc⟩⟩
    · rw [hc] at hid
      cases hid
    · rw [hc] at hid
      cases hid
    · rw [hc] at hid
      exact ready_of_mem_evictedFor h hid
  | evictIdle now =>
    obtain ⟨hauto, s, hs, hready, -⟩ := (mem_evictIdle h).1 hid
    exact ⟨hauto, s, hs, hready⟩
  | close id => cases hid
  | beginTurn id now prompt => cases hid
  | finishTurn id now reply nPast => cases hid
  | clear => cases hid

/-- A session is evicted by some call or other exactly where evictions are on and it is ready. -/
theorem never_evicted_iff_running {p : SessionPolicy} {t : SessionTable} (h : t.Sound)
    {id : SessionId} {s : Session} (hs : t.sessions.get? id = some s) :
    (∀ c, id ∉ evictedBy p t c) ↔ (p.autoCleanup = true → s.state = .running) := by
  constructor
  · intro hnever hauto
    cases hstate : s.state with
    | running => rfl
    | ready =>
      -- a sweep that comes late enough finds it
      have hidle : p.idleTimeoutMs < s.idleFor (s.lastActivity + p.idleTimeoutMs + 1) := by
        unfold Session.idleFor
        omega
      exact absurd ((mem_evictIdle h).2 ⟨hauto, s, hs, hstate, hidle⟩)
        (hnever (.evictIdle (s.lastActivity + p.idleTimeoutMs + 1)))
  · intro hrunning c hid
    obtain ⟨hauto, s', hs', hready⟩ := ready_of_mem_evictedBy h hid
    obtain rfl : s = s' := Option.some.inj (hs.symm.trans hs')
    exact absurd ((hrunning hauto).symm.trans hready) (by decide)

inductive TurnEvent where
  | begun
  | ended
  deriving DecidableEq

/-- A table, and of each session in it the turns begun and ended since it was opened, the latest first. -/
structure Roster where
  table : SessionTable := {}
  events : SessionId → List TurnEvent := fun _ => []

namespace Roster

/-- A call for a session that is not in the table has no effect on one that is. -/
def note (r : Roster) (id : SessionId) (e : TurnEvent) : SessionId → List TurnEvent :=
  if r.table.contains id then Function.update r.events id (e :: r.events id) else r.events

/-- A new session starts without events, also where its id was in use before. -/
def opened (r : Roster) : Except Error Created → SessionId → List TurnEvent
  | .ok c => Function.update r.events c.id []
  | .error _ => r.events

def eventsAfter (p : SessionPolicy) (r : Roster) : Call → SessionId → List TurnEvent
  | .create now requested => r.opened (r.table.create p now requested).1
  | .beginTurn id _ _ => r.note id .begun
  | .finishTurn id _ _ _ => r.note id .ended
  | _ => r.events

def after (p : SessionPolicy) (r : Roster) (c : Call) : Roster :=
  ⟨r.table.after p c, r.eventsAfter p c⟩

def run (p : SessionPolicy) (calls : List Call) : Roster := calls.foldl (after p) {}

/-- A turn of the session has begun and not ended. -/
def Unfinished (r : Roster) (id : SessionId) : Prop :=
  (r.events id).count .ended < (r.events id).count .begun

/-- Along the way, no turn of the session began before the one before it had ended. -/
def OneAtATime (r : Roster) (id : SessionId) : Prop :=
  ∀ es, es <:+ r.events id → es.count .begun ≤ es.count .ended + 1

instance (r : Roster) (id : SessionId) : Decidable (r.Unfinished id) :=
  inferInstanceAs (Decidable (_ < _))

/-- The flag of a session tells the last thing that happened, and nothing of what came before. -/
structure Flagged (p : SessionPolicy) (r : Roster) : Prop where
  within : WithinLimits p r.table
  running_iff : ∀ id s, r.table.sessions.get? id = some s →
    (s.state = .running ↔ (r.events id).head? = some .begun)

variable {p : SessionPolicy} {r : Roster}

theorem flagged_empty (p : SessionPolicy) : Flagged p {} := by
  refine ⟨withinLimits_empty p, ?_⟩
  intro id s hs
  rw [Keyed.get?_empty] at hs
  cases hs

/-- A call after which there are only sessions as they were, and no events were noted. -/
theorem Flagged.of_kept (h : Flagged p r) {c : Call} (hevents : r.eventsAfter p c = r.events)
    (hkept : ∀ id s, (r.table.after p c).sessions.get? id = some s →
      r.table.sessions.get? id = some s) : Flagged p (r.after p c) := by
  refine ⟨withinLimits_after h.within c, ?_⟩
  intro id s hs
  change s.state = .running ↔ (r.eventsAfter p c id).head? = some .begun
  rw [hevents]
  exact h.running_iff id s (hkept id s hs)

theorem note_self {id : SessionId} {s : Session} (hs : r.table.sessions.get? id = some s)
    (e : TurnEvent) : r.note id e id = e :: r.events id := by
  have hin : r.table.contains id = true := by
    unfold contains Keyed.contains
    rw [hs]
    rfl
  unfold note
  rw [if_pos hin]
  exact Function.update_self id _ r.events

theorem note_of_ne {id k : SessionId} (hk : k ≠ id) (e : TurnEvent) :
    r.note id e k = r.events k := by
  unfold note
  split
  · exact Function.update_of_ne hk _ r.events
  · rfl

/-- A call that changes one session, and notes the event that its new flag stands for. -/
theorem Flagged.of_noted (h : Flagged p r) {c : Call} {id : SessionId} {e : TurnEvent}
    {f : Session → Session} (hevents : r.eventsAfter p c = r.note id e)
    (hflag : ∀ s, (f s).state = .running ↔ e = .begun)
    (hget : ∀ k, (r.table.after p c).sessions.get? k =
      if k = id then (r.table.sessions.get? id).map f else r.table.sessions.get? k) :
    Flagged p (r.after p c) := by
  refine ⟨withinLimits_after h.within c, ?_⟩
  intro k s hs
  change s.state = .running ↔ (r.eventsAfter p c k).head? = some .begun
  rw [hevents]
  rw [show (r.after p c).table = r.table.after p c from rfl, hget k] at hs
  by_cases hk : k = id
  · rw [if_pos hk] at hs
    obtain ⟨s₀, hs₀, rfl⟩ := Option.map_eq_some_iff.1 hs
    rw [hk, note_self hs₀, hflag]
    simp only [List.head?_cons, Option.some.injEq]
  · rw [if_neg hk] at hs
    rw [note_of_ne hk]
    exact h.running_iff k s hs

theorem flagged_create (h : Flagged p r) (now : Nat) (requested : Option SessionId) :
    Flagged p (r.after p (.create now requested)) := by
  have hfailed {e : Error} {t' : SessionTable} (hc : r.table.create p now requested = (.error e, t'))
      (hkept : ∀ k s, t'.sessions.get? k = some s → r.table.sessions.get? k = some s) :
      Flagged p (r.after p (.create now requested)) := by
    apply h.of_kept
    · change r.opened (r.table.create p now requested).1 = r.events
      rw [hc]
      rfl
    · intro k s hs
      change (r.table.create p now requested).2.sessions.get? k = some s at hs
      rw [hc] at hs
      exact hkept k s hs
  rcases r.table.create_cases p now requested with ⟨-, e, hc⟩ | ⟨-, ⟨-, e, hc⟩ | ⟨-, hc⟩⟩
  · exact hfailed hc fun k s hs => hs
  -- evictions before a failure would take sessions away, and note nothing
  · exact hfailed hc fun k s hs => get?_of_searched hs
  · refine ⟨withinLimits_after h.within (.create now requested), ?_⟩
    intro k s hs
    change (r.table.create p now requested).2.sessions.get? k = some s at hs
    change s.state = .running ↔
      (r.opened (r.table.create p now requested).1 k).head? = some .begun
    rw [hc] at hs ⊢
    obtain ⟨s₀, hnew, hready⟩ := (r.table.searched p now).get?_insert_self now requested
    generalize hid : ((r.table.searched p now).insert now requested).1 = id at hnew ⊢
    change s.state = .running ↔ (Function.update r.events id [] k).head? = some .begun
    by_cases hk : k = id
    · -- the new session is ready, and nothing has happened to it
      rw [hk] at hs ⊢
      obtain rfl : s₀ = s := Option.some.inj (hnew.symm.trans hs)
      rw [hready, Function.update_self]
      exact iff_of_false nofun nofun
    · rw [Function.update_of_ne hk]
      rw [← hid] at hk
      exact h.running_iff k s (get?_of_searched ((get?_insert_of_ne hk).symm.trans hs))

theorem flagged_after (h : Flagged p r) (c : Call) : Flagged p (r.after p c) := by
  cases c with
  | create now requested => exact flagged_create h now requested
  -- a session that leaves the table takes nothing of the others along
  | close id =>
    apply h.of_kept rfl
    intro k s hs
    change (r.table.orKeep (Prod.snd <$> r.table.close id)).sessions.get? k = some s at hs
    unfold close get at hs
    cases hg : r.table.sessions.get? id with
    | none =>
      rw [hg] at hs
      exact hs
    | some s₀ =>
      rw [hg] at hs
      exact Keyed.get?_of_erase hs
  | evictIdle now =>
    apply h.of_kept rfl
    intro k s hs
    change (r.table.evictIdle p now).2.sessions.get? k = some s at hs
    rw [evictIdle_table] at hs
    exact get?_of_removeAll hs
  | beginTurn id now prompt =>
    exact h.of_noted rfl (fun s => iff_of_true rfl rfl) (get?_after_beginTurn p r.table id now prompt)
  | finishTurn id now reply nPast =>
    apply h.of_noted rfl _ (get?_after_finishTurn p r.table id now reply nPast)
    intro s
    rw [state_finish]
    exact iff_of_false nofun nofun
  | clear =>
    apply h.of_kept rfl
    intro k s hs
    change (∅ : Keyed Session).get? k = some s at hs
    rw [Keyed.get?_empty] at hs
    cases hs

theorem flagged_run (p : SessionPolicy) (calls : List Call) : Flagged p (run p calls) := by
  have hfold : ∀ r, Flagged p r → Flagged p (calls.foldl (after p) r) := by
    -- over the calls, from whatever roster the ones before have left
    induction calls with
    | nil => exact fun r h => h
    | cons c calls ih => exact fun r h => ih (r.after p c) (flagged_after h c)
  exact hfold {} (flagged_empty p)

/-- Where turns do not overlap, an unfinished one is the last thing that happened. -/
theorem begun_last {id : SessionId} (hone : r.OneAtATime id) (hun : r.Unfinished id) :
    (r.events id).head? = some .begun := by
  unfold Unfinished at hun
  cases hes : r.events id with
  | nil =>
    rw [hes] at hun
    cases hun
  | cons e es =>
    cases e with
    | begun => rfl
    | ended =>
      -- before the last end there were at most one more begins than ends
      have hbefore := hone es (by rw [hes]; exact List.suffix_cons _ es)
      rw [hes, List.count_cons_self, List.count_cons_of_ne (by decide)] at hun
      omega

/-- After any calls, a session of the table is out of reach of every eviction exactly where evictions
are off or the last thing noted for it is a begin. So it is while it has an unfinished turn, if its turns
never overlap. -/
theorem spared_iff_begun_last {p : SessionPolicy} {calls : List Call} {id : SessionId}
    (hin : (run p calls).table.contains id = true) :
    let r := run p calls
    ((∀ c, id ∉ evictedBy p r.table c) ↔
      (p.autoCleanup = true → (r.events id).head? = some .begun)) ∧
    (r.OneAtATime id → r.Unfinished id → ∀ c, id ∉ evictedBy p r.table c) := by
  intro r
  have h : Flagged p r := flagged_run p calls
  obtain ⟨s, hs⟩ := Option.isSome_iff_exists.1 hin
  have hiff := never_evicted_iff_running (p := p) h.within.sound hs
  rw [h.running_iff id s hs] at hiff
  refine ⟨hiff, ?_⟩
  intro hone hun
  exact hiff.2 fun _ => begun_last hone hun

theorem spared_iff_begun_last_running :
    let p : SessionPolicy := ⟨1, 1000, true⟩
    let r := run p [.create 0 none, .beginTurn 1 10 "one"]
    r.table.contains 1 = true ∧ r.OneAtATime 1 ∧ r.Unfinished 1 ∧
      ∀ c, 1 ∉ evictedBy p r.table c := by
  intro p r
  have hin : r.table.contains 1 = true := by decide +kernel
  have hevents : r.events 1 = [.begun] := by decide +kernel
  have hone : r.OneAtATime 1 := by
    intro es hes
    rw [hevents] at hes
    rcases List.suffix_cons_iff.1 hes with rfl | hnil
    · decide
    · rw [List.suffix_nil.1 hnil]
      decide
  have hun : r.Unfinished 1 := by decide +kernel
  exact ⟨hin, hone, hun, (spared_iff_begun_last hin).2 hone hun⟩

/-- Two turns of one session, of which the first has ended: a sweep takes the session, a creation takes it
for its room, and the end of the second turn finds no session after that. -/
theorem second_turn_evicted :
    let p : SessionPolicy := ⟨1, 1000, true⟩
    let r := run p [.create 0 none, .beginTurn 1 10 "one", .beginTurn 1 20 "two",
      .finishTurn 1 30 (some "first") 5]
    r.Unfinished 1 ∧ 1 ∈ evictedBy p r.table (.evictIdle 5000) ∧
      1 ∈ evictedBy p r.table (.create 40 none) ∧
      (r.after p (.evictIdle 5000)).table.finishTurn 1 5001 (some "second") 9 =
        .error (missing 1) := by
  intro p r
  have hun : r.Unfinished 1 := by decide +kernel
  have hswept : 1 ∈ evictedBy p r.table (.evictIdle 5000) := by decide +kernel
  have hroom : 1 ∈ evictedBy p r.table (.create 40 none) := by decide +kernel
  have hgone : (r.after p (.evictIdle 5000)).table.sessions.get? 1 = none := by decide +kernel
  refine ⟨hun, hswept, hroom, ?_⟩
  unfold finishTurn update get
  rw [hgone]
  rfl

end Roster

end ChatInference.SessionTable
