import ChatInference.Proofs.Service.Parts
import ChatInference.Proofs.Service.Tenancy
import ChatInference.Proofs.Session.Precedence
import ChatInference.Proofs.Session.Transcript

/-!
Turns and the sessions they began in. Each turn is followed from the prompt it records to the end it records,
and the answered ones are written down with the session they were begun in, by its id and its creation. No
turn begins in a session while another one of that session is under way, so of each session there is at
most one.
-/

namespace ChatInference

/-- What a turn works on is the history it began with. -/
def TurnPart.messages : TurnPart → List Message
  | .begun _ history _ => history
  | .prepared turn | .generated turn _ | .measured turn _ _ => turn.request.messages

namespace Service

variable {σ : Type} {s s' : Service σ} {now : Nat} {p p' : TurnPart}

/-- A turn begins in an open session, with its history and the prompt. -/
theorem beginPart_ok {id : SessionId} {prompt : String} {o : Overrides}
    (h : s.beginPart now id prompt o = (.ok p, s')) :
    ∃ u, s.sessions.sessions.get? id = some u ∧ p.session = id ∧
      p.messages = u.history ++ [⟨.user, prompt⟩] ∧ s.sessions.Within s'.sessions ∧
      ∀ k, s'.sessions.sessions.get? k =
        if k = id then some (u.begin now prompt) else s.sessions.sessions.get? k := by
  unfold beginPart at h
  split at h
  case h_1 => cases h
  case h_2 =>
    split at h
    case h_1 => cases h
    case h_2 session sessions hb =>
      cases h
      obtain ⟨u, hu, rfl, hupdate⟩ := SessionTable.beginTurn_eq hb
      refine ⟨u, hu, rfl, rfl, (SessionTable.update_ok hupdate).2, fun k => ?_⟩
      have hget := SessionTable.get?_update hupdate k
      rw [hu] at hget
      exact hget

/-- A part that is not the last changes no session, and works on the same messages. -/
theorem nextPart_some [InferenceEngine σ] (h : s.nextPart now p = (some p', s')) :
    p'.session = p.session ∧ p'.messages = p.messages ∧ s'.sessions = s.sessions := by
  cases p with
  | begun id history c =>
    cases h
    exact ⟨rfl, rfl, rfl⟩
  | prepared turn =>
    cases h
    exact ⟨rfl, rfl, rfl⟩
  | generated turn r =>
    cases r with
    | ok g =>
      cases h
      exact ⟨rfl, rfl, rfl⟩
    | error e =>
      cases h
      exact ⟨rfl, rfl, rfl⟩
  | measured turn reply nPast => cases h

end Service

/-- Nothing happens to a session that stays, but for an insertion. -/
theorem World.get?_of_advance {σ : Type} [InferenceEngine σ] {w : World σ} {now : Nat}
    (hi : w.held ≠ .insert) {k : SessionId} {s : Session}
    (h : (w.advance now).service.sessions.sessions.get? k = some s) :
    w.service.sessions.sessions.get? k = some s := by
  unfold advance at h
  cases hh : w.held with
  | free =>
    rw [hh] at h
    exact h
  | sweep =>
    rw [hh] at h
    dsimp only at h
    rw [SessionTable.evictIdle_table] at h
    exact SessionTable.get?_of_removeAll h
  | owe ids next =>
    rw [hh] at h
    exact h
  | retire ids next =>
    rw [hh] at h
    cases ids with
    | nil => cases next <;> exact h
    | cons id ids => exact h
  | atGate =>
    rw [hh] at h
    dsimp only at h
    split at h <;> exact h
  | insert => exact absurd hh hi
  | giveBack e =>
    rw [hh] at h
    exact h
  | close id =>
    rw [hh] at h
    dsimp only at h
    split at h
    case h_1 => exact h
    case h_2 hc =>
      have hget := SessionTable.get?_close hc k
      dsimp only at h
      rw [h] at hget
      split at hget
      · cases hget
      · exact hget.symm
  | last =>
    rw [hh] at h
    dsimp only at h
    split at h <;> exact h
  | replaced =>
    rw [hh] at h
    exact h
  | cancel ids =>
    rw [hh] at h
    cases ids with
    | nil => cases h
    | cons id ids => exact h
  | cleared =>
    rw [hh] at h
    exact h

/-- A service with its turns in parts, and the exchanges so far. -/
structure Chronicle (σ : Type) where
  traffic : Traffic σ
  tally : Tally := {}
  /-- The last creation under each id. -/
  latest : SessionId → Nat := fun _ => 0
  /-- The turns that are under way, part by part. -/
  pending : List Pending := []
  log : List Exchange := []

namespace Chronicle

variable {σ : Type}

def opened (config : ServiceConfig) (e : σ) : Chronicle σ := { traffic := .opened config e }

def sessions (t : Chronicle σ) : SessionTable := t.traffic.world.service.sessions

def onWorld (t : Chronicle σ) (w : World σ) : Chronicle σ :=
  { t with traffic := { t.traffic with world := w } }

/-- Whether a turn was begun in the session that was last created under the id. -/
def Concerns (t : Chronicle σ) (q : SessionId) (a : Pending) : Prop :=
  a.asked.id = q ∧ a.asked.creation = t.latest q

instance (t : Chronicle σ) (q : SessionId) (a : Pending) : Decidable (t.Concerns q a) :=
  inferInstanceAs (Decidable (_ ∧ _))

/-- Whether a turn of that session is under way. -/
def Engaged (t : Chronicle σ) (q : SessionId) : Prop := ∃ a ∈ t.pending, t.Concerns q a

instance (t : Chronicle σ) (q : SessionId) : Decidable (t.Engaged q) :=
  inferInstanceAs (Decidable (∃ a ∈ t.pending, t.Concerns q a))

/-- A turn has come to its next part. -/
def gone (t : Chronicle σ) (i : Nat) (p : TurnPart) (service : Service σ) : Chronicle σ :=
  { t with traffic := ⟨{ t.traffic.world with service }, t.traffic.parts.set i p⟩ }

/-- A turn has ended. -/
def ended (t : Chronicle σ) (i : Nat) (a : Pending) (reply : Option String) (service : Service σ) :
    Chronicle σ :=
  { t with
    traffic := ⟨{ t.traffic.world with service }, t.traffic.parts.eraseIdx i⟩
    pending := t.pending.eraseIdx i
    log := t.log ++ a.answered reply }

/-- The exchanges of that session. -/
def exchanges (t : Chronicle σ) (q : SessionId) : List Exchange := exchangesOf t.log q (t.latest q)

/-- A turn that begins is noted with the session it begins in. -/
def begin (t : Chronicle σ) (now : Nat) (id : SessionId) (prompt : String) (o : Overrides) :
    Chronicle σ :=
  { t with
    traffic := t.traffic.begin now id prompt o
    pending := match (t.traffic.service.beginPart now id prompt o).1 with
      | .ok _ => t.pending ++ [⟨⟨id, t.latest id, t.tally.clearings⟩, prompt⟩]
      | .error _ => t.pending }

/-- What holds after every step. Of each session at most one turn is under way. -/
structure Kept (t : Chronicle σ) : Prop where
  dates : t.tally.Dates t.latest t.sessions
  aligned : List.Forall₂ (fun a p => a.asked.id = p.session) t.pending t.traffic.parts
  known : ∀ a ∈ t.pending, t.tally.Knows a.asked
  logged : ∀ x ∈ t.log, x.asked.creation ≤ t.tally.created
  apart : t.pending.Pairwise fun a b =>
    ¬(a.asked.id = b.asked.id ∧ a.asked.creation = b.asked.creation)

section

variable {t : Chronicle σ} {q : SessionId}

theorem kept_opened (config : ServiceConfig) (e : σ) : Kept (opened config e) := by
  refine ⟨⟨Nat.le_refl _, fun _ => rfl, fun k hk => ?_⟩, .nil, List.forall_mem_nil _,
    List.forall_mem_nil _, .nil⟩
  cases hk

/-- A session that is open by now, and whose turn is under way, has no other turn under way. -/
theorem Kept.alone (h : Kept t) {i : Nat} {a b : Pending} (ha : t.pending[i]? = some a)
    (hb : b ∈ t.pending.eraseIdx i) :
    ¬(b.asked.id = a.asked.id ∧ b.asked.creation = a.asked.creation) := by
  obtain ⟨hlt, rfl⟩ := List.getElem?_eq_some_iff.1 ha
  have hperm := (List.getElem_cons_eraseIdx_perm hlt).symm
  have hapart := (hperm.pairwise_iff (fun hne ⟨hid, hc⟩ => hne ⟨hid.symm, hc.symm⟩)).1 h.apart
  rintro ⟨hid, hc⟩
  exact (List.pairwise_cons.1 hapart).1 b hb ⟨hid.symm, hc.symm⟩

theorem kept_of_within (h : Kept t) {w : World σ} (hw : t.sessions.Within w.service.sessions) :
    Kept (t.onWorld w) :=
  ⟨Tally.dates_within h.dates hw, h.aligned, h.known, h.logged, h.apart⟩

theorem mem_answered {a : Pending} {reply : Option String} {x : Exchange}
    (h : x ∈ a.answered reply) : x.asked = a.asked := by
  cases reply with
  | none => cases h
  | some text => rw [List.mem_singleton.1 h]

/-- Who is under way while a turn ends: that turn, and those that are left. -/
theorem mem_pending_iff {i : Nat} {a b : Pending} (ha : t.pending[i]? = some a) :
    b ∈ t.pending ↔ b = a ∨ b ∈ t.pending.eraseIdx i := by
  obtain ⟨hlt, rfl⟩ := List.getElem?_eq_some_iff.1 ha
  rw [← (List.getElem_cons_eraseIdx_perm hlt).mem_iff, List.mem_cons]

/-- The exchanges of a session after the end of a turn that is not its own. -/
theorem exchangesOf_other {a : Pending} {reply : Option String} {creation : Nat}
    (h : ¬(a.asked.id = q ∧ a.asked.creation = creation)) :
    exchangesOf (t.log ++ a.answered reply) q creation = exchangesOf t.log q creation := by
  rw [exchangesOf_append, if_neg h, List.append_nil]

/-- A turn that has just begun is one of the session that it began in. -/
theorem kept_begin (h : Kept t) {now : Nat} {id : SessionId} {prompt : String} {o : Overrides}
    (hfree : t.sessions.contains id = true → ¬t.Engaged id) : Kept (t.begin now id prompt o) := by
  unfold begin Traffic.begin
  rcases hb : t.traffic.service.beginPart now id prompt o with ⟨e | p, service⟩
  · exact h
  · obtain ⟨u, hu, hsession, -, hwithin, -⟩ := Service.beginPart_ok hb
    have hin : t.sessions.contains id = true := SessionTable.contains_iff.2 ⟨u, hu⟩
    obtain ⟨-, hle, hnum⟩ := h.dates.latest id hin
    have hknows : t.tally.Knows ⟨id, t.latest id, t.tally.clearings⟩ :=
      ⟨Nat.le_refl _, hle, fun hlt => absurd hlt (Nat.lt_irrefl _), fun _ => hnum⟩
    refine ⟨Tally.dates_within h.dates hwithin, ?_, ?_, h.logged, ?_⟩
    · exact List.rel_append h.aligned (.cons hsession.symm .nil)
    · intro a ha
      rcases List.mem_append.1 ha with hold | hnew
      · exact h.known a hold
      · rw [List.mem_singleton.1 hnew]
        exact hknows
    · apply List.pairwise_append.2
      refine ⟨h.apart, List.pairwise_singleton _ _, fun a ha b hb => ?_⟩
      rw [List.mem_singleton.1 hb]
      exact fun hsame => hfree hin ⟨a, ha, hsame⟩

/-- What becomes of the session of the turn, and of no other. -/
theorem get?_ended (h : Kept t) (now : Nat) {i nPast : Nat} {turn : Turn} {reply : Option String}
    {a : Pending} (hi : t.traffic.parts[i]? = some (.measured turn reply nPast)) (ha : t.pending[i]? = some a)
    (k : SessionId) :
    (t.ended i a reply (t.traffic.service.record now turn.session reply nPast)).sessions.sessions.get? k =
      if k = a.asked.id then (t.sessions.sessions.get? k).map (·.finish now reply nPast)
      else t.sessions.sessions.get? k := by
  have hid : a.asked.id = turn.session := Tenancy.related_at h.aligned ha hi
  have hget := t.traffic.service.get?_record now turn.session reply nPast k
  rw [← hid] at hget ⊢
  by_cases hk : k = a.asked.id
  · rw [if_pos hk, ← hk] at hget
    rw [if_pos hk, ← hk]
    exact hget
  · rw [if_neg hk] at hget ⊢
    exact hget

theorem kept_ended (h : Kept t) {i now nPast : Nat} {turn : Turn} {reply : Option String} {a : Pending}
    (ha : t.pending[i]? = some a) :
    Kept (t.ended i a reply (t.traffic.service.record now turn.session reply nPast)) := by
  refine ⟨?_, Tenancy.related_eraseIdx h.aligned i, ?_, ?_, ?_⟩
  · exact Tally.dates_within h.dates (Service.within_record _ _ _ _ _)
  · exact fun b hb => h.known b (List.mem_of_mem_eraseIdx hb)
  · intro x hx
    rcases List.mem_append.1 hx with hold | hnew
    · exact h.logged x hold
    · rw [mem_answered hnew]
      exact (h.known a (List.mem_of_getElem? ha)).creation
  · exact h.apart.sublist (List.eraseIdx_sublist ..)

end

variable [InferenceEngine σ]

/-- A turn that ends is written down where it was answered. -/
def next (t : Chronicle σ) (i now : Nat) : Chronicle σ :=
  match t.traffic.parts[i]?, t.pending[i]? with
  | some (.measured _ reply _), some a =>
    { t with
      traffic := t.traffic.next i now
      pending := t.pending.eraseIdx i
      log := t.log ++ a.answered reply }
  | _, _ => { t with traffic := t.traffic.next i now }

/-- The next step of the call that holds the lock; creations and clearings are counted. -/
def advance (t : Chronicle σ) (now : Nat) : Chronicle σ :=
  let s := t.traffic.service
  let next := { t with traffic := t.traffic.advance now }
  match t.traffic.world.held with
  | .insert =>
    match (s.sessions.create s.sessionPolicy now none).1 with
    | .ok c =>
      { next with
        tally := t.tally.create
        latest := Function.update t.latest c.id (t.tally.created + 1) }
    | .error _ => next
  | .cancel [] => { next with tally := t.tally.clear }
  | _ => next

/-- One step of any call. A turn does not begin in a session while another one of it is under way. -/
inductive Step : Chronicle σ → Chronicle σ → Prop
  | begin {t : Chronicle σ} (now : Nat) (id : SessionId) (prompt : String) (o : Overrides)
      (h : t.sessions.contains id = true → ¬t.Engaged id) : Step t (t.begin now id prompt o)
  | next {t : Chronicle σ} (i now : Nat) : Step t (t.next i now)
  | create {t : Chronicle σ} (h : t.traffic.world.held = .free) :
      Step t (t.onWorld { t.traffic.world with held := .sweep })
  | close {t : Chronicle σ} (id : SessionId) (h : t.traffic.world.held = .free) :
      Step t (t.onWorld { t.traffic.world with held := .close id })
  | replaced {t : Chronicle σ} (h : t.traffic.world.held = .free)
      (hl : t.traffic.world.load = .replaced) :
      Step t (t.onWorld { t.traffic.world with held := .replaced })
  | load {t : Chronicle σ} (path : String) (text : Option String)
      (h : t.traffic.world.load = .begun → t.traffic.parts = []) :
      Step t (t.onWorld (t.traffic.world.loadStep path text))
  | advance {t : Chronicle σ} (now : Nat)
      (h : t.traffic.world.held = .insert →
        t.sessions.SearchEnds t.traffic.service.sessionPolicy now) : Step t (t.advance now)
  | elsewhere {t : Chronicle σ} {service : Service σ} (h : t.traffic.service.Elsewhere service) :
      Step t (t.onWorld { t.traffic.world with service })

/-- What is noted changes nothing of what the calls do. -/
theorem traffic_step {t t' : Chronicle σ} (hs : Step t t') : Traffic.Step t.traffic t'.traffic := by
  cases hs with
  | begin now id prompt o => exact .begin now id prompt o
  | next i now =>
    unfold next
    split <;> exact .next i now
  | create hf => exact .create hf
  | close id hf => exact .close id hf
  | replaced hf hl => exact .replaced hf hl
  | load path text hl => exact .load path text hl
  | advance now hends =>
    unfold advance
    dsimp only
    split
    · split <;> exact .advance now hends
    · exact .advance now hends
    · exact .advance now hends
  | elsewhere he => exact .elsewhere he

theorem next_ends {t : Chronicle σ} {i now nPast : Nat} {turn : Turn} {reply : Option String}
    {a : Pending} (hi : t.traffic.parts[i]? = some (.measured turn reply nPast))
    (ha : t.pending[i]? = some a) :
    t.next i now = t.ended i a reply (t.traffic.service.record now turn.session reply nPast) := by
  unfold next
  rw [hi, ha]
  dsimp only
  rw [Traffic.next_ends hi]
  rfl

theorem next_goes {t : Chronicle σ} {i : Nat} (now : Nat)
    (h : ∀ turn reply nPast, t.traffic.parts[i]? ≠ some (.measured turn reply nPast)) :
    t.next i now = { t with traffic := t.traffic.next i now } := by
  unfold next
  split
  case h_1 turn reply nPast a hi ha => exact absurd hi (h turn reply nPast)
  case h_2 => rfl

variable {t t' : Chronicle σ}

/-- A turn that is there goes on, or ends. -/
theorem next_cases (h : Kept t) (i now : Nat) :
    t.next i now = t ∨
      (∃ p p' service, t.traffic.parts[i]? = some p ∧
        t.traffic.service.nextPart now p = (some p', service) ∧ t.next i now = t.gone i p' service) ∨
      ∃ turn reply nPast a, t.traffic.parts[i]? = some (.measured turn reply nPast) ∧
        t.pending[i]? = some a := by
  cases hi : t.traffic.parts[i]? with
  | none =>
    left
    have hnone : ∀ turn reply nPast,
        t.traffic.parts[i]? ≠ some (.measured turn reply nPast) := by
      intro turn reply nPast
      rw [hi]
      nofun
    rw [next_goes now hnone]
    unfold Traffic.next
    rw [hi]
  | some p =>
    right
    cases hn : t.traffic.service.nextPart now p with
    | mk p' service =>
      cases p' with
      | none =>
        right
        obtain ⟨turn, reply, nPast, rfl, -⟩ := Service.nextPart_none hn
        obtain ⟨hlt, -⟩ := List.getElem?_eq_some_iff.1 hi
        rw [← h.aligned.length_eq] at hlt
        exact ⟨turn, reply, nPast, _, rfl, List.getElem?_eq_getElem hlt⟩
      | some p' =>
        left
        refine ⟨p, p', service, rfl, hn, ?_⟩
        have hgoes : ∀ turn reply nPast,
            t.traffic.parts[i]? ≠ some (.measured turn reply nPast) := by
          intro turn reply nPast hp
          obtain rfl := Option.some.inj (hi.symm.trans hp)
          cases hn
        rw [next_goes now hgoes, Traffic.next_goes hi hn]
        rfl

theorem kept_gone (h : Kept t) {i now : Nat} {p p' : TurnPart} {service : Service σ}
    (hi : t.traffic.parts[i]? = some p) (hn : t.traffic.service.nextPart now p = (some p', service)) :
    Kept (t.gone i p' service) := by
  obtain ⟨hsession, -, hsessions⟩ := Service.nextPart_some hn
  have hwithin : t.sessions.Within service.sessions := by
    rw [hsessions]
    exact SessionTable.within_refl _
  obtain ⟨hlt, -⟩ := List.getElem?_eq_some_iff.1 hi
  rw [← h.aligned.length_eq] at hlt
  have hat := List.getElem?_eq_getElem hlt
  have hid := (Tenancy.related_at h.aligned hat hi).trans hsession.symm
  exact ⟨Tally.dates_within h.dates hwithin, Tenancy.related_set h.aligned hat hid, h.known, h.logged,
    h.apart⟩

theorem advance_insert {now : Nat} {c : Created} {table : SessionTable}
    (h : t.traffic.world.held = .insert)
    (hc : t.sessions.create t.traffic.service.sessionPolicy now none = (.ok c, table)) :
    (t.advance now).sessions = table ∧ (t.advance now).tally = t.tally.create ∧
      (t.advance now).latest = Function.update t.latest c.id (t.tally.created + 1) ∧
      (t.advance now).pending = t.pending ∧ (t.advance now).log = t.log ∧
      (t.advance now).traffic.parts = t.traffic.parts := by
  have hmade : (t.traffic.service.sessions.create t.traffic.service.sessionPolicy now none).1 = .ok c :=
    congrArg Prod.fst hc
  have htraffic := Traffic.advance_insert h hc
  unfold advance
  rw [h]
  dsimp only
  rw [hmade]
  refine ⟨?_, rfl, rfl, rfl, rfl, rfl⟩
  change (t.traffic.advance now).world.service.sessions = table
  rw [htraffic]

/-- A step of the call that holds the lock, where it creates no session: no id comes into use, or the table
is cleared. -/
theorem advance_keeps (now : Nat) (h : ∀ c table, t.traffic.world.held = .insert →
      t.sessions.create t.traffic.service.sessionPolicy now none ≠ (.ok c, table)) :
    ∃ w y, t.advance now = { t with traffic := { t.traffic with world := w }, tally := y } ∧
      (∀ k s, w.service.sessions.sessions.get? k = some s → t.sessions.sessions.get? k = some s) ∧
      (t.sessions.Within w.service.sessions ∧ y = t.tally ∨
        w.service.sessions = {} ∧ y = t.tally.clear) := by
  by_cases hi : t.traffic.world.held = .insert
  · cases hc : t.sessions.create t.traffic.service.sessionPolicy now none with
    | mk r table =>
      cases r with
      | ok c => exact absurd hc (h c table hi)
      | error e =>
        -- a creation that fails may have evicted, and no id comes into use
        have hmade : (t.traffic.service.sessions.create t.traffic.service.sessionPolicy now none).1 =
            .error e := congrArg Prod.fst hc
        have hsessions : (t.traffic.world.advance now).service.sessions = table := by
          unfold World.advance
          rw [hi]
          dsimp only
          unfold sessions Traffic.service at hc
          rw [hc]
        refine ⟨t.traffic.world.advance now, t.tally, ?_, fun k s hs => ?_, .inl ⟨?_, rfl⟩⟩
        · unfold advance
          rw [hi]
          dsimp only
          rw [hmade]
          rfl
        · rw [hsessions] at hs
          rcases SessionTable.table_of_create_error hc with rfl | rfl
          · exact hs
          · exact SessionTable.get?_of_searched hs
        · rw [hsessions]
          exact SessionTable.create_error_within hc
  · have hget (k : SessionId) (s : Session)
        (hs : (t.traffic.world.advance now).service.sessions.sessions.get? k = some s) :
        t.sessions.sessions.get? k = some s := World.get?_of_advance hi hs
    by_cases hd : t.traffic.world.held = .cancel []
    · refine ⟨t.traffic.world.advance now, t.tally.clear, ?_, hget, .inr ⟨?_, rfl⟩⟩
      · unfold advance
        rw [hd]
        rfl
      · unfold World.advance
        rw [hd]
        rfl
    · refine ⟨t.traffic.world.advance now, t.tally, ?_, hget,
        .inl ⟨(World.calm_advance now hi hd).sessions, rfl⟩⟩
      unfold advance
      dsimp only
      split
      case h_1 hh => exact absurd hh hi
      case h_2 hh => exact absurd hh hd
      case h_3 => rfl

theorem kept_advance (h : Kept t) (now : Nat) : Kept (t.advance now) := by
  by_cases hmade : ∃ c table, t.traffic.world.held = .insert ∧
      t.sessions.create t.traffic.service.sessionPolicy now none = (.ok c, table)
  · obtain ⟨c, table, hi, hc⟩ := hmade
    obtain ⟨hsessions, htally, hlatest, hpending, hlog, hparts⟩ := advance_insert hi hc
    refine ⟨?_, ?_, ?_, ?_, ?_⟩
    · rw [hsessions, htally, hlatest]
      exact Tally.dates_create h.dates hc
    · rw [hpending, hparts]
      exact h.aligned
    · rw [hpending, htally]
      exact fun a ha => Tally.knows_create (h.known a ha)
    · rw [hlog, htally]
      exact fun x hx => Nat.le_succ_of_le (h.logged x hx)
    · rw [hpending]
      exact h.apart
  · obtain ⟨w, y, heq, -, ⟨hwithin, rfl⟩ | ⟨hempty, rfl⟩⟩ :=
      advance_keeps (t := t) now fun c table hi hc => hmade ⟨c, table, hi, hc⟩
    · rw [heq]
      exact kept_of_within h hwithin
    · rw [heq]
      have hcleared : t.tally.clear.Dates t.latest w.service.sessions := by
        rw [hempty]
        exact Tally.dates_clear _ _
      exact ⟨hcleared, h.aligned, fun a ha => Tally.knows_clear (h.known a ha), h.logged, h.apart⟩

theorem kept_step (hs : Step t t') (h : Kept t) : Kept t' := by
  cases hs with
  | begin now id prompt o hfree => exact kept_begin h hfree
  | next i now =>
    rcases next_cases h i now with
      hsame | ⟨p, p', service, hi, hn, hgone⟩ | ⟨turn, reply, nPast, a, hi, ha⟩
    · rwa [hsame]
    · rw [hgone]
      exact kept_gone h hi hn
    · rw [next_ends hi ha]
      exact kept_ended h ha
  | create => exact kept_of_within h (SessionTable.within_refl _)
  | close => exact kept_of_within h (SessionTable.within_refl _)
  | replaced => exact kept_of_within h (SessionTable.within_refl _)
  | load path text =>
    obtain ⟨-, hsessions, -, -⟩ := t.traffic.world.loadStep_cases path text
    exact kept_of_within h (hsessions ▸ SessionTable.within_refl _)
  | advance now => exact kept_advance h now
  | elsewhere he => exact kept_of_within h (he.sessions ▸ SessionTable.within_refl _)

/-- Steps of all calls in any number and order. -/
abbrev Run : Chronicle σ → Chronicle σ → Prop := Relation.ReflTransGen Step

theorem traffic_run (hr : Run t t') : Traffic.Run t.traffic t'.traffic := by
  induction hr with
  | refl => exact .refl
  | tail _ step ih => exact ih.tail (traffic_step step)

/-- The call that holds the lock takes several steps in a row. -/
def advances (t : Chronicle σ) (now : Nat) : Nat → Chronicle σ
  | 0 => t
  | n + 1 => (t.advances now n).advance now

theorem reach_advances {R : Chronicle σ → Chronicle σ → Prop} (t : Chronicle σ) (now n : Nat)
    (hR : ∀ i < n, R (t.advances now i) (t.advances now (i + 1))) :
    Relation.ReflTransGen R t (t.advances now n) := by
  have hcount : Relation.ReflTransGen (fun i j => R (t.advances now i) (t.advances now j)) 0 n :=
    reflTransGen_of_succ_of_le _ (fun i hi => hR i hi.2) (Nat.zero_le n)
  exact hcount.lift (t.advances now) fun _ _ hr => hr

end Chronicle

end ChatInference
