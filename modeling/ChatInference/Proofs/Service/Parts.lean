import ChatInference.Proofs.Engine.Sequences
import ChatInference.Proofs.Service.World
import ChatInference.Proofs.Session.Numbering
import ChatInference.Proofs.Session.Overlap
import Mathlib.Data.Nat.SuccPred
import Mathlib.Order.SuccPred.Relation

/-!
Turns in their parts. A turn that holds the model puts its prompt into the history, makes room in the cache,
generates, and records its end; sessions are opened, closed and evicted between any two of these, and a
load puts its model in place once no turn holds the one before.
-/

namespace ChatInference

/-- How far a turn has come that holds the model. -/
inductive TurnPart where
  /-- The prompt is in the history. -/
  | begun (id : SessionId) (history : List Message) (config : ModelConfig)
  /-- The cache has been made ready. -/
  | prepared (turn : Turn)
  | generated (turn : Turn) (result : Except EngineError Generation)
  /-- What is left is to record the end. -/
  | measured (turn : Turn) (reply : Option String) (nPast : Nat)

namespace TurnPart

def session : TurnPart → SessionId
  | .begun id _ _ => id
  | .prepared turn | .generated turn _ | .measured turn _ _ => turn.session

/-- The reply is asked for in the sequence of the session. -/
def Faithful : TurnPart → Prop
  | .prepared turn => turn.request.seq = turn.session
  | .begun _ _ _ | .generated _ _ | .measured _ _ _ => True

end TurnPart

namespace SessionTable

/-- A failed turn leaves the position as it was. -/
theorem nPast_finish (s : Session) (now : Nat) (reply : Option String) (nPast : Nat) :
    (s.finish now reply nPast).nPast = if reply.isSome then nPast else s.nPast := by
  cases reply <;> rfl

end SessionTable

namespace Service

variable {σ : Type}

theorem get?_record (s : Service σ) (now : Nat) (id : SessionId) (reply : Option String) (nPast : Nat)
    (k : SessionId) :
    (s.record now id reply nPast).sessions.sessions.get? k =
      if k = id then (s.sessions.sessions.get? id).map (·.finish now reply nPast)
      else s.sessions.sessions.get? k := by
  have horKeep := s.sessions.get?_orKeep_update id (·.finish now reply nPast) k
  unfold record SessionTable.finishTurn
  generalize s.sessions.update id _ = r at horKeep ⊢
  cases r with
  | ok sessions => exact horKeep
  | error e => exact horKeep

theorem model_record (s : Service σ) (now : Nat) (id : SessionId) (reply : Option String) (nPast : Nat) :
    (s.record now id reply nPast).model = s.model := by
  unfold record
  split <;> rfl

theorem contains_record (s : Service σ) (now : Nat) (id : SessionId) (reply : Option String)
    (nPast : Nat) (k : SessionId) :
    (s.record now id reply nPast).sessions.contains k = s.sessions.contains k := by
  have hget := congrArg Option.isSome (s.get?_record now id reply nPast k)
  by_cases hk : k = id
  · subst hk
    rw [if_pos rfl, Option.isSome_map] at hget
    exact hget
  · rw [if_neg hk] at hget
    exact hget

/-- Nothing happens to sessions, the cache or the model. -/
structure Elsewhere (s s' : Service σ) : Prop where
  config : s'.config = s.config
  sessions : s'.sessions = s.sessions
  memory : s'.memory = s.memory
  model : s'.model = s.model

/-- Puts the prompt of a turn into the history, where there is a model and the session is open. -/
def beginPart (s : Service σ) (now : Nat) (id : SessionId) (prompt : String) (o : Overrides) :
    Except Error TurnPart × Service σ :=
  match s.model.state.usable with
  | .error e => (.error e, s)
  | .ok model =>
    match s.sessions.beginTurn id now prompt with
    | .error e => (.error e, s)
    | .ok (session, sessions) =>
      (.ok (.begun id session.history (o.apply model.config)), { s with sessions })

/-- What the beginning of a turn changes. -/
structure Begins (s : Service σ) (id : SessionId) (p : TurnPart) (s' : Service σ) : Prop where
  session : p.session = id
  faithful : p.Faithful
  config : s'.config = s.config
  model : s'.model = s.model
  sameIds : s.sessions.SameIds s'.sessions
  nPast : ∀ k, (s'.sessions.sessions.get? k).map (·.nPast) = (s.sessions.sessions.get? k).map (·.nPast)

theorem Begins.contains {s s' : Service σ} {id : SessionId} {p : TurnPart} (h : s.Begins id p s')
    (k : SessionId) : s'.sessions.contains k = s.sessions.contains k := by
  have hsome := congrArg Option.isSome (h.nPast k)
  rwa [Option.isSome_map, Option.isSome_map] at hsome

theorem begins {s s' : Service σ} {now : Nat} {id : SessionId} {prompt : String} {o : Overrides}
    {p : TurnPart} (h : s.beginPart now id prompt o = (.ok p, s')) : s.Begins id p s' := by
  unfold beginPart at h
  split at h
  case h_1 => cases h
  case h_2 =>
    split at h
    case h_1 => cases h
    case h_2 session sessions hb =>
      cases h
      refine ⟨rfl, trivial, rfl, rfl, SessionTable.sameIds_beginTurn hb, fun k => ?_⟩
      -- the prompt goes into the history, and the position stays
      rw [SessionTable.get?_update (SessionTable.update_of_beginTurn hb)]
      split
      case isTrue hk =>
        rw [hk, Option.map_map]
        rfl
      case isFalse => rfl

variable [InferenceEngine σ]

/-- The next part of a turn, if there is one. -/
def nextPart (s : Service σ) (now : Nat) : TurnPart → Option TurnPart × Service σ
  | .begun id history c =>
    let incoming := InferenceEngine.pendingTokens s.model.engine id history
    let (memory, engine) :=
      s.memory.prepareTurn s.model.engine id incoming c.model.predict s.usage
    (some (.prepared ⟨id, request id history c, KvCache.nPast engine id⟩),
      { s with memory, model := { s.model with engine } })
  | .prepared turn =>
    let (r, engine) := InferenceEngine.generate s.model.engine turn.request
    (some (.generated turn r), { s with model := { s.model with engine } })
  | .generated turn (.ok g) =>
    (some (.measured turn (some g.text) (KvCache.nPast s.model.engine turn.session)), s)
  | .generated turn (.error _) => (some (.measured turn none turn.nPast), s)
  | .measured turn reply nPast => (none, s.record now turn.session reply nPast)

/-- A turn starts with its first two parts. -/
theorem startTurn_parts (s : Service σ) (now : Nat) (id : SessionId) (prompt : String)
    (o : Overrides) :
    (∃ e, s.beginPart now id prompt o = (.error e, s) ∧
        s.startTurn now id prompt o = (.error e, s)) ∨
      ∃ p s₁ turn s₂, s.beginPart now id prompt o = (.ok p, s₁) ∧
        s₁.nextPart now p = (some (.prepared turn), s₂) ∧
        s.startTurn now id prompt o = (.ok turn, s₂) := by
  unfold beginPart startTurn
  cases s.model.state.usable with
  | error e => exact .inl ⟨e, rfl, rfl⟩
  | ok model =>
    dsimp only
    cases s.sessions.beginTurn id now prompt with
    | error e => exact .inl ⟨e, rfl, rfl⟩
    | ok r => exact .inr ⟨_, _, _, _, rfl, rfl, rfl⟩

/-- A turn ends with the other three. -/
theorem endTurn_parts (s : Service σ) (now : Nat) (turn : Turn) :
    ∃ r s₁ reply nPast, s.nextPart now (.prepared turn) = (some (.generated turn r), s₁) ∧
      s₁.nextPart now (.generated turn r) = (some (.measured turn reply nPast), s₁) ∧
      s₁.nextPart now (.measured turn reply nPast) = (none, (s.endTurn now turn).2) := by
  let out := InferenceEngine.generate s.model.engine turn.request
  let s₁ : Service σ := { s with model := { s.model with engine := out.2 } }
  have hgenerated : s.nextPart now (.prepared turn) = (some (.generated turn out.1), s₁) := rfl
  cases hr : out.1 with
  | ok g =>
    have hend : s.endTurn now turn = (.ok g.text,
        s₁.record now turn.session (some g.text) (KvCache.nPast out.2 turn.session)) := by
      simp only [endTurn, out, s₁, hr]
    rw [hr] at hgenerated
    rw [hend]
    exact ⟨.ok g, s₁, _, _, hgenerated, rfl, rfl⟩
  | error e =>
    have hend : s.endTurn now turn =
        (.error (.ofEngine e), s₁.record now turn.session none turn.nPast) := by
      simp only [endTurn, out, s₁, hr]
    rw [hr] at hgenerated
    rw [hend]
    exact ⟨.error e, s₁, _, _, hgenerated, rfl, rfl⟩

/-- Whether memory is short when a turn makes room in the cache. -/
def relieves (s : Service σ) : TurnPart → Bool
  | .begun _ _ _ => (s.memory.refresh s.usage).underPressure
  | .prepared _ | .generated _ _ | .measured _ _ _ => false

/-- What a turn changes between its beginning and its end. -/
structure GoesOn [LedgerBacked σ] (s : Service σ) (p p' : TurnPart) (s' : Service σ) : Prop where
  session : p'.session = p.session
  faithful : p'.Faithful
  config : s'.config = s.config
  sessions : s'.sessions = s.sessions
  empty : ∀ q, q ≠ p.session → cellsOf s.model.engine q = [] → cellsOf s'.model.engine q = []
  others : s.relieves p = false → ∀ q, q ≠ p.session →
    cellsOf s'.model.engine q = cellsOf s.model.engine q

theorem goesOn [LedgerBacked σ] [CellContract σ] {s s' : Service σ} {now : Nat} {p p' : TurnPart}
    (hp : p.Faithful) (h : s.nextPart now p = (some p', s')) : s.GoesOn p p' s' := by
  cases p with
  | begun id history c =>
    cases h
    refine ⟨rfl, rfl, rfl, rfl, fun q _ he => cellsOf_prepareTurn_empty _ _ _ _ _ _ he, ?_⟩
    exact fun hm q hq => cellsOf_prepareTurn_others _ _ _ _ hq hm
  | prepared turn =>
    cases h
    -- the request is for the sequence of the session, and a turn adds to no other
    have hothers (q : SeqId) (hq : q ≠ turn.session) :
        cellsOf (InferenceEngine.generate s.model.engine turn.request).2 q =
          cellsOf s.model.engine q := CellContract.generate_others (hp ▸ hq)
    exact ⟨rfl, trivial, rfl, rfl, fun q hq he => (hothers q hq).trans he, fun _ => hothers⟩
  | generated turn r =>
    cases r with
    | ok g =>
      cases h
      exact ⟨rfl, trivial, rfl, rfl, fun _ _ => id, fun _ _ _ => rfl⟩
    | error e =>
      cases h
      exact ⟨rfl, trivial, rfl, rfl, fun _ _ => id, fun _ _ _ => rfl⟩
  | measured turn reply nPast => cases h

theorem nextPart_none {s s' : Service σ} {now : Nat} {p : TurnPart} (h : s.nextPart now p = (none, s')) :
    ∃ turn reply nPast, p = .measured turn reply nPast ∧
      s' = s.record now turn.session reply nPast := by
  cases p with
  | begun id history c => cases h
  | prepared turn => cases h
  | generated turn r => cases r <;> cases h
  | measured turn reply nPast =>
    cases h
    exact ⟨turn, reply, nPast, rfl, rfl⟩

end Service

/-- The sessions that are out of the table, and whose cells the call that holds the lock will delete. -/
def Held.retiring : Held → List SessionId
  | .owe ids _ | .retire ids _ => ids
  | .free | .sweep | .atGate | .insert | .giveBack _ | .close _ | .last | .replaced | .cancel _
  | .cleared => []

namespace World

variable {σ : Type}

/-- Who leaves the table is retired, and nothing happens to those who stay. -/
structure Thins (w w' : World σ) : Prop where
  config : w'.service.config = w.service.config
  engine : w'.service.model.engine = w.service.model.engine
  kept : ∀ k s, w'.service.sessions.sessions.get? k = some s →
    w.service.sessions.sessions.get? k = some s
  left : ∀ k, w.service.sessions.contains k = true →
    w'.service.sessions.contains k = true ∨ k ∈ w'.held.retiring
  retiring : w.held.retiring ⊆ w'.held.retiring
  sound : w'.service.sessions.Sound
  size : w'.service.sessions.size ≤ w.service.sessions.size

variable {w w' : World σ}

/-- Neither the table nor what is being retired changes. -/
theorem thins_of_same {held : Held} (hsound : w.service.sessions.Sound) (hh : w.held = held)
    (hr : w'.held.retiring = held.retiring) (hs : w'.service.sessions = w.service.sessions)
    (hc : w'.service.config = w.service.config)
    (he : w'.service.model.engine = w.service.model.engine) : w.Thins w' := by
  refine ⟨hc, he, fun k s h => ?_, fun k h => .inl ?_, fun k hk => ?_, ?_, ?_⟩
  · rwa [← hs]
  · rwa [hs]
  · rwa [hr, ← hh]
  · rwa [hs]
  · exact Nat.le_of_eq (congrArg (·.size) hs)

/-- Sessions are taken out of the table and retired. -/
theorem thins_of_removed {ids : List SessionId} (hids : w.held.retiring = [])
    (hr : w'.held.retiring = ids) (hc : w'.service.config = w.service.config)
    (he : w'.service.model.engine = w.service.model.engine) (hsound : w'.service.sessions.Sound)
    (hsize : w'.service.sessions.size ≤ w.service.sessions.size)
    (hget : ∀ k, w'.service.sessions.sessions.get? k =
      if k ∈ ids then none else w.service.sessions.sessions.get? k) : w.Thins w' := by
  refine ⟨hc, he, fun k s h => ?_, fun k h => ?_, ?_, hsound, hsize⟩
  · have hk := hget k
    rw [h] at hk
    split at hk
    · cases hk
    · exact hk.symm
  · by_cases hk : k ∈ ids
    · exact .inr (hr ▸ hk)
    · obtain ⟨s, hs⟩ := SessionTable.contains_iff.1 h
      refine .inl (SessionTable.contains_iff.2 ⟨s, ?_⟩)
      exact (hget k).trans ((if_neg hk).trans hs)
  · rw [hids]
    exact List.nil_subset _

variable [InferenceEngine σ]

/-- What a step of the call that holds the lock may come to. -/
inductive Advanced (w : World σ) (now : Nat) : World σ → Prop
  | thinned {w' : World σ} (h : w.Thins w') : Advanced w now w'
  | removed {id : SessionId} {ids : List SessionId} {next : AfterRetire}
      (h : w.held = .retire (id :: ids) next) :
      Advanced w now { w with service := w.service.retireOne id, held := .retire ids next }
  /-- The last session is closed. -/
  | emptied (h : w.held = .last) (hempty : w.service.sessions.sessions.isEmpty = true) :
      Advanced w now { w with service := w.service.clearCache none, held := .free }
  | inserted {c : Created} {sessions : SessionTable} (h : w.held = .insert)
      (hc : w.service.sessions.create w.service.sessionPolicy now none = (.ok c, sessions)) :
      Advanced w now
        { w with service := { w.service with sessions }, held := .owe c.evicted (.answer c.id) }
  /-- The sessions of the model before are dropped. -/
  | dropped (h : w.held = .cancel []) :
      Advanced w now
        { w with service := { w.service with sessions := w.service.sessions.clear }, held := .cleared }

/-- A step of a load changes the model alone. -/
theorem loadStep_cases (w : World σ) (path : String) (text : Option String) :
    let w' := w.loadStep path text
    w'.service.config = w.service.config ∧ w'.service.sessions = w.service.sessions ∧
      w'.held = w.held ∧
      (w'.service.model.engine = w.service.model.engine ∨
        w.load = .begun ∧
          w'.service.model.engine = (w.service.model.replace path text).2.engine) := by
  unfold loadStep
  cases w.load with
  | none =>
    dsimp only
    split
    case h_1 model hb =>
      refine ⟨rfl, rfl, rfl, .inl ?_⟩
      unfold Switch.begin at hb
      split at hb
      · cases hb
      · cases hb
        rfl
    case h_2 => exact ⟨rfl, rfl, rfl, .inl rfl⟩
  | begun =>
    dsimp only
    split
    case h_1 hr => exact ⟨rfl, rfl, rfl, .inr ⟨rfl, by rw [hr]⟩⟩
    case h_2 hr => exact ⟨rfl, rfl, rfl, .inr ⟨rfl, by rw [hr]⟩⟩
  | replaced => exact ⟨rfl, rfl, rfl, .inl rfl⟩
  | ended => exact ⟨rfl, rfl, rfl, .inl rfl⟩

theorem advanced (hsound : w.service.sessions.Sound)
    (hmax : w.service.sessions.size ≤ w.service.sessionPolicy.maxSessions) (now : Nat) :
    w.Advanced now (w.advance now) := by
  -- by the place the call has come to
  unfold advance
  cases hh : w.held with
  | free => exact .thinned (thins_of_same hsound hh (by rw [hh]) rfl rfl rfl)
  | sweep =>
    -- the idle leave the table, and are retired next
    have hevicted := SessionTable.evicted_evictIdle hsound w.service.sessionPolicy now
    have hsize := hevicted.size
    refine .thinned (thins_of_removed (by rw [hh]; rfl) rfl rfl rfl hevicted.sound
      (Nat.le.intro hsize) fun k => ?_)
    have hget := SessionTable.get?_removeAll w.service.sessions
      (w.service.sessions.evictIdle w.service.sessionPolicy now).1 k
    rwa [← SessionTable.evictIdle_table] at hget
  | owe ids next => exact .thinned (thins_of_same hsound hh rfl rfl rfl rfl)
  | retire ids next =>
    cases ids with
    | nil => cases next <;> exact .thinned (thins_of_same hsound hh rfl rfl rfl rfl)
    | cons id ids => exact .removed hh
  | atGate =>
    dsimp only
    split <;> exact .thinned (thins_of_same hsound hh rfl rfl rfl rfl)
  | insert =>
    dsimp only
    split
    case h_1 c sessions hc => exact .inserted hh hc
    case h_2 e sessions hc =>
      -- a creation that fails has evicted nobody
      obtain ⟨rfl, -⟩ := SessionTable.create_error hsound hmax hc
      exact .thinned (thins_of_same hsound hh rfl rfl rfl rfl)
  | giveBack e => exact .thinned (thins_of_same hsound hh rfl rfl rfl rfl)
  | close id =>
    dsimp only
    split
    case h_1 => exact .thinned (thins_of_same hsound hh rfl rfl rfl rfl)
    case h_2 s sessions hc =>
      -- the session leaves the table, and is retired next
      obtain ⟨hsize, hclosed⟩ := SessionTable.close_ok hsound hc
      refine .thinned (thins_of_removed (by rw [hh]; rfl) rfl rfl rfl hclosed
        (Nat.le.intro hsize) fun k => ?_)
      rw [SessionTable.get?_close hc]
      simp only [Held.retiring, List.mem_singleton]
  | last =>
    dsimp only
    split
    case isTrue hempty => exact .emptied hh hempty
    case isFalse => exact .thinned (thins_of_same hsound hh rfl rfl rfl rfl)
  | replaced => exact .thinned (thins_of_same hsound hh rfl rfl rfl rfl)
  | cancel ids =>
    cases ids with
    | nil => exact .dropped hh
    | cons id ids => exact .thinned (thins_of_same hsound hh rfl rfl rfl rfl)
  | cleared => exact .thinned (thins_of_same hsound hh rfl rfl rfl rfl)

end World

/-- A service with its turns in parts. The calls for sessions and the load are those of the world, whose own
turns stand still. -/
structure Traffic (σ : Type) where
  world : World σ
  parts : List TurnPart := []

namespace Traffic

variable {σ : Type}

def opened (config : ServiceConfig) (e : σ) : Traffic σ := { world := .opened config e }

def service (t : Traffic σ) : Service σ := t.world.service

def engine (t : Traffic σ) : σ := t.world.service.model.engine

def sessions (t : Traffic σ) : SessionTable := t.world.service.sessions

/-- Whether a turn of a session holds the model. -/
def Busy (t : Traffic σ) (q : SessionId) : Prop := ∃ p ∈ t.parts, p.session = q

def begin (t : Traffic σ) (now : Nat) (id : SessionId) (prompt : String) (o : Overrides) :
    Traffic σ :=
  match t.service.beginPart now id prompt o with
  | (.ok p, service) => ⟨{ t.world with service }, t.parts ++ [p]⟩
  | (.error _, _) => t

section

variable {t : Traffic σ} {i : Nat} {p p' : TurnPart} {q : SessionId} (w : World σ)

theorem busy_set (hi : t.parts[i]? = some p) (hp : p'.session = p.session) :
    Busy ⟨w, t.parts.set i p'⟩ q ↔ t.Busy q := by
  obtain ⟨hlt, -⟩ := List.getElem?_eq_some_iff.1 hi
  constructor
  · rintro ⟨u, hu, hq⟩
    rcases List.mem_or_eq_of_mem_set hu with hold | rfl
    · exact ⟨u, hold, hq⟩
    · exact ⟨p, List.mem_of_getElem? hi, hp.symm.trans hq⟩
  · rintro ⟨u, hu, hq⟩
    obtain ⟨j, hj⟩ := List.mem_iff_getElem?.1 hu
    by_cases hij : i = j
    · -- the part that goes on is still one of the session
      rw [← hij, hi] at hj
      cases hj
      exact ⟨p', List.mem_set hlt p', hp.trans hq⟩
    · refine ⟨u, List.mem_of_getElem? (i := j) ?_, hq⟩
      rwa [List.getElem?_set_ne hij]

theorem busy_of_eraseIdx (h : Busy ⟨w, t.parts.eraseIdx i⟩ q) : t.Busy q := by
  obtain ⟨u, hu, hq⟩ := h
  exact ⟨u, List.mem_of_mem_eraseIdx hu, hq⟩

theorem busy_eraseIdx (hi : t.parts[i]? = some p) (hp : p.session ≠ q) :
    Busy ⟨w, t.parts.eraseIdx i⟩ q ↔ t.Busy q := by
  refine ⟨busy_of_eraseIdx w, ?_⟩
  rintro ⟨u, hu, hq⟩
  obtain ⟨hlt, rfl⟩ := List.getElem?_eq_some_iff.1 hi
  rcases List.mem_cons.1 ((List.getElem_cons_eraseIdx_perm hlt).mem_iff.2 hu) with rfl | hrest
  · exact absurd hq hp
  · exact ⟨u, hrest, hq⟩

end

/-- What holds of the table and the turns after every step. -/
structure Orderly (l : Limits) (t : Traffic σ) : Prop where
  limits : t.service.config.limits = l
  sound : t.sessions.Sound
  table : t.sessions.size ≤ l.maxSessions
  faithful : ∀ p ∈ t.parts, p.Faithful

variable {l : Limits} {t t' : Traffic σ}

theorem orderly_opened (config : ServiceConfig) (e : σ) : Orderly config.limits (opened config e) :=
  ⟨rfl, SessionTable.sound_empty, Nat.zero_le _, List.forall_mem_nil _⟩

theorem orderly_thins (h : Orderly l t) {w : World σ} (hw : t.world.Thins w) :
    Orderly l { t with world := w } :=
  ⟨(congrArg (·.limits) hw.config).trans h.limits, hw.sound, Nat.le_trans hw.size h.table, h.faithful⟩

theorem orderly_sameIds (h : Orderly l t) {w : World σ} {parts : List TurnPart}
    (hc : w.service.config = t.service.config) (hs : t.sessions.SameIds w.service.sessions)
    (hp : ∀ p ∈ parts, p.Faithful) : Orderly l ⟨w, parts⟩ :=
  ⟨(congrArg (·.limits) hc).trans h.limits, hs.sound h.sound, hs.size ▸ h.table, hp⟩

theorem orderly_begin (h : Orderly l t) (now : Nat) (id : SessionId) (prompt : String) (o : Overrides) :
    Orderly l (t.begin now id prompt o) := by
  unfold begin
  split
  case h_1 p service hb =>
    have hbegins := Service.begins hb
    refine orderly_sameIds h hbegins.config hbegins.sameIds fun p' hp' => ?_
    rcases List.mem_append.1 hp' with hold | hnew
    · exact h.faithful p' hold
    · rw [List.mem_singleton.1 hnew]
      exact hbegins.faithful
  case h_2 => exact h

variable [InferenceEngine σ]

/-- A turn goes on by one part, and gives the model back after the last. -/
def next (t : Traffic σ) (i now : Nat) : Traffic σ :=
  match t.parts[i]? with
  | none => t
  | some p =>
    match t.service.nextPart now p with
    | (some p', service) => ⟨{ t.world with service }, t.parts.set i p'⟩
    | (none, service) => ⟨{ t.world with service }, t.parts.eraseIdx i⟩

theorem next_goes {t : Traffic σ} {i now : Nat} {p p' : TurnPart} {service : Service σ}
    (hi : t.parts[i]? = some p) (h : t.service.nextPart now p = (some p', service)) :
    t.next i now = ⟨{ t.world with service }, t.parts.set i p'⟩ := by
  unfold next
  rw [hi]
  dsimp only
  rw [h]

theorem next_ends {t : Traffic σ} {i now nPast : Nat} {turn : Turn} {reply : Option String}
    (hi : t.parts[i]? = some (.measured turn reply nPast)) :
    t.next i now = ⟨{ t.world with service := t.service.record now turn.session reply nPast },
      t.parts.eraseIdx i⟩ := by
  unfold next
  rw [hi]
  rfl

/-- A turn that is there goes on, or ends. -/
theorem next_cases (t : Traffic σ) (i now : Nat) :
    t.next i now = t ∨
      (∃ p p' service, t.parts[i]? = some p ∧ t.service.nextPart now p = (some p', service)) ∨
      ∃ turn reply nPast, t.parts[i]? = some (.measured turn reply nPast) := by
  cases hi : t.parts[i]? with
  | none =>
    left
    unfold next
    rw [hi]
  | some p =>
    right
    cases hn : t.service.nextPart now p with
    | mk p' service =>
      cases p' with
      | some p' => exact .inl ⟨p, p', service, rfl, hn⟩
      | none =>
        obtain ⟨turn, reply, nPast, rfl, -⟩ := Service.nextPart_none hn
        exact .inr ⟨turn, reply, nPast, rfl⟩

def advance (t : Traffic σ) (now : Nat) : Traffic σ := { t with world := t.world.advance now }

theorem advance_retire {t : Traffic σ} {q : SessionId} {ids : List SessionId} {next : AfterRetire}
    (h : t.world.held = .retire (q :: ids) next) (now : Nat) :
    t.advance now =
      { t with world := { t.world with service := t.service.retireOne q, held := .retire ids next } } := by
  unfold advance World.advance
  rw [h]
  rfl

theorem advance_drop {t : Traffic σ} (h : t.world.held = .cancel []) (now : Nat) :
    t.advance now =
      { t with
        world := { t.world with service := { t.service with sessions := {} }, held := .cleared } } := by
  unfold advance World.advance
  rw [h]
  rfl

theorem advance_insert {t : Traffic σ} {now : Nat} {c : Created} {sessions : SessionTable}
    (h : t.world.held = .insert)
    (hc : t.sessions.create t.service.sessionPolicy now none = (.ok c, sessions)) :
    t.advance now =
      { t with
        world := { t.world with
          service := { t.service with sessions }
          held := .owe c.evicted (.answer c.id) } } := by
  unfold advance World.advance
  rw [h]
  dsimp only
  unfold Traffic.sessions service at hc
  rw [hc]
  rfl

/-- One step of any call. A load waits for the turns that hold the model. -/
inductive Step : Traffic σ → Traffic σ → Prop
  | begin {t : Traffic σ} (now : Nat) (id : SessionId) (prompt : String) (o : Overrides) :
      Step t (t.begin now id prompt o)
  | next {t : Traffic σ} (i now : Nat) : Step t (t.next i now)
  | create {t : Traffic σ} (h : t.world.held = .free) :
      Step t { t with world := { t.world with held := .sweep } }
  | close {t : Traffic σ} (id : SessionId) (h : t.world.held = .free) :
      Step t { t with world := { t.world with held := .close id } }
  | replaced {t : Traffic σ} (h : t.world.held = .free) (hl : t.world.load = .replaced) :
      Step t { t with world := { t.world with held := .replaced } }
  | load {t : Traffic σ} (path : String) (text : Option String)
      (h : t.world.load = .begun → t.parts = []) :
      Step t { t with world := t.world.loadStep path text }
  | advance {t : Traffic σ} (now : Nat)
      (h : t.world.held = .insert →
        t.sessions.SearchEnds t.service.sessionPolicy now) : Step t (t.advance now)
  | elsewhere {t : Traffic σ} {service : Service σ} (h : t.service.Elsewhere service) :
      Step t { t with world := { t.world with service } }

/-- Steps of all calls in any number and order. -/
abbrev Run : Traffic σ → Traffic σ → Prop := Relation.ReflTransGen Step

/-- The call that holds the lock takes several steps in a row. -/
def advances (t : Traffic σ) (now : Nat) : Nat → Traffic σ
  | 0 => t
  | n + 1 => (t.advances now n).advance now

/-- The steps that a call takes in a row, where each of them is known to be more than a step. -/
theorem reach_advances {R : Traffic σ → Traffic σ → Prop} (t : Traffic σ) (now n : Nat)
    (id : SessionId) (hid : SessionTable.InRange id)
    (hfree : ∀ i < n, ((t.advances now i).sessions.searched (t.advances now i).service.sessionPolicy
      now).contains id = false)
    (hR : ∀ i < n, Step (t.advances now i) (t.advances now (i + 1)) →
      R (t.advances now i) (t.advances now (i + 1))) :
    Relation.ReflTransGen R t (t.advances now n) := by
  have hstep (i : Nat) (hi : i < n) : Step (t.advances now i) (t.advances now (i + 1)) :=
    .advance now fun _ => .inr ⟨id, hid, hfree i hi⟩
  have hcount : Relation.ReflTransGen (fun i j => R (t.advances now i) (t.advances now j)) 0 n :=
    reflTransGen_of_succ_of_le _ (fun i hi => hR i hi.2 (hstep i hi.2)) (Nat.zero_le n)
  exact hcount.lift (t.advances now) fun _ _ hr => hr

/-- The part of a load that needs the model. -/
def loaded (t : Traffic σ) (path : String) : Traffic σ :=
  { t with world := (t.world.loadStep path none).loadStep path none }

/-- A session is opened, and none has to go for it. -/
def withSession (t : Traffic σ) (now : Nat) : Traffic σ :=
  advances { t with world := { t.world with held := .sweep } } now 7

theorem Orderly.advanced (h : Orderly l t) (now : Nat) :
    ∃ w, t.world.Advanced now w ∧ t.advance now = { t with world := w } := by
  have htable : t.sessions.size ≤ t.service.sessionPolicy.maxSessions := by
    unfold Service.sessionPolicy
    exact h.limits ▸ h.table
  exact ⟨_, World.advanced h.sound htable now, rfl⟩

theorem orderly_next [LedgerBacked σ] [CellContract σ] (h : Orderly l t) (i now : Nat) :
    Orderly l (t.next i now) := by
  rcases t.next_cases i now with hsame | ⟨p, p', service, hi, hn⟩ | ⟨turn, reply, nPast, hi⟩
  · rwa [hsame]
  · have hgoes := Service.goesOn (h.faithful p (List.mem_of_getElem? hi)) hn
    rw [next_goes hi hn]
    refine orderly_sameIds h hgoes.config (hgoes.sessions ▸ SessionTable.sameIds_refl _) fun u hu => ?_
    rcases List.mem_or_eq_of_mem_set hu with hold | rfl
    · exact h.faithful u hold
    · exact hgoes.faithful
  · have hquiet := t.service.quiet_record now turn.session reply nPast
    rw [next_ends hi]
    exact orderly_sameIds h hquiet.config hquiet.sessions fun u hu =>
      h.faithful u (List.mem_of_mem_eraseIdx hu)

theorem orderly_advance (h : Orderly l t) (now : Nat)
    (hs : t.world.held = .insert → t.sessions.SearchEnds t.service.sessionPolicy now) :
    Orderly l (t.advance now) := by
  obtain ⟨w, hadv, heq⟩ := h.advanced now
  rw [heq]
  cases hadv with
  | thinned hw => exact orderly_thins h hw
  | removed => exact ⟨h.limits, h.sound, h.table, h.faithful⟩
  | emptied => exact ⟨h.limits, h.sound, h.table, h.faithful⟩
  | inserted hh hc =>
    obtain ⟨-, hle, hsound⟩ := SessionTable.create_ok h.sound (hs hh) hc
    exact ⟨h.limits, hsound, h.limits ▸ hle, h.faithful⟩
  | dropped => exact ⟨h.limits, SessionTable.sound_empty, Nat.zero_le _, h.faithful⟩

theorem orderly_step [LedgerBacked σ] [CellContract σ] (hs : Step t t') (h : Orderly l t) :
    Orderly l t' := by
  cases hs with
  | begin now id prompt o => exact orderly_begin h now id prompt o
  | next i now => exact orderly_next h i now
  | create => exact orderly_sameIds h rfl (SessionTable.sameIds_refl _) h.faithful
  | close => exact orderly_sameIds h rfl (SessionTable.sameIds_refl _) h.faithful
  | replaced => exact orderly_sameIds h rfl (SessionTable.sameIds_refl _) h.faithful
  | load path text =>
    obtain ⟨hc, hs, -, -⟩ := t.world.loadStep_cases path text
    exact orderly_sameIds h hc (hs ▸ SessionTable.sameIds_refl _) h.faithful
  | advance now hends => exact orderly_advance h now hends
  | elsewhere he =>
    exact orderly_sameIds h he.config (he.sessions ▸ SessionTable.sameIds_refl _) h.faithful

end Traffic

end ChatInference
