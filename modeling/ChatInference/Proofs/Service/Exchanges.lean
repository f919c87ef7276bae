import ChatInference.Proofs.Service.Chronicle

/-!
What the history of a session tells of its turns: the prompts and the replies of those that were
answered, in order, and the prompt of the one that is under way; and what a turn generates from is the
same. Nothing takes this away but a turn that ends in a session which has been given the id of its own.
-/

namespace ChatInference.Chronicle

variable {σ : Type}

/-- A turn of that id works on the exchanges of its session and its prompt. -/
def Asks (log : List Exchange) (q : SessionId) (a : Pending) (p : TurnPart) : Prop :=
  a.asked.id = q →
    p.messages = transcript (exchangesOf log q a.asked.creation) ++ [⟨.user, a.prompt⟩]

/-- What an open session says of itself, and the turns that began in it of their messages. -/
structure Tells (t : Chronicle σ) (q : SessionId) : Prop where
  rests : ∀ s, t.sessions.sessions.get? q = some s → ¬t.Engaged q → s.Stands (t.exchanges q) none
  runs : ∀ s a, t.sessions.sessions.get? q = some s → a ∈ t.pending → t.Concerns q a →
    s.Stands (t.exchanges q) (some a.prompt)
  asks : List.Forall₂ (Asks t.log q) t.pending t.traffic.parts

section

variable {t : Chronicle σ} {q : SessionId}

theorem tells_opened (config : ServiceConfig) (e : σ) (q : SessionId) : Tells (opened config e) q := by
  refine ⟨fun s hs => ?_, fun s a hs => ?_, .nil⟩ <;> cases hs

/-- Where neither the notes nor the turns change, and no session but that it goes. -/
theorem tells_of_same (h : t.Tells q) {w : World σ} {y : Tally}
    (hget : ∀ s, w.service.sessions.sessions.get? q = some s → t.sessions.sessions.get? q = some s) :
    Tells { t with traffic := { t.traffic with world := w }, tally := y } q :=
  ⟨fun s hs => h.rests s (hget s hs), fun s a hs => h.runs s a (hget s hs), h.asks⟩

/-- The messages of the turns that are left tell what they told before. -/
theorem asks_ended (h : Kept t) (hq : t.Tells q) {i : Nat} {a : Pending} {reply : Option String}
    (ha : t.pending[i]? = some a) :
    List.Forall₂ (Asks (t.log ++ a.answered reply) q) (t.pending.eraseIdx i)
      (t.traffic.parts.eraseIdx i) := by
  have hleft := Tenancy.related_eraseIdx hq.asks i
  rw [List.forall₂_iff_zip] at hleft ⊢
  refine ⟨hleft.1, fun {b p} hmem hid => ?_⟩
  have hb : b ∈ t.pending.eraseIdx i := (List.of_mem_zip hmem).1
  have hother : ¬(a.asked.id = q ∧ a.asked.creation = b.asked.creation) :=
    fun ⟨hida, hc⟩ => h.alone ha hb ⟨hid.trans hida.symm, hc.symm⟩
  rw [exchangesOf_other hother]
  exact hleft.2 hmem hid

theorem tells_begin (h : t.Tells q) {now : Nat} {id : SessionId} {prompt : String} {o : Overrides}
    (hfree : t.sessions.contains id = true → ¬t.Engaged id) : (t.begin now id prompt o).Tells q := by
  unfold begin Traffic.begin
  rcases hb : t.traffic.service.beginPart now id prompt o with ⟨e | p, service⟩
  · exact h
  obtain ⟨u, hu, hsession, hmessages, -, hget⟩ := Service.beginPart_ok hb
  have hidle : ¬t.Engaged id := hfree (SessionTable.contains_iff.2 ⟨u, hu⟩)
  by_cases hq : q = id
  · -- the session had no turn under way, and has this one now
    subst hq
    have hstands := h.rests u hu hidle
    have hbegun := hget q
    rw [if_pos rfl] at hbegun
    refine ⟨fun s hs hno => ?_, fun s a hs ha hof => ?_, ?_⟩
    · exact absurd ⟨_, List.mem_append_right _ (List.mem_singleton_self _), rfl, rfl⟩ hno
    · obtain rfl := Option.some.inj (hbegun.symm.trans hs)
      rcases List.mem_append.1 ha with hold | hnew
      · exact absurd ⟨a, hold, hof⟩ hidle
      · rw [List.mem_singleton.1 hnew]
        exact hstands.begin now prompt
    · apply List.rel_append h.asks (.cons (fun _ => ?_) .nil)
      rw [hmessages, hstands.history]
      exact congrArg (· ++ _) (List.append_nil _)
  · have hsame := hget q
    rw [if_neg hq] at hsame
    -- the turn that begins is one of another session
    refine ⟨fun s hs hno => ?_, fun s a hs ha hof => ?_, ?_⟩
    · apply h.rests s (hsame.symm.trans hs)
      rintro ⟨a, ha, hof⟩
      exact hno ⟨a, List.mem_append_left _ ha, hof⟩
    · rcases List.mem_append.1 ha with hold | hnew
      · exact h.runs s a (hsame.symm.trans hs) hold hof
      · rw [List.mem_singleton.1 hnew] at hof
        exact absurd hof.1 (Ne.symm hq)
    · exact List.rel_append h.asks (.cons (fun heq => absurd heq (Ne.symm hq)) .nil)

end

variable [InferenceEngine σ]

/-- A turn ends in a session that has the id of its own by now, and leaves its mark there: its reply, or the
end of the turn that is under way there. -/
inductive Strays (q : SessionId) : Chronicle σ → Chronicle σ → Prop
  | finish {t : Chronicle σ} {i now nPast : Nat} {turn : Turn} {reply : Option String} {a : Pending}
      {s : Session} (hi : t.traffic.parts[i]? = some (.measured turn reply nPast))
      (ha : t.pending[i]? = some a) (hq : a.asked.id = q)
      (hs : t.sessions.sessions.get? q = some s) (hother : a.asked.creation ≠ t.latest q)
      (hmark : reply.isSome = true ∨ t.Engaged q) : Strays q t (t.next i now)

variable {t t' : Chronicle σ} {q : SessionId}

/-- A turn that goes on works on the same messages. -/
theorem tells_gone (h : Kept t) (hq : t.Tells q) {i now : Nat} {p p' : TurnPart} {service : Service σ}
    (hi : t.traffic.parts[i]? = some p) (hn : t.traffic.service.nextPart now p = (some p', service)) :
    (t.gone i p' service).Tells q := by
  obtain ⟨-, hmessages, hsessions⟩ := Service.nextPart_some hn
  have hget : (t.gone i p' service).sessions.sessions.get? q = t.sessions.sessions.get? q :=
    congrArg (·.sessions.get? q) hsessions
  obtain ⟨hlt, -⟩ := List.getElem?_eq_some_iff.1 hi
  rw [← h.aligned.length_eq] at hlt
  have hat := List.getElem?_eq_getElem hlt
  refine ⟨fun s hs => hq.rests s (hget.symm.trans hs), fun s a hs => hq.runs s a (hget.symm.trans hs),
    Tenancy.related_set hq.asks hat ?_⟩
  unfold Asks
  rw [hmessages]
  exact Tenancy.related_at hq.asks hat hi

/-- A turn that does not stray leaves every session with its own exchanges. -/
theorem tells_ended (h : Kept t) (hq : t.Tells q) {i now nPast : Nat} {turn : Turn}
    {reply : Option String} {a : Pending}
    (hi : t.traffic.parts[i]? = some (.measured turn reply nPast)) (ha : t.pending[i]? = some a)
    (hn : ¬Strays q t (t.next i now)) :
    (t.ended i a reply (t.traffic.service.record now turn.session reply nPast)).Tells q := by
  have hget := get?_ended h now hi ha q
  generalize t.traffic.service.record now turn.session reply nPast = service at hget ⊢
  by_cases hqa : a.asked.id = q
  · rw [if_pos hqa.symm] at hget
    by_cases hc : a.asked.creation = t.latest q
    · -- its own turn ends, and there is no other
      have hown : (t.ended i a reply service).exchanges q = t.exchanges q ++ a.answered reply := by
        change exchangesOf (t.log ++ a.answered reply) q (t.latest q) = _
        rw [exchangesOf_append, if_pos ⟨hqa, hc⟩]
        rfl
      refine ⟨fun s hs _ => ?_, fun s b _ hb hof => ?_, asks_ended h hq ha⟩
      · obtain ⟨u, hu, rfl⟩ := Option.map_eq_some_iff.1 (hget.symm.trans hs)
        rw [hown]
        exact (hq.runs u a hu (List.mem_of_getElem? ha) ⟨hqa, hc⟩).finish now reply nPast
      · exact absurd ⟨hof.1.trans hqa.symm, hof.2.trans hc.symm⟩ (h.alone ha hb)
    · -- a turn of an earlier session, which has nothing to say here
      have hother : (t.ended i a reply service).exchanges q = t.exchanges q :=
        exchangesOf_other fun hsame => hc hsame.2
      have hsilent (u : Session) (hu : t.sessions.sessions.get? q = some u) :
          reply = none ∧ ¬t.Engaged q := by
        refine ⟨?_, fun hengaged => hn (.finish hi ha hqa hu hc (.inr hengaged))⟩
        cases reply with
        | none => rfl
        | some text => exact absurd (.finish hi ha hqa hu hc (.inl rfl)) hn
      refine ⟨fun s hs _ => ?_, fun s b hs hb hof => ?_, asks_ended h hq ha⟩
      · obtain ⟨u, hu, rfl⟩ := Option.map_eq_some_iff.1 (hget.symm.trans hs)
        obtain ⟨rfl, hidle⟩ := hsilent u hu
        rw [hother]
        exact (hq.rests u hu hidle).finish_failed now nPast
      · obtain ⟨u, hu, -⟩ := Option.map_eq_some_iff.1 (hget.symm.trans hs)
        exact absurd ⟨b, List.mem_of_mem_eraseIdx hb, hof⟩ (hsilent u hu).2
  · rw [if_neg (Ne.symm hqa)] at hget
    have hother : (t.ended i a reply service).exchanges q = t.exchanges q :=
      exchangesOf_other fun hsame => hqa hsame.1
    refine ⟨fun s hs hno => ?_, fun s b hs hb hof => ?_, asks_ended h hq ha⟩
    · have hidle : ¬t.Engaged q := by
        rintro ⟨b, hb, hof⟩
        rcases (mem_pending_iff ha).1 hb with rfl | hleft
        · exact hqa hof.1
        · exact hno ⟨b, hleft, hof⟩
      rw [hother]
      exact hq.rests s (hget.symm.trans hs) hidle
    · rw [hother]
      exact hq.runs s b (hget.symm.trans hs) (List.mem_of_mem_eraseIdx hb) hof

/-- One that strays leaves the session it ends in with something else. -/
theorem not_tells_of_strays (h : Kept t) (hq : t.Tells q) (hs : Strays q t t') : ¬t'.Tells q := by
  cases hs with
  | @finish i now nPast turn reply a s hi ha hqa hs hother hmark =>
    have hget := get?_ended h now hi ha q
    rw [if_pos hqa.symm, hs] at hget
    have hsame : (t.next i now).exchanges q = t.exchanges q := by
      rw [next_ends hi ha]
      exact exchangesOf_other fun hown => hother hown.2
    intro htells
    by_cases hengaged : t.Engaged q
    · -- the turn that is under way there has lost its flag
      obtain ⟨b, hb, hof⟩ := hengaged
      have hleft : b ∈ t.pending.eraseIdx i := by
        rcases (mem_pending_iff ha).1 hb with rfl | hleft
        · exact absurd hof.2 hother
        · exact hleft
      rw [next_ends hi ha] at htells
      exact Session.Stands.not_finish_running (htells.runs _ b hget hleft hof)
    · have hidle : ¬(t.next i now).Engaged q := by
        rw [next_ends hi ha]
        rintro ⟨b, hb, hof⟩
        exact hengaged ⟨b, List.mem_of_mem_eraseIdx hb, hof⟩
      obtain ⟨text, rfl⟩ := Option.isSome_iff_exists.1 (hmark.resolve_right hengaged)
      have hafter := htells.rests _ (by rw [next_ends hi ha]; exact hget) hidle
      rw [hsame] at hafter
      exact (hq.rests s hs hengaged).not_finish_answered text hafter

/-- A new session has had no exchanges, and no turn that is under way began in it; of the others none
comes into the table. -/
theorem tells_created (h : Kept t) (hq : t.Tells q) {now : Nat} {c : Created} {table : SessionTable}
    (hi : t.traffic.world.held = .insert)
    (hc : t.sessions.create t.traffic.service.sessionPolicy now none = (.ok c, table)) :
    (t.advance now).Tells q := by
  let searched := t.sessions.searched t.traffic.service.sessionPolicy now
  obtain ⟨hsessions, -, hlatest, hpending, hlog, hparts⟩ := advance_insert hi hc
  obtain ⟨-, -, hcreated, htable⟩ := SessionTable.create_succeeds hc
  have hid : c.id = (searched.insert now none).1 := congrArg Created.id hcreated
  have hget := SessionTable.get?_insert searched now none q
  rw [← htable, ← hsessions, ← hid] at hget
  have hasks : List.Forall₂ (Asks (t.advance now).log q) (t.advance now).pending
      (t.advance now).traffic.parts := by
    rw [hpending, hlog, hparts]
    exact hq.asks
  by_cases hqc : q = c.id
  · have hnumber : (t.advance now).latest q = t.tally.created + 1 := by
      rw [hlatest, hqc, Function.update_self]
    have hnone : (t.advance now).exchanges q = [] := by
      apply List.filter_eq_nil_iff.2
      intro x hx
      rw [hlog] at hx
      have hle := h.logged x hx
      rw [hnumber, decide_eq_true_eq]
      rintro ⟨-, heq⟩
      omega
    rw [if_pos hqc] at hget
    refine ⟨fun s hs _ => ?_, fun s a _ ha hof => ?_, hasks⟩
    · obtain rfl := Option.some.inj (hget.symm.trans hs)
      rw [hnone]
      exact ⟨rfl, rfl, rfl⟩
    · rw [hpending] at ha
      have hle := (h.known a ha).creation
      have heq := hof.2
      rw [hnumber] at heq
      omega
  · rw [if_neg hqc] at hget
    have hnumber : (t.advance now).latest q = t.latest q := by
      rw [hlatest, Function.update_of_ne hqc]
    have hsame : (t.advance now).exchanges q = t.exchanges q := by
      unfold exchanges
      rw [hlog, hnumber]
    have hof (a : Pending) : (t.advance now).Concerns q a ↔ t.Concerns q a := by
      unfold Concerns
      rw [hnumber]
    refine ⟨fun s hs hno => ?_, fun s a hs ha ha' => ?_, hasks⟩
    · rw [hsame]
      apply hq.rests s (SessionTable.get?_of_searched (hget.symm.trans hs))
      rintro ⟨a, ha, ha'⟩
      exact hno ⟨a, hpending.symm ▸ ha, (hof a).2 ha'⟩
    · rw [hsame]
      rw [hpending] at ha
      exact hq.runs s a (SessionTable.get?_of_searched (hget.symm.trans hs)) ha ((hof a).1 ha')

theorem tells_advance (h : Kept t) (hq : t.Tells q) (now : Nat) : (t.advance now).Tells q := by
  by_cases hmade : ∃ c table, t.traffic.world.held = .insert ∧
      t.sessions.create t.traffic.service.sessionPolicy now none = (.ok c, table)
  · obtain ⟨c, table, hi, hc⟩ := hmade
    exact tells_created h hq hi hc
  · obtain ⟨w, y, heq, hget, -⟩ :=
      advance_keeps (t := t) now fun c table hi hc => hmade ⟨c, table, hi, hc⟩
    rw [heq]
    exact tells_of_same hq fun s => hget q s

/-- A step that does not stray leaves a session with its own exchanges. -/
theorem tells_step (hs : Step t t') (h : Kept t) (hq : t.Tells q) (hn : ¬Strays q t t') : t'.Tells q := by
  cases hs with
  | begin now id prompt o hfree => exact tells_begin hq hfree
  | next i now =>
    rcases next_cases h i now with
      hsame | ⟨p, p', service, hi, hp, hgone⟩ | ⟨turn, reply, nPast, a, hi, ha⟩
    · rwa [hsame]
    · rw [hgone]
      exact tells_gone h hq hi hp
    · rw [next_ends hi ha]
      exact tells_ended h hq hi ha hn
  | create => exact tells_of_same hq fun s => id
  | close => exact tells_of_same hq fun s => id
  | replaced => exact tells_of_same hq fun s => id
  | load path text =>
    obtain ⟨-, hsessions, -, -⟩ := t.traffic.world.loadStep_cases path text
    apply tells_of_same hq
    intro s hs
    rwa [hsessions] at hs
  | advance now => exact tells_advance h hq now
  | elsewhere he =>
    apply tells_of_same hq
    intro s hs
    rwa [he.sessions] at hs

/-- A turn strays only where the table was cleared since it began, or ids were given twice. -/
theorem cleared_of_strays (h : Kept t) (hs : Strays q t t') :
    ∃ a ∈ t.pending, a.asked.id = q ∧
      (a.asked.clearings < t.tally.clearings ∨ SessionTable.idLimit ≤ t.tally.since) := by
  cases hs with
  | @finish i now nPast turn reply a s hi ha hqa hs hother hmark =>
    have hmem := List.mem_of_getElem? ha
    have hknows := h.known a hmem
    refine ⟨a, hmem, hqa, ?_⟩
    by_contra hneither
    rw [not_or, Nat.not_lt, Nat.not_le] at hneither
    obtain ⟨hclearings, hsince⟩ := hneither
    -- in one round of ids, the session of that id is the one it was
    obtain ⟨-, -, hlatest⟩ := h.dates.latest q (SessionTable.contains_iff.2 ⟨s, hs⟩)
    have hcreation := hknows.numbered (Nat.le_antisymm hknows.clearings hclearings) hsince
    rw [hqa] at hcreation
    exact hother (hcreation.trans (hlatest hsince).symm)

/-- Steps of all calls in any number and order, none of which strays into a session. -/
abbrev RunSteady (q : SessionId) : Chronicle σ → Chronicle σ → Prop :=
  Relation.ReflTransGen fun t t' => Step t t' ∧ ¬Strays q t t'

theorem run_of_steady (hr : RunSteady q t t') : Run t t' :=
  Relation.ReflTransGen.mono (fun _ _ step => step.1) _ _ hr

theorem tells_run (hr : RunSteady q t t') (h : Kept t) (hq : t.Tells q) : Kept t' ∧ t'.Tells q := by
  -- over the steps taken so far
  induction hr with
  | refl => exact ⟨h, hq⟩
  | tail _ step ih => exact ⟨kept_step step.1 ih.1, tells_step step.1 ih.1 ih.2 step.2⟩

/-- In every run in which no turn begins in a session while another of its turns is under way, and no turn
strays into a session with some id: whenever no turn of that session is under way, its history is what its
answered turns asked and were told, in order, it counts as many turns, and it is ready; and the messages that
a turn of it generates from are the exchanges before it and its prompt. A step takes this away exactly
where a turn strays into the session, and that supposes that the table was cleared while the turn was under
way, or that ids have been used up. -/
theorem history_is_answered_exchanges_unless_strayed (config : ServiceConfig) (e : σ) (q : SessionId)
    (t : Chronicle σ) (h : RunSteady q (opened config e) t) :
    Traffic.Run (.opened config e) t.traffic ∧
      (∀ s, t.sessions.sessions.get? q = some s → ¬t.Engaged q →
        s.history = transcript (t.exchanges q) ∧ s.turns = (t.exchanges q).length ∧ s.state = .ready) ∧
      (∀ (i : Nat) (a : Pending) (turn : Turn), t.pending[i]? = some a → a.asked.id = q →
        t.traffic.parts[i]? = some (.prepared turn) →
        turn.request.messages =
          transcript (exchangesOf t.log q a.asked.creation) ++ [⟨.user, a.prompt⟩]) ∧
      ∀ t', Step t t' → (Strays q t t' ↔ ¬t'.Tells q) ∧
        (Strays q t t' → ∃ a ∈ t.pending, a.asked.id = q ∧
          (a.asked.clearings < t.tally.clearings ∨ SessionTable.idLimit ≤ t.tally.since)) := by
  obtain ⟨hkept, htells⟩ := tells_run h (kept_opened config e) (tells_opened config e q)
  refine ⟨traffic_run (run_of_steady h), fun s hs hidle => ?_, fun i a turn ha hid hi => ?_,
    fun t' hs => ⟨⟨not_tells_of_strays hkept htells, fun hnot => ?_⟩, cleared_of_strays hkept⟩⟩
  · obtain ⟨hhistory, hturns, hstate⟩ := htells.rests s hs hidle
    exact ⟨hhistory.trans (List.append_nil _), hturns, hstate⟩
  · exact Tenancy.related_at htells.asks ha hi hid
  · by_contra hn
    exact hnot (tells_step hs hkept htells hn)

/-- A turn of a session that is still that session does not stray. -/
theorem not_strays_of_current (h : ∀ a ∈ t.pending, a.asked.id = q → t.Concerns q a) :
    ¬Strays q t t' := by
  rintro ⟨hi, ha, hqa, hs, hother, hmark⟩
  exact hother (h _ (List.mem_of_getElem? ha) hqa).2

/-- They are steady while turns are under way only in sessions that are still theirs. -/
theorem steady_advances (t : Chronicle σ) (now n : Nat) (id : SessionId)
    (hid : SessionTable.InRange id)
    (hfree : ∀ i < n, ((t.advances now i).sessions.searched
      (t.advances now i).traffic.service.sessionPolicy now).contains id = false)
    (hcurrent : ∀ i < n, ∀ a ∈ (t.advances now i).pending, a.asked.id = q →
      (t.advances now i).Concerns q a) : RunSteady q t (t.advances now n) :=
  reach_advances t now n fun i hi =>
    ⟨.advance now fun _ => .inr ⟨id, hid, hfree i hi⟩, not_strays_of_current (hcurrent i hi)⟩

section

open Mailroom (EchoingEngine oneSlot)

def loadModel (t : Chronicle EchoingEngine) (path : String) : Chronicle EchoingEngine :=
  t.onWorld ((t.traffic.world.loadStep path none).loadStep path none)

/-- The load drops so many sessions of the model before. -/
def dropSessions (t : Chronicle EchoingEngine) (now n : Nat) : Chronicle EchoingEngine :=
  advances (t.onWorld { t.traffic.world with held := .replaced }) now (n + 3)

/-- A session is opened, and none has to go for it. -/
def openSession (t : Chronicle EchoingEngine) (now : Nat) : Chronicle EchoingEngine :=
  advances (t.onWorld { t.traffic.world with held := .sweep }) now 7

/-- A model is in place, the load that put it there is over, and a session is open. -/
def ready : Chronicle EchoingEngine :=
  let placed := ((opened oneSlot {}).loadModel "a").dropSessions 0 0
  (placed.onWorld (placed.traffic.world.loadStep "a" none)).openSession 1

/-- A turn that begins, and has its answer, which it has not recorded yet. -/
def measured (t : Chronicle EchoingEngine) : Chronicle EchoingEngine :=
  (((t.begin 2 1 "Hi" {}).next 0 3).next 0 3).next 0 3

theorem steady_loadModel {t₀ t : Chronicle EchoingEngine} (hr : RunSteady q t₀ t) (path : String)
    (hparts : t.traffic.parts = []) (hpending : t.pending = []) : RunSteady q t₀ (t.loadModel path) := by
  have hnobody {t' t'' : Chronicle EchoingEngine} (h : t'.pending = []) : ¬Strays q t' t'' := by
    apply not_strays_of_current
    rw [h]
    exact List.forall_mem_nil _
  exact (hr.tail ⟨.load path none fun _ => hparts, hnobody hpending⟩).tail
    ⟨.load path none fun _ => hparts, hnobody hpending⟩

theorem steady_ready : RunSteady 1 (opened oneSlot {}) ready := by
  have hplace := steady_loadModel (.refl : RunSteady 1 (opened oneSlot {}) _) "a" rfl rfl
  have hdrop := (hplace.tail ⟨.replaced rfl rfl, not_strays_of_current (by decide +kernel)⟩).trans
    (steady_advances _ 0 3 9 (by decide) (by decide +kernel) (by decide +kernel))
  have hover := hdrop.tail ⟨.load "a" none fun _ => rfl, not_strays_of_current (by decide +kernel)⟩
  have hcall := hover.tail ⟨.create rfl, not_strays_of_current (by decide +kernel)⟩
  exact hcall.trans (steady_advances _ 1 7 9 (by decide) (by decide +kernel) (by decide +kernel))

theorem steady_measured {t₀ t : Chronicle EchoingEngine} (hr : RunSteady 1 t₀ t)
    (hfree : ¬t.Engaged 1) (hpending : ∀ a ∈ t.pending, a.asked.id = 1 → t.Concerns 1 a)
    (hcurrent : ∀ u ∈ [t.begin 2 1 "Hi" {}, (t.begin 2 1 "Hi" {}).next 0 3,
      ((t.begin 2 1 "Hi" {}).next 0 3).next 0 3], ∀ a ∈ u.pending, a.asked.id = 1 → u.Concerns 1 a) :
    RunSteady 1 t₀ t.measured := by
  have hbegun := hr.tail ⟨.begin 2 1 "Hi" {} fun _ => hfree, not_strays_of_current hpending⟩
  have hprepared := hbegun.tail ⟨.next 0 3, not_strays_of_current (hcurrent _ (by simp))⟩
  have hgenerated := hprepared.tail ⟨.next 0 3, not_strays_of_current (hcurrent _ (by simp))⟩
  exact hgenerated.tail ⟨.next 0 3, not_strays_of_current (hcurrent _ (by simp))⟩

/-- An answered turn: one exchange. -/
theorem history_is_answered_exchanges_talked :
    let t := ready.measured.next 0 3
    RunSteady 1 (opened oneSlot {}) t ∧ ¬t.Engaged 1 ∧ (t.exchanges 1).length = 1 ∧
      ∃ s, t.sessions.sessions.get? 1 = some s ∧ s.history = transcript (t.exchanges 1) ∧
        s.turns = 1 := by
  intro t
  have hmeasured := steady_measured steady_ready (by decide +kernel) (by decide +kernel) (by decide +kernel)
  have hrun : RunSteady 1 (opened oneSlot {}) t :=
    hmeasured.tail ⟨.next 0 3, not_strays_of_current (by decide +kernel)⟩
  have hidle : ¬t.Engaged 1 := by decide +kernel
  have hone : (t.exchanges 1).length = 1 := by decide +kernel
  obtain ⟨s, hs⟩ := SessionTable.contains_iff.1 (by decide +kernel : t.sessions.contains 1 = true)
  obtain ⟨-, hrests, -⟩ := history_is_answered_exchanges_unless_strayed oneSlot {} 1 t hrun
  obtain ⟨hhistory, hturns, -⟩ := hrests s hs hidle
  exact ⟨hrun, hidle, hone, s, hs, hhistory, hturns.trans hone⟩

/-- A turn that began in the session of the model before ends in that of the next: a reply that nobody of that
session asked for is all its history. -/
theorem reply_without_prompt_in_next_session :
    ∃ t : Chronicle EchoingEngine, Run (opened oneSlot {}) t ∧ t.pending = [] ∧ t.exchanges 1 = [] ∧
      (t.sessions.sessions.get? 1).map (fun s => (s.history, s.turns)) =
        some ([⟨.assistant, "Hi"⟩], 1) := by
  have hplace := steady_loadModel steady_ready "b" (by rfl) (by rfl)
  have hmeasured := steady_measured hplace (by decide +kernel) (by decide +kernel) (by decide +kernel)
  let dropped := (ready.loadModel "b").measured.dropSessions 4 1
  have hfree : ∀ i < 7,
      let u := (dropped.onWorld { dropped.traffic.world with held := .sweep }).advances 5 i
      (u.sessions.searched u.traffic.service.sessionPolicy 5).contains 9 = false := by decide +kernel
  -- the sessions of the model before are dropped, and the id is given again
  have hdrop := (hmeasured.tail
    ⟨.replaced rfl rfl, not_strays_of_current (by decide +kernel)⟩).trans
    (steady_advances _ 4 4 9 (by decide) (by decide +kernel) (by decide +kernel))
  have hcall := hdrop.tail ⟨.create rfl, not_strays_of_current (by decide +kernel)⟩
  have hopen := (run_of_steady hcall).trans
    (reach_advances _ 5 7 fun i hi => .advance 5 fun _ => .inr ⟨9, by decide, hfree i hi⟩)
  exact ⟨_, hopen.tail (.next 0 6), by decide +kernel, by decide +kernel, by decide +kernel⟩

end

end ChatInference.Chronicle
