import ChatInference.Proofs.Service.Parts

/-!
The position that a session states. It is brought up to date when a turn is answered, and at no other time,
while the cells of the session are deleted in other places too: after a failed turn, where memory is short
for the turn of another session, and by a load that fails and leaves the sessions open.
-/

namespace ChatInference.Traffic

variable {σ : Type} [InferenceEngine σ]

/-- A session is open, no turn of it is under way, and no cells are about to be deleted under its id. -/
structure Rests (t : Traffic σ) (q : SeqId) (s : Session) : Prop where
  opened : t.sessions.sessions.get? q = some s
  kept : q ∉ t.world.held.retiring
  idle : ¬t.Busy q

/-- A session at rest states the next free position of its sequence. -/
def UpToDate (t : Traffic σ) (q : SeqId) : Prop :=
  ∀ s, t.Rests q s → s.nPast = KvCache.nPast t.engine q

/-- A step takes the next free position of a session away from the one it states. -/
inductive Drifts (q : SeqId) (t : Traffic σ) : Traffic σ → Prop
  /-- Memory is short for the turn of another session. -/
  | relieve {i now : Nat} {p : TurnPart} {s : Session} (h : t.parts[i]? = some p)
      (hshort : t.service.relieves p = true) (hrests : t.Rests q s)
      (hmoved : KvCache.nPast (t.next i now).engine q ≠ KvCache.nPast t.engine q) :
      Drifts q t (t.next i now)
  /-- A turn ends with another position than the session then states: that of the last answered turn if
  this one failed, and that which was read after the reply if it did not. -/
  | finish {i now : Nat} {turn : Turn} {reply : Option String} {nPast : Nat} {s : Session}
      (h : t.parts[i]? = some (.measured turn reply nPast)) (hq : turn.session = q)
      (hs : t.sessions.sessions.get? q = some s) (hretired : q ∉ t.world.held.retiring)
      (hlast : ∀ p ∈ t.parts.eraseIdx i, p.session ≠ q)
      (hstale : (if reply.isSome then nPast else s.nPast) ≠ KvCache.nPast t.engine q) :
      Drifts q t (t.next i now)
  /-- A load empties the cache, and the session is still open. -/
  | load {path : String} {text : Option String} {s : Session} (h : t.world.load = .begun)
      (hrests : t.Rests q s)
      (hmoved : KvCache.nPast (t.world.loadStep path text).service.model.engine q ≠
        KvCache.nPast t.engine q) :
      Drifts q t { t with world := t.world.loadStep path text }
  /-- A session is given an id under which the cache holds cells. -/
  | insert {now : Nat} {c : Created} {sessions : SessionTable} (h : t.world.held = .insert)
      (hc : t.sessions.create t.service.sessionPolicy now none = (.ok c, sessions)) (hq : c.id = q)
      (hevicted : q ∉ c.evicted) (hidle : ¬t.Busy q) (hcells : KvCache.nPast t.engine q ≠ 0) :
      Drifts q t (t.advance now)
  /-- Cells are deleted for a session whose id has been given again. -/
  | retire {now : Nat} {ids : List SessionId} {next : AfterRetire} {s : Session}
      (h : t.world.held = .retire (q :: ids) next) (hs : t.sessions.sessions.get? q = some s)
      (hretired : q ∉ ids) (hidle : ¬t.Busy q)
      (hmoved : s.nPast ≠ KvCache.nPast (t.advance now).engine q) : Drifts q t (t.advance now)

variable {t t' : Traffic σ} {l : Limits} {q : SeqId} {s : Session}

/-- A session that rests before and after a step, and is up to date both times, has not moved. -/
theorem nPast_unmoved (h : t.UpToDate q) (h' : t'.UpToDate q) (hrests : t.Rests q s)
    (hrests' : t'.Rests q s) : KvCache.nPast t'.engine q = KvCache.nPast t.engine q :=
  calc KvCache.nPast t'.engine q
    _ = s.nPast := (h' s hrests').symm
    _ = KvCache.nPast t.engine q := h s hrests

theorem upToDate_thins (h : t.UpToDate q) {w : World σ} (hw : t.world.Thins w) :
    UpToDate { t with world := w } q := by
  intro s hrests
  have hbefore : t.Rests q s :=
    ⟨hw.kept q s hrests.opened, fun hr => hrests.kept (hw.retiring hr), hrests.idle⟩
  rw [h s hbefore]
  exact congrArg (KvCache.nPast · q) hw.engine.symm

theorem upToDate_begin (h : t.UpToDate q) (now : Nat) (id : SessionId) (prompt : String)
    (o : Overrides) : (t.begin now id prompt o).UpToDate q := by
  unfold begin
  split
  case h_2 => exact h
  case h_1 p service hb =>
    have hbegins := Service.begins hb
    rintro s ⟨hs, hretired, hidle⟩
    -- the turn changes what the session says, but not where it is
    have hpast := hbegins.nPast q
    change service.sessions.sessions.get? q = some s at hs
    rw [hs] at hpast
    obtain ⟨u, hu, hsame⟩ := Option.map_eq_some_iff.1 hpast.symm
    have hbefore : t.Rests q u :=
      ⟨hu, hretired, fun ⟨v, hv, hq⟩ => hidle ⟨v, List.mem_append_left _ hv, hq⟩⟩
    calc s.nPast
      _ = u.nPast := hsame.symm
      _ = KvCache.nPast t.engine q := h u hbefore
      _ = KvCache.nPast service.model.engine q := by
        rw [hbegins.model]
        rfl

/-- What the end of a turn comes to for its session. -/
theorem upToDate_next_ends {i nPast : Nat} {turn : Turn} {reply : Option String}
    (hi : t.parts[i]? = some (.measured turn reply nPast)) (hq : turn.session = q) (now : Nat) :
    (t.next i now).UpToDate q ↔
      ∀ s, t.sessions.sessions.get? q = some s → q ∉ t.world.held.retiring →
        (∀ p ∈ t.parts.eraseIdx i, p.session ≠ q) →
        (if reply.isSome then nPast else s.nPast) = KvCache.nPast t.engine q := by
  have hget := t.service.get?_record now turn.session reply nPast q
  rw [if_pos hq.symm, hq] at hget
  have hengine : KvCache.nPast (t.next i now).engine q = KvCache.nPast t.engine q := by
    rw [next_ends hi]
    exact congrArg (KvCache.nPast ·.engine q) (t.service.model_record now turn.session reply nPast)
  constructor
  · intro h s hs hretired hlast
    have hrests : (t.next i now).Rests q (s.finish now reply nPast) := by
      rw [next_ends hi, hq]
      exact ⟨hget.trans (Option.map_eq_some_iff.2 ⟨s, hs, rfl⟩), hretired,
        fun ⟨p, hp, hpq⟩ => hlast p hp hpq⟩
    rw [← hengine, ← h _ hrests, SessionTable.nPast_finish]
  · rintro h s hrests
    rw [hengine]
    rw [next_ends hi, hq] at hrests
    obtain ⟨u, hu, rfl⟩ := Option.map_eq_some_iff.1 (hget.symm.trans hrests.opened)
    rw [SessionTable.nPast_finish]
    exact h u hu hrests.kept fun p hp hpq => hrests.idle ⟨p, hp, hpq⟩

/-- A load leaves the sessions and the turns as they are. -/
theorem rests_load (path : String) (text : Option String) :
    Rests { t with world := t.world.loadStep path text } q s ↔ t.Rests q s := by
  obtain ⟨-, hsessions, hheld, -⟩ := t.world.loadStep_cases path text
  have hget : (t.world.loadStep path text).service.sessions.sessions.get? q =
      t.sessions.sessions.get? q := congrArg (·.sessions.get? q) hsessions
  have hretiring : (t.world.loadStep path text).held.retiring = t.world.held.retiring :=
    congrArg Held.retiring hheld
  constructor
  · rintro ⟨hs, hretired, hidle⟩
    exact ⟨hget.symm.trans hs, hretiring ▸ hretired, hidle⟩
  · rintro ⟨hs, hretired, hidle⟩
    exact ⟨hget.trans hs, hretiring ▸ hretired, hidle⟩

theorem upToDate_load (h : t.UpToDate q) (path : String) (text : Option String)
    (hn : ¬Drifts q t { t with world := t.world.loadStep path text }) :
    UpToDate { t with world := t.world.loadStep path text } q := by
  obtain ⟨-, -, -, hengine⟩ := t.world.loadStep_cases path text
  intro s hrests
  have hbefore : t.Rests q s := (rests_load path text).1 hrests
  rw [h s hbefore]
  rcases hengine with hsame | ⟨hbegun, -⟩
  · exact congrArg (KvCache.nPast · q) hsame.symm
  · by_contra hmoved
    exact hn (.load hbegun hbefore (Ne.symm hmoved))

/-- A part of a turn that is not its last changes no session. -/
theorem rests_next_goes {i now : Nat} {p p' : TurnPart} {service : Service σ}
    (hi : t.parts[i]? = some p) (hp : t.service.nextPart now p = (some p', service))
    (hsession : p'.session = p.session) (hsessions : service.sessions = t.sessions) :
    (t.next i now).Rests q s ↔ t.Rests q s := by
  have hget : service.sessions.sessions.get? q = t.sessions.sessions.get? q :=
    congrArg (·.sessions.get? q) hsessions
  have hbusy := busy_set (q := q) { t.world with service } hi hsession
  rw [next_goes hi hp]
  constructor
  · rintro ⟨hs, hretired, hidle⟩
    exact ⟨hget.symm.trans hs, hretired, fun hb => hidle (hbusy.2 hb)⟩
  · rintro ⟨hs, hretired, hidle⟩
    exact ⟨hget.trans hs, hretired, fun hb => hidle (hbusy.1 hb)⟩

/-- A drift leaves a session elsewhere than it states. -/
theorem not_upToDate_of_drifts (h : t.UpToDate q) (hd : Drifts q t t') : ¬t'.UpToDate q := by
  cases hd with
  | @relieve i now p s hi hshort hrests hmoved =>
    cases p with
    | begun id history c =>
      obtain ⟨p', service, hp, hsession, hsessions⟩ : ∃ p' service,
          t.service.nextPart now (.begun id history c) = (some p', service) ∧ p'.session = id ∧
            service.sessions = t.sessions := ⟨_, _, rfl, rfl, rfl⟩
      intro hup
      exact hmoved (nPast_unmoved h hup hrests ((rests_next_goes hi hp hsession hsessions).2 hrests))
    -- no other part looks at the memory
    | prepared turn => cases hshort
    | generated turn r => cases hshort
    | measured turn reply nPast => cases hshort
  | @finish i now turn reply nPast s hi hq hs hretired hlast hstale =>
    rw [upToDate_next_ends hi hq]
    exact fun hup => hstale (hup s hs hretired hlast)
  | @load path text s hbegun hrests hmoved =>
    exact fun hup => hmoved (nPast_unmoved h hup hrests ((rests_load path text).2 hrests))
  | @insert now c sessions hh hc hq hevicted hidle hcells =>
    -- the new session states that its sequence is empty
    obtain ⟨hget, -, hin⟩ := SessionTable.create_get? hc
    obtain ⟨s, hs⟩ := SessionTable.contains_iff.1 hin
    rw [hq] at hs
    rw [advance_insert hh hc]
    intro hup
    rcases hget q s hs with ⟨-, hzero⟩ | ⟨hne, -⟩
    · exact hcells ((hup s ⟨hs, hevicted, hidle⟩).symm.trans hzero)
    · exact hne hq.symm
  | @retire now ids next s hh hs hretired hidle hmoved =>
    rw [advance_retire hh] at hmoved ⊢
    exact fun hup => hmoved (hup s ⟨hs, hretired, hidle⟩)

/-- Steps of all calls in any number and order, none of which is a drift of a session. -/
abbrev RunSteady (q : SeqId) : Traffic σ → Traffic σ → Prop :=
  Relation.ReflTransGen fun t t' => Step t t' ∧ ¬Drifts q t t'

instance (t : Traffic σ) (q : SeqId) : Decidable (t.UpToDate q) :=
  have : Decidable (t.Busy q) := inferInstanceAs (Decidable (∃ p ∈ t.parts, p.session = q))
  decidable_of_iff (∀ s ∈ t.sessions.sessions.get? q, q ∉ t.world.held.retiring → ¬t.Busy q →
      s.nPast = KvCache.nPast t.engine q)
    ⟨fun h s hrests => h s hrests.opened hrests.kept hrests.idle,
      fun h s hs hretired hidle => h s ⟨hs, hretired, hidle⟩⟩

/-- Steps between states that are up to date are no drifts. -/
theorem steady_tail {t'' : Traffic σ} (hr : RunSteady q t t') (hs : Step t' t'') (h : t'.UpToDate q)
    (h' : t''.UpToDate q) : RunSteady q t t'' :=
  hr.tail ⟨hs, fun hd => not_upToDate_of_drifts h hd h'⟩

theorem steady_advances (t : Traffic σ) (now n : Nat) (id : SessionId)
    (hid : SessionTable.InRange id)
    (hfree : ∀ i < n, ((t.advances now i).sessions.searched (t.advances now i).service.sessionPolicy
      now).contains id = false)
    (hup : ∀ i < n, (t.advances now i).UpToDate q ∧ (t.advances now (i + 1)).UpToDate q) :
    RunSteady q t (t.advances now n) :=
  reach_advances t now n id hid hfree fun i hi hs =>
    ⟨hs, fun hd => not_upToDate_of_drifts (hup i hi).1 hd (hup i hi).2⟩

variable [LedgerBacked σ]

theorem upToDate_next [CellContract σ] (ho : Orderly l t) (h : t.UpToDate q) (i now : Nat)
    (hn : ¬Drifts q t (t.next i now)) : (t.next i now).UpToDate q := by
  rcases t.next_cases i now with hsame | ⟨p, p', service, hi, hp⟩ | ⟨turn, reply, nPast, hi⟩
  · rwa [hsame]
  · have hgoes := Service.goesOn (ho.faithful p (List.mem_of_getElem? hi)) hp
    intro s hrests
    have hbefore : t.Rests q s := (rests_next_goes hi hp hgoes.session hgoes.sessions).1 hrests
    have hother : q ≠ p.session := fun hq => hbefore.idle ⟨p, List.mem_of_getElem? hi, hq.symm⟩
    rw [h s hbefore]
    cases hshort : t.service.relieves p with
    | false =>
      rw [next_goes hi hp]
      exact (nPast_congr (hgoes.others hshort q hother)).symm
    | true =>
      by_contra hmoved
      exact hn (.relieve hi hshort hbefore (Ne.symm hmoved))
  · by_cases hq : turn.session = q
    · rw [upToDate_next_ends hi hq]
      intro s hs hretired hlast
      by_contra hstale
      exact hn (.finish hi hq hs hretired hlast hstale)
    · -- the turn of another session ends, which touches neither this one nor the cache
      have hget := t.service.get?_record now turn.session reply nPast q
      rw [if_neg (Ne.symm hq)] at hget
      have hmodel := t.service.model_record now turn.session reply nPast
      rw [next_ends hi]
      rintro s ⟨hs, hretired, hidle⟩
      have hbefore : t.Rests q s :=
        ⟨hget.symm.trans hs, hretired, fun hb => hidle ((busy_eraseIdx _ hi hq).2 hb)⟩
      rw [h s hbefore]
      exact congrArg (KvCache.nPast ·.engine q) hmodel.symm

theorem upToDate_advance (ho : Orderly l t) (h : t.UpToDate q) (now : Nat)
    (hn : ¬Drifts q t (t.advance now)) : (t.advance now).UpToDate q := by
  obtain ⟨w, hadv, heq⟩ := ho.advanced now
  cases hadv with
  | thinned hthins =>
    rw [heq]
    exact upToDate_thins h hthins
  | @removed id ids next hh =>
    intro s hrests
    rw [heq] at hrests
    obtain ⟨hs, hretired, hidle⟩ := hrests
    by_cases hq : id = q
    · subst hq
      by_contra hmoved
      exact hn (.retire hh hs hretired hidle hmoved)
    · -- the cells that are deleted are those of another sequence
      have hbefore : t.Rests q s := by
        refine ⟨hs, fun hr => hretired ?_, hidle⟩
        rw [hh] at hr
        exact (List.mem_cons.1 hr).resolve_left (Ne.symm hq)
      rw [heq, h s hbefore]
      exact (nPast_congr (cellsOf_remove_others (Ne.symm hq) 0 none)).symm
  | emptied hh hempty =>
    rw [heq]
    rintro s ⟨hs, -, -⟩
    -- nobody is in the table
    have hmem : (q, s) ∈ t.world.service.sessions.sessions.entries := Keyed.get?_eq_some_iff.1 hs
    rw [List.isEmpty_iff.1 hempty] at hmem
    cases hmem
  | @inserted c sessions hh hc =>
    intro s hrests
    rw [heq] at hrests ⊢
    obtain ⟨hs, hretired, hidle⟩ := hrests
    rcases (SessionTable.create_get? hc).1 q s hs with ⟨hq, hzero⟩ | ⟨-, hold⟩
    · by_contra hcells
      rw [hzero] at hcells
      exact hn (.insert hh hc hq.symm hretired hidle (Ne.symm hcells))
    · refine h s ⟨hold, fun hr => ?_, hidle⟩
      rw [hh] at hr
      cases hr
  | dropped hh =>
    rw [heq]
    rintro s ⟨hs, -, -⟩
    cases hs

/-- A step that is no drift leaves the session where its sequence is. -/
theorem upToDate_step [CellContract σ] (ho : Orderly l t) (hs : Step t t') (h : t.UpToDate q)
    (hn : ¬Drifts q t t') : t'.UpToDate q := by
  cases hs with
  | begin now id prompt o => exact upToDate_begin h now id prompt o
  | next i now => exact upToDate_next ho h i now hn
  | create hf => exact upToDate_thins h (World.thins_of_same ho.sound hf rfl rfl rfl rfl)
  | close id hf => exact upToDate_thins h (World.thins_of_same ho.sound hf rfl rfl rfl rfl)
  | replaced hf => exact upToDate_thins h (World.thins_of_same ho.sound hf rfl rfl rfl rfl)
  | load path text => exact upToDate_load h path text hn
  | advance now => exact upToDate_advance ho h now hn
  | elsewhere he =>
    exact upToDate_thins h (World.thins_of_same ho.sound rfl rfl he.sessions he.config
      (congrArg (·.engine) he.model))

theorem upToDate_run [CellContract σ] (hr : RunSteady q t t') (ho : Orderly l t) (h : t.UpToDate q) :
    Orderly l t' ∧ t'.UpToDate q := by
  -- over the steps taken so far
  induction hr with
  | refl => exact ⟨ho, h⟩
  | tail _ step ih =>
    obtain ⟨hs, hn⟩ := step
    exact ⟨orderly_step hs ih.1, upToDate_step ih.1 hs ih.2 hn⟩

/-- In every run, whatever is opened, closed, evicted, loaded or deleted between the parts of turns: once
no turn is under way and the lock is free, the position that a session states is the next free one of its
sequence, as long as no step has been a drift; and a step takes the one away from the other exactly
where it is one. -/
theorem stated_position_is_next_unless_drifted [CellContract σ] (config : ServiceConfig) (e : σ)
    (q : SessionId) (t : Traffic σ) (h : RunSteady q (opened config e) t) :
    (t.parts = [] → t.world.held = .free →
        ∀ s ∈ t.sessions.sessions.get? q, s.nPast = KvCache.nPast t.engine q) ∧
      t.UpToDate q ∧ ∀ t', Step t t' → (Drifts q t t' ↔ ¬t'.UpToDate q) := by
  have hnobody : (opened config e).UpToDate q := by
    rintro s ⟨hs, -, -⟩
    cases hs
  obtain ⟨ho, hup⟩ := upToDate_run h (orderly_opened config e) hnobody
  refine ⟨fun hparts hfree s hs => ?_, hup,
    fun t' hs => ⟨not_upToDate_of_drifts hup, fun hnot => ?_⟩⟩
  · refine hup s ⟨hs, ?_, ?_⟩
    · rw [hfree]
      exact List.not_mem_nil
    · rintro ⟨p, hp, -⟩
      rw [hparts] at hp
      cases hp
  · by_contra hn
    exact hnot (upToDate_step ho hs hup hn)

/-- No session is evicted for its age, and the second of three loads fails. -/
def fresh : Traffic LedgerEngine :=
  opened { limits := { autoCleanup := false } } { outcomes := [true, false, true] }

/-- A model is in place, and the load that put it there is over. -/
def ready : Traffic LedgerEngine :=
  let placed := fresh.loaded "a"
  let dropped := advances { placed with world := { placed.world with held := .replaced } } 0 3
  { dropped with world := dropped.world.loadStep "a" none }

/-- A turn of the only session has been answered. -/
def talked : Traffic LedgerEngine :=
  (((((ready.withSession 0).begin 1 1 "Hi" {}).next 0 1).next 0 2).next 0 2).next 0 2

theorem steady_talked : RunSteady 1 fresh talked := by
  have hnone : RunSteady 1 fresh fresh := .refl
  have hbegun := steady_tail hnone (.load "a" none fun _ => rfl) (by decide) (by decide)
  have hplaced := steady_tail hbegun (.load "a" none fun _ => rfl) (by decide) (by decide)
  have hhook := steady_tail hplaced (.replaced rfl rfl) (by decide) (by decide)
  have hdropped := hhook.trans
    (steady_advances _ 0 3 9 (by decide) (by decide +kernel) (by decide +kernel))
  have hready := steady_tail hdropped (.load "a" none fun _ => rfl) (by decide +kernel) (by decide +kernel)
  have hcall := steady_tail hready (.create rfl) (by decide +kernel) (by decide +kernel)
  have hopen := hcall.trans (steady_advances _ 0 7 9 (by decide) (by decide +kernel) (by decide +kernel))
  have hprompt := steady_tail hopen (.begin 1 1 "Hi" {}) (by decide +kernel) (by decide +kernel)
  have hprepared := steady_tail hprompt (.next 0 1) (by decide +kernel) (by decide +kernel)
  have hgenerated := steady_tail hprepared (.next 0 2) (by decide +kernel) (by decide +kernel)
  have hmeasured := steady_tail hgenerated (.next 0 2) (by decide +kernel) (by decide +kernel)
  exact steady_tail hmeasured (.next 0 2) (by decide +kernel) (by decide +kernel)

theorem stated_position_is_next_talked :
    RunSteady 1 fresh talked ∧ talked.sessions.sessions.get? 1 ≠ none ∧
      KvCache.nPast talked.engine 1 = 2 ∧
      ∀ s ∈ talked.sessions.sessions.get? 1, s.nPast = KvCache.nPast talked.engine 1 := by
  have h := stated_position_is_next_unless_drifted { limits := { autoCleanup := false } }
    ({ outcomes := [true, false, true] } : LedgerEngine) 1 talked steady_talked
  exact ⟨steady_talked, by decide +kernel, by decide +kernel, h.1 rfl rfl⟩

/-- A load that fails leaves the session open, and its cells are gone. -/
theorem failed_load_leaves_position_behind :
    ∃ t : Traffic LedgerEngine, Run fresh t ∧ t.parts = [] ∧ t.world.held = .free ∧
      (t.sessions.sessions.get? 1).map (·.nPast) = some 2 ∧ KvCache.nPast t.engine 1 = 0 := by
  have htalked : Run fresh talked :=
    Relation.ReflTransGen.mono (fun _ _ step => step.1) _ _ steady_talked
  have hbegun := htalked.tail (.load "b" none fun _ => rfl)
  have hfailed := hbegun.tail (.load "b" none fun _ => rfl)
  exact ⟨_, hfailed.tail (.load "b" none fun _ => rfl), rfl, rfl, by decide +kernel, by decide +kernel⟩

end ChatInference.Traffic
