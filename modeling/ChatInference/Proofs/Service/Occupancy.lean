import ChatInference.Proofs.Service.Parts

/-!
Whose cells the cache holds. A sequence with cells is that of an open session, of one whose cells are about
to be deleted, or of a turn that is under way. Three steps can leave one to nobody: the end of a turn whose
session is gone, a load that drops its session, and a deletion that the cache does not carry out.
-/

namespace ChatInference.Traffic

variable {σ : Type} [InferenceEngine σ] [LedgerBacked σ]

/-- The cache holds cells for a sequence. -/
def Holds (t : Traffic σ) (q : SeqId) : Prop := cellsOf t.engine q ≠ []

/-- Cells of a sequence have somebody who owns them, or will delete them. -/
def Owned (t : Traffic σ) (q : SeqId) : Prop :=
  t.Holds q → t.sessions.contains q = true ∨ q ∈ t.world.held.retiring ∨ t.Busy q

/-- A step leaves the cells of a sequence to nobody. -/
inductive Strands (q : SeqId) (t : Traffic σ) : Traffic σ → Prop
  /-- The last turn of a session ends after the session was closed, evicted or dropped. -/
  | finish {i now : Nat} {turn : Turn} {reply : Option String} {nPast : Nat}
      (h : t.parts[i]? = some (.measured turn reply nPast)) (hq : turn.session = q)
      (hcells : t.Holds q) (hgone : t.sessions.contains q = false)
      (hretired : q ∉ t.world.held.retiring) (hlast : ∀ p ∈ t.parts.eraseIdx i, p.session ≠ q) :
      Strands q t (t.next i now)
  /-- A load drops a session that holds cells of the new model. -/
  | drop {now : Nat} (h : t.world.held = .cancel []) (hcells : t.Holds q) (hidle : ¬t.Busy q) :
      Strands q t (t.advance now)
  /-- A session is retired, and the cache keeps cells of it. -/
  | refuse {now : Nat} {ids : List SessionId} {next : AfterRetire}
      (h : t.world.held = .retire (q :: ids) next) (hcells : (t.advance now).Holds q)
      (hgone : t.sessions.contains q = false) (hretired : q ∉ ids) (hidle : ¬t.Busy q) :
      Strands q t (t.advance now)

variable {t t' : Traffic σ} {l : Limits} {q : SeqId}

/-- Where cells are owned they still are after a step that adds none and takes no owner away. -/
theorem owned_of (h : t.Owned q) (hcells : t'.Holds q → t.Holds q)
    (hopen : t.sessions.contains q = true →
      t'.sessions.contains q = true ∨ q ∈ t'.world.held.retiring ∨ t'.Busy q)
    (hretired : q ∈ t.world.held.retiring →
      t'.sessions.contains q = true ∨ q ∈ t'.world.held.retiring ∨ t'.Busy q)
    (hbusy : t.Busy q →
      t'.sessions.contains q = true ∨ q ∈ t'.world.held.retiring ∨ t'.Busy q) : t'.Owned q := by
  intro hq
  rcases h (hcells hq) with h₁ | h₁ | h₁
  · exact hopen h₁
  · exact hretired h₁
  · exact hbusy h₁

theorem owned_thins (h : t.Owned q) {w : World σ} (hw : t.world.Thins w) :
    Owned { t with world := w } q := by
  refine owned_of h (fun hcells => ?_) (fun hopen => ?_) (fun hretired => ?_) (fun hbusy => ?_)
  · unfold Holds engine at *
    rwa [← hw.engine]
  · rcases hw.left q hopen with hstays | hgoes
    · exact .inl hstays
    · exact .inr (.inl hgoes)
  · exact .inr (.inl (hw.retiring hretired))
  · exact .inr (.inr hbusy)

theorem owned_begin (h : t.Owned q) (now : Nat) (id : SessionId) (prompt : String) (o : Overrides) :
    (t.begin now id prompt o).Owned q := by
  unfold begin
  split
  case h_2 => exact h
  case h_1 p service hb =>
    have hbegins := Service.begins hb
    refine owned_of h (fun hcells => ?_) (fun hopen => ?_) (fun hretired => ?_) (fun hbusy => ?_)
    · unfold Holds engine at *
      dsimp only at hcells
      rwa [hbegins.model] at hcells
    · exact .inl ((hbegins.contains q).trans hopen)
    · exact .inr (.inl hretired)
    · obtain ⟨u, hu, hq⟩ := hbusy
      exact .inr (.inr ⟨u, List.mem_append_left _ hu, hq⟩)

/-- The end of a turn takes its part away, and changes no cells. -/
theorem owned_next_ends {i nPast : Nat} {turn : Turn} {reply : Option String}
    (hi : t.parts[i]? = some (.measured turn reply nPast)) (now : Nat) :
    (t.next i now).Owned q ↔
      (t.Holds q → t.sessions.contains q = true ∨ q ∈ t.world.held.retiring ∨
        ∃ p ∈ t.parts.eraseIdx i, p.session = q) := by
  rw [next_ends hi]
  unfold Owned Holds engine sessions
  dsimp only
  rw [t.service.model_record, t.service.contains_record]
  rfl

theorem owned_next [CellContract σ] (ho : Orderly l t) (h : t.Owned q) (i now : Nat)
    (hn : ¬Strands q t (t.next i now)) : (t.next i now).Owned q := by
  rcases t.next_cases i now with hsame | ⟨p, p', service, hi, hp⟩ | ⟨turn, reply, nPast, hi⟩
  · rwa [hsame]
  · have hgoes := Service.goesOn (ho.faithful p (List.mem_of_getElem? hi)) hp
    rw [next_goes hi hp]
    by_cases hq : p.session = q
    · -- the turn owns what it adds
      exact fun _ => .inr (.inr ((busy_set _ hi hgoes.session).2 ⟨p, List.mem_of_getElem? hi, hq⟩))
    · refine owned_of h (fun hcells hnone => ?_) (fun hopen => ?_) (fun hretired => ?_) (fun hbusy => ?_)
      · exact hcells (hgoes.empty q (Ne.symm hq) hnone)
      · exact .inl ((congrArg (·.contains q) hgoes.sessions).trans hopen)
      · exact .inr (.inl hretired)
      · exact .inr (.inr ((busy_set _ hi hgoes.session).2 hbusy))
  · rw [owned_next_ends hi]
    intro hcells
    by_cases hq : turn.session = q
    · by_contra! hnobody
      obtain ⟨hgone, hretired, hlast⟩ := hnobody
      exact hn (.finish hi hq hcells (Bool.eq_false_iff.2 hgone) hretired hlast)
    · rcases h hcells with hopen | hretired | hbusy
      · exact .inl hopen
      · exact .inr (.inl hretired)
      · exact .inr (.inr ((busy_eraseIdx t.world hi hq).2 hbusy))

theorem owned_advance (ho : Orderly l t) (h : t.Owned q) (now : Nat)
    (hn : ¬Strands q t (t.advance now)) : (t.advance now).Owned q := by
  obtain ⟨w, hadv, heq⟩ := ho.advanced now
  cases hadv with
  | thinned hthins =>
    rw [heq]
    exact owned_thins h hthins
  | @removed id ids next hh =>
    by_cases hq : id = q
    · subst hq
      intro hcells
      by_contra! hnobody
      obtain ⟨hgone, hretired, hlast⟩ := hnobody
      rw [heq] at hgone hretired hlast
      exact hn (.refuse hh hcells (Bool.eq_false_iff.2 hgone) hretired hlast)
    · rw [heq]
      -- another sequence is out of reach of the deletion
      refine owned_of h (fun hcells hnone => hcells ?_) .inl (fun hretired => ?_)
        fun hbusy => .inr (.inr hbusy)
      · exact (cellsOf_remove_others (Ne.symm hq) 0 none).trans hnone
      · rw [hh] at hretired
        exact .inr (.inl ((List.mem_cons.1 hretired).resolve_left (Ne.symm hq)))
  | emptied hh hempty =>
    rw [heq]
    exact fun hcells => absurd (cellsOf_clear t.engine q) hcells
  | @inserted c sessions hh hc =>
    rw [heq]
    -- whom the insertion evicts is retired next
    refine owned_of h id (fun hopen => ?_) (fun hretired => ?_) fun hbusy => .inr (.inr hbusy)
    · rcases (SessionTable.create_get? hc).2.1 q hopen with hstays | hgoes
      · exact .inl hstays
      · exact .inr (.inl hgoes)
    · rw [hh] at hretired
      cases hretired
  | dropped hh =>
    rw [heq]
    refine fun hcells => .inr (.inr ?_)
    by_contra hidle
    exact hn (.drop hh hcells hidle)

theorem owned_load [CellContract σ] (h : t.Owned q) (path : String) (text : Option String) :
    Owned { t with world := t.world.loadStep path text } q := by
  obtain ⟨-, hsessions, hheld, hengine⟩ := t.world.loadStep_cases path text
  refine owned_of h (fun hcells hnone => hcells ?_) (fun hopen => ?_) (fun hretired => ?_)
    fun hbusy => .inr (.inr hbusy)
  · unfold engine at *
    rcases hengine with hsame | ⟨-, hreplaced⟩
    · dsimp only
      rwa [hsame]
    · dsimp only
      rw [hreplaced]
      exact Switch.cellsOf_replace hnone path text
  · exact .inl ((congrArg (·.contains q) hsessions).trans hopen)
  · exact .inr (.inl ((congrArg (q ∈ ·.retiring) hheld).mpr hretired))

/-- A step that does not strand a sequence leaves its cells to somebody. -/
theorem owned_step [CellContract σ] (ho : Orderly l t) (hs : Step t t') (h : t.Owned q)
    (hn : ¬Strands q t t') : t'.Owned q := by
  cases hs with
  | begin now id prompt o => exact owned_begin h now id prompt o
  | next i now => exact owned_next ho h i now hn
  | create hf => exact owned_thins h (World.thins_of_same ho.sound hf rfl rfl rfl rfl)
  | close id hf => exact owned_thins h (World.thins_of_same ho.sound hf rfl rfl rfl rfl)
  | replaced hf => exact owned_thins h (World.thins_of_same ho.sound hf rfl rfl rfl rfl)
  | load path text => exact owned_load h path text
  | advance now => exact owned_advance ho h now hn
  | elsewhere he =>
    exact owned_thins h (World.thins_of_same ho.sound rfl rfl he.sessions he.config
      (congrArg (·.engine) he.model))

/-- A step that strands a sequence leaves its cells to nobody. -/
theorem not_owned_of_strands (h : Strands q t t') : ¬t'.Owned q := by
  cases h with
  | finish hi hq hcells hgone hretired hlast =>
    rw [owned_next_ends hi]
    intro howned
    rcases howned hcells with hopen | hr | ⟨p, hp, hpq⟩
    · exact Bool.false_ne_true (hgone.symm.trans hopen)
    · exact hretired hr
    · exact hlast p hp hpq
  | drop hh hcells hidle =>
    rw [advance_drop hh]
    intro howned
    rcases howned hcells with hopen | hr | hbusy
    · cases hopen
    · cases hr
    · exact hidle hbusy
  | refuse hh hcells hgone hretired hidle =>
    rw [advance_retire hh] at hcells ⊢
    intro howned
    rcases howned hcells with hopen | hr | hbusy
    · exact Bool.false_ne_true (hgone.symm.trans hopen)
    · exact hretired hr
    · exact hidle hbusy

/-- Steps of all calls in any number and order, none of which strands a sequence. -/
abbrev RunSparing (q : SeqId) : Traffic σ → Traffic σ → Prop :=
  Relation.ReflTransGen fun t t' => Step t t' ∧ ¬Strands q t t'

theorem owned_run [CellContract σ] (hr : RunSparing q t t') (ho : Orderly l t) (h : t.Owned q) :
    Orderly l t' ∧ t'.Owned q := by
  -- over the steps taken so far
  induction hr with
  | refl => exact ⟨ho, h⟩
  | tail _ step ih =>
    obtain ⟨hs, hn⟩ := step
    exact ⟨orderly_step hs ih.1, owned_step ih.1 hs ih.2 hn⟩

/-- In every run, whatever sessions are opened, closed, evicted or dropped between the parts of turns: the
cells of a sequence belong to an open session once no turn is under way and the lock is free, as long
as no step has stranded it; and a step leaves them to nobody exactly where it strands it. -/
theorem cells_belong_to_open_session_unless_stranded [CellContract σ] (config : ServiceConfig) (e : σ)
    (q : SeqId) (he : cellsOf e q = []) (t : Traffic σ) (h : RunSparing q (opened config e) t) :
    (t.parts = [] → t.world.held = .free → t.Holds q → t.sessions.contains q = true) ∧
      t.Owned q ∧ ∀ t', Step t t' → (Strands q t t' ↔ ¬t'.Owned q) := by
  have hempty : (opened config e).Owned q := fun hcells => absurd he hcells
  obtain ⟨ho, howned⟩ := owned_run h (orderly_opened config e) hempty
  refine ⟨fun hparts hfree hcells => ?_, howned,
    fun t' hs => ⟨not_owned_of_strands, fun hnot => ?_⟩⟩
  · rcases howned hcells with hopen | hretired | ⟨p, hp, -⟩
    · exact hopen
    · rw [hfree] at hretired
      cases hretired
    · rw [hparts] at hp
      cases hp
  · by_contra hn
    exact hnot (owned_step ho hs howned hn)

section

instance (t : Traffic σ) (q : SeqId) : Decidable (t.Owned q) :=
  inferInstanceAs (Decidable (cellsOf t.engine q ≠ [] →
    t.sessions.contains q = true ∨ q ∈ t.world.held.retiring ∨ ∃ p ∈ t.parts, p.session = q))

theorem sparing_tail {t'' : Traffic σ} (hr : RunSparing q t t') (hs : Step t' t'') (ho : t''.Owned q) :
    RunSparing q t t'' :=
  hr.tail ⟨hs, fun h => not_owned_of_strands h ho⟩

theorem sparing_advances (t : Traffic σ) (now n : Nat) (id : SessionId)
    (hid : SessionTable.InRange id)
    (hfree : ∀ i < n, ((t.advances now i).sessions.searched (t.advances now i).service.sessionPolicy
      now).contains id = false)
    (howned : ∀ i < n, (t.advances now (i + 1)).Owned q) : RunSparing q t (t.advances now n) :=
  reach_advances t now n id hid hfree fun i hi hs => ⟨hs, fun h => not_owned_of_strands h (howned i hi)⟩

def start : Traffic LedgerEngine := opened { limits := { autoCleanup := false } } {}

/-- A session is open, and its turn has made room in the cache. -/
def prepared : Traffic LedgerEngine :=
  (((start.loaded "a").withSession 0).begin 1 1 "Hi" {}).next 0 1

/-- The turn has come to its end. -/
def answered : Traffic LedgerEngine := ((prepared.next 0 2).next 0 2).next 0 2

/-- The session is closed before the turn has generated anything. -/
def closed : Traffic LedgerEngine :=
  advances { prepared with world := { prepared.world with held := .close 1 } } 2 5

theorem sparing_prepared : RunSparing 1 start prepared := by
  have hnone : RunSparing 1 start start := .refl
  have hbegun := sparing_tail hnone (.load "a" none fun _ => rfl) (by decide)
  have hload := sparing_tail hbegun (.load "a" none fun _ => rfl) (by decide)
  have hcall := sparing_tail hload (.create rfl) (by decide)
  have hopen := hcall.trans (sparing_advances _ 0 7 9 (by decide) (by decide +kernel) (by decide +kernel))
  exact sparing_tail (sparing_tail hopen (.begin 1 1 "Hi" {}) (by decide +kernel)) (.next 0 1)
    (by decide +kernel)

theorem cells_belong_to_open_session_answered :
    cellsOf start.engine 1 = [] ∧ RunSparing 1 start answered ∧ answered.Holds 1 ∧
      answered.sessions.contains 1 = true := by
  have hgenerated := sparing_tail sparing_prepared (.next 0 2) (by decide +kernel)
  have hmeasured := sparing_tail hgenerated (.next 0 2) (by decide +kernel)
  have hrun : RunSparing 1 start answered := sparing_tail hmeasured (.next 0 2) (by decide +kernel)
  have hcells : answered.Holds 1 := by
    unfold Holds
    decide +kernel
  have h := cells_belong_to_open_session_unless_stranded { limits := { autoCleanup := false } }
    ({} : LedgerEngine) 1 rfl answered hrun
  exact ⟨rfl, hrun, hcells, h.1 rfl rfl hcells⟩

/-- The turn goes on after its session is closed, and the cells it adds are there for good. -/
theorem closed_session_leaves_cells :
    ∃ t : Traffic LedgerEngine, Run start t ∧ t.parts = [] ∧ t.world.held = .free ∧
      t.Holds 1 ∧ t.sessions.contains 1 = false := by
  have hprepared : Run start prepared :=
    Relation.ReflTransGen.mono (fun _ _ step => step.1) _ _ sparing_prepared
  have hclosed : Run { prepared with world := { prepared.world with held := .close 1 } } closed :=
    reach_advances _ 2 5 9 (by decide) (by decide +kernel) fun _ _ step => step
  have hrun : Run start closed := (hprepared.tail (.close 1 rfl)).trans hclosed
  refine ⟨((closed.next 0 3).next 0 3).next 0 3,
    ((hrun.tail (.next 0 3)).tail (.next 0 3)).tail (.next 0 3), rfl, rfl, ?_, by decide +kernel⟩
  unfold Holds
  decide +kernel

end

end ChatInference.Traffic
