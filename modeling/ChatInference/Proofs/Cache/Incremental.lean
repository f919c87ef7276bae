import ChatInference.Proofs.Cache.Rollback
import ChatInference.Engine.Local
import Mathlib.Logic.Function.Basic
import Mathlib.Logic.Relation

/-!
Feeding only what is new comes to the same as feeding everything. As long as every rendering extends the
last one that stands, the cells of a sequence are its last standing rendering, and the length it
remembers is that rendering's, whatever turns of whatever sequences failed in between.
-/

namespace ChatInference

/-- Taking the end off a run of cells. Positions are words. -/
theorem Ledger.filter_cellsFrom_tail {ts us : List Nat} (hfits : (ts ++ us).length < Position.limit) :
    ((cellsFrom 0 (ts ++ us)).filter fun x => !decide (Position.InRange ts.length none x.pos)) =
      cellsFrom 0 ts := by
  have hlen : (ts ++ us).length = ts.length + us.length := List.length_append
  have hhead : ((cellsFrom 0 ts).filter fun x =>
      !decide (Position.InRange ts.length none x.pos)) = cellsFrom 0 ts := by
    apply filter_spares
    intro x hx hin
    have hpos := (pos_of_mem_cellsFrom hx).2
    have hge := hin.1
    omega
  have htail : ((cellsFrom ts.length us).filter fun x =>
      !decide (Position.InRange ts.length none x.pos)) = [] := by
    apply List.filter_eq_nil_iff.2
    intro x hx
    have hpos := pos_of_mem_cellsFrom hx
    have hin : Position.InRange ts.length none x.pos := ⟨hpos.1, Nat.lt_sub_of_add_lt (by omega)⟩
    rw [decide_eq_true hin]
    exact Bool.false_ne_true
  rw [cellsFrom_append, List.filter_append, Nat.zero_add, hhead, htail, List.append_nil]

namespace StagingCache

/-- A turn that has not been taken back: its rendering, and what it takes to do so. -/
structure Standing where
  rendering : List Nat
  staged : Staged

/-- The last rendering of standing turns, the latest first; before the first turn it is empty. -/
def rendered : List Standing → List Nat
  | [] => []
  | t :: _ => t.rendering

/-- A cache, and of each sequence the turns that stand. -/
structure Dialogue where
  cache : StagingCache
  turns : SeqId → List Standing := fun _ => []

namespace Dialogue

def fresh (nCtx : Nat) : Dialogue := ⟨{ nCtx }, fun _ => []⟩

def staged (d : Dialogue) (seq : SeqId) (full : List Nat) : Dialogue :=
  ⟨(d.cache.stage seq full).2,
    Function.update d.turns seq (⟨full, (d.cache.stage seq full).1.2⟩ :: d.turns seq)⟩

theorem turns_staged (d : Dialogue) (seq : SeqId) (full : List Nat) :
    (d.staged seq full).turns seq = ⟨full, (d.cache.stage seq full).1.2⟩ :: d.turns seq :=
  Function.update_self _ _ _

/-- A rendering that may come next: it extends the last one that stands. Positions are words. -/
structure Extends (d : Dialogue) (seq : SeqId) (full : List Nat) : Prop where
  nonempty : full ≠ []
  fits : full.length < Position.limit
  grows : rendered (d.turns seq) <+: full

inductive Step (d : Dialogue) : Dialogue → Prop where
  | stage {seq : SeqId} {full : List Nat} (h : d.Extends seq full) : Step d (d.staged seq full)
  /-- A turn that fails takes along those of its sequence that were staged on top of it, and these do
  not fail a second time. Between its staging and its end, turns of other sequences come and go. -/
  | fail {seq : SeqId} {later earlier : List Standing} {t : Standing}
      (h : d.turns seq = later ++ t :: earlier) :
      Step d ⟨d.cache.rollback t.staged, Function.update d.turns seq earlier⟩

/-- Any steps, one after the other. -/
abbrev Run : Dialogue → Dialogue → Prop := Relation.ReflTransGen Step

end Dialogue

/-- What a sequence remembers of its last rendering; before the first turn there is nothing. -/
def remembered : List Nat → Option Nat
  | [] => none
  | t :: ts => some (t :: ts).length

theorem remembered_of_ne_nil {ts : List Nat} (h : ts ≠ []) : remembered ts = some ts.length := by
  cases ts with
  | nil => exact absurd rfl h
  | cons t ts => rfl

/-- Turns each of which extends the one before, and is undone to it. -/
inductive Stacked (seq : SeqId) : List Standing → Prop where
  | nil : Stacked seq []
  | cons {full : List Nat} {ts : List Standing} (hts : Stacked seq ts) (hne : full ≠ [])
      (hfits : full.length < Position.limit) (hgrows : rendered ts <+: full) :
      Stacked seq (⟨full, seq, (rendered ts).length, remembered (rendered ts)⟩ :: ts)

theorem Stacked.fits {seq : SeqId} {ts : List Standing} (h : Stacked seq ts) :
    (rendered ts).length < Position.limit := by
  cases h with
  | nil => decide
  | cons _ _ hfits _ => exact hfits

/-- The turns below others in a stack, and their last rendering as a part of the last of all. -/
theorem Stacked.of_append {seq : SeqId} {later ts : List Standing} (h : Stacked seq (later ++ ts)) :
    Stacked seq ts ∧ rendered ts <+: rendered (later ++ ts) := by
  induction later with
  | nil => exact ⟨h, List.prefix_rfl⟩
  | cons t later ih =>
    rw [List.cons_append] at h
    cases h with
    | cons hts hne hfits hgrows =>
      obtain ⟨hstacked, hbelow⟩ := ih hts
      exact ⟨hstacked, hbelow.trans hgrows⟩

/-- The cache holds of each sequence its last standing rendering, and remembers the length of it. -/
structure Faithful (d : Dialogue) : Prop where
  stacked : ∀ seq, Stacked seq (d.turns seq)
  cells : ∀ seq, d.cache.ledger.cells seq = Ledger.cellsFrom 0 (rendered (d.turns seq))
  ingested : ∀ seq, d.cache.ingested.get? seq = remembered (rendered (d.turns seq))

theorem faithful_fresh (nCtx : Nat) : Faithful (.fresh nCtx) := by
  refine ⟨fun _ => Stacked.nil, ?_, ?_⟩
  · intro seq
    change ((∅ : Keyed (List Cell)).get? seq).getD [] = []
    rw [Keyed.get?_empty]
    rfl
  · intro seq
    exact Keyed.get?_empty seq

variable {d : Dialogue} {seq : SeqId} {full : List Nat}

/-- What a stage does to a cache that holds what stands of its sequence. -/
theorem Faithful.stage (h : Faithful d) (hext : d.Extends seq full) :
    (d.cache.stage seq full).1 =
        (full, ⟨seq, (rendered (d.turns seq)).length, remembered (rendered (d.turns seq))⟩) ∧
      ∀ s, (d.cache.stage seq full).2.ledger.cells s =
          (if s = seq then Ledger.cellsFrom 0 full else d.cache.ledger.cells s) ∧
        (d.cache.stage seq full).2.ingested.get? s =
          if s = seq then some full.length else d.cache.ingested.get? s := by
  have hcells := h.cells seq
  have hseen := h.ingested seq
  obtain ⟨new, rfl⟩ := hext.grows
  by_cases hfirst : rendered (d.turns seq) = []
  · -- the first turn of its sequence
    rw [hfirst] at hcells ⊢
    have hover : d.cache.startsOver seq ([] ++ new).length = true := startsOver_iff.2 (.inl hcells)
    rw [stage_of_startsOver hover]
    dsimp only [Ledger.tokens]
    constructor
    · rw [Ledger.cells_replace, if_pos rfl, Ledger.tokens_cellsFrom]
      rfl
    · intro s
      exact ⟨Ledger.cells_replace _ _ _ _, Keyed.get?_set _ _ _ _⟩
  · -- later ones start where the last standing one ends, which is the length remembered
    rw [remembered_of_ne_nil hfirst] at hseen ⊢
    have hlen : d.cache.seen seq = (rendered (d.turns seq)).length := by
      unfold seen
      rw [hseen]
      rfl
    have hover : d.cache.startsOver seq (rendered (d.turns seq) ++ new).length = false := by
      apply Bool.eq_false_iff.2
      intro hover
      rcases startsOver_iff.1 hover with hnil | hlt
      · rw [hcells] at hnil
        have hzero := congrArg List.length hnil
        rw [Ledger.length_cellsFrom] at hzero
        exact hfirst (List.eq_nil_of_length_eq_zero hzero)
      · rw [hlen, List.length_append] at hlt
        omega
    have hall : d.cache.ledger.cells seq ++ Ledger.cellsFrom (d.cache.ledger.nextPos seq) new =
        Ledger.cellsFrom 0 (rendered (d.turns seq) ++ new) := by
      rw [hcells, Ledger.nextPos_of_cellsFrom hcells, Ledger.cellsFrom_append, Nat.zero_add]
    rw [stage_of_not_startsOver hover, hlen, List.drop_left, hseen]
    dsimp only [Ledger.tokens]
    constructor
    · rw [Ledger.cells_append, if_pos rfl, hall, Ledger.tokens_cellsFrom,
        Ledger.nextPos_of_cellsFrom hcells]
    · intro s
      rw [Ledger.cells_append, hall]
      exact ⟨rfl, Keyed.get?_set _ _ _ _⟩

theorem faithful_staged (h : Faithful d) (hext : d.Extends seq full) :
    Faithful (d.staged seq full) := by
  obtain ⟨hout, hcache⟩ := h.stage hext
  have hown := d.turns_staged seq full
  rw [hout] at hown
  have hothers : ∀ s, s ≠ seq → (d.staged seq full).turns s = d.turns s :=
    fun s hs => Function.update_of_ne hs _ _
  refine ⟨?_, ?_, ?_⟩ <;> intro s
  · by_cases hs : s = seq
    · rw [hs, hown]
      exact .cons (h.stacked seq) hext.nonempty hext.fits hext.grows
    · rw [hothers s hs]
      exact h.stacked s
  · refine (hcache s).1.trans ?_
    by_cases hs : s = seq
    · rw [if_pos hs, hs, hown]
      rfl
    · rw [if_neg hs, hothers s hs]
      exact h.cells s
  · refine (hcache s).2.trans ?_
    by_cases hs : s = seq
    · rw [if_pos hs, hs, hown]
      exact (remembered_of_ne_nil hext.nonempty).symm
    · rw [if_neg hs, hothers s hs]
      exact h.ingested s

theorem faithful_fail (h : Faithful d) {later earlier : List Standing} {t : Standing}
    (ht : d.turns seq = later ++ t :: earlier) :
    Faithful ⟨d.cache.rollback t.staged, Function.update d.turns seq earlier⟩ := by
  have hstacked := h.stacked seq
  have hcells := h.cells seq
  have hfits := hstacked.fits
  rw [ht] at hstacked hcells hfits
  obtain ⟨htop, hbelow⟩ := hstacked.of_append
  cases htop with
  | cons hearlier hne hfits' hgrows =>
    -- what stands after the failure is where the last of all renderings starts
    obtain ⟨more, hmore⟩ := hgrows.trans hbelow
    refine ⟨?_, ?_, ?_⟩ <;> intro s <;> dsimp only
    · by_cases hs : s = seq
      · rw [hs, Function.update_self]
        exact hearlier
      · rw [Function.update_of_ne hs]
        exact h.stacked s
    · rw [cells_rollback]
      by_cases hs : s = seq
      · rw [if_pos hs, hs, Function.update_self, hcells, ← hmore]
        rw [← hmore] at hfits
        exact Ledger.filter_cellsFrom_tail hfits
      · rw [if_neg hs, Function.update_of_ne hs]
        exact h.cells s
    · rw [ingested_rollback]
      by_cases hs : s = seq
      · rw [if_pos hs, hs, Function.update_self]
      · rw [if_neg hs, Function.update_of_ne hs]
        exact h.ingested s

theorem faithful_run {d d' : Dialogue} (h : Faithful d) (hrun : d.Run d') : Faithful d' := by
  induction hrun with
  | refl => exact h
  | tail _ hstep ih =>
    cases hstep with
    | stage hext => exact faithful_staged ih hext
    | fail ht => exact faithful_fail ih ht

/-- After any run of turns, a rendering that extends the last standing one of its sequence is fed in
whole, and its cells are those that a cache would have in which the sequence was empty. The next position
is the length of the rendering, and all other sequences stay as they are. -/
theorem stage_feeds_whole_rendering {nCtx : Nat} (hrun : Dialogue.Run (.fresh nCtx) d)
    (hext : d.Extends seq full) :
    let out := d.cache.stage seq full
    out.1.1 = full ∧ KvCache.nPast out.2 seq = full.length ∧
      (∀ c : StagingCache, c.ledger.cells seq = [] →
        out.1.1 = (c.stage seq full).1.1 ∧
          out.2.ledger.cells seq = (c.stage seq full).2.ledger.cells seq ∧
          out.2.ingested.get? seq = (c.stage seq full).2.ingested.get? seq) ∧
      ∀ s, s ≠ seq → out.2.ledger.cells s = d.cache.ledger.cells s ∧
        out.2.ingested.get? s = d.cache.ingested.get? s := by
  intro out
  have h : Faithful d := faithful_run (faithful_fresh nCtx) hrun
  obtain ⟨hout, hcache⟩ := h.stage hext
  have hprompt : out.1.1 = full := congrArg Prod.fst hout
  have hcells : out.2.ledger.cells seq = Ledger.cellsFrom 0 full := (hcache seq).1.trans (if_pos rfl)
  refine ⟨hprompt, Ledger.nextPos_of_cellsFrom hcells, ?_, ?_⟩
  · -- in a cache where the sequence is empty the whole rendering goes in at once
    intro c hc
    have hover : c.startsOver seq full.length = true := startsOver_iff.2 (.inl hc)
    refine ⟨?_, ?_, ?_⟩
    · rw [hprompt, stage_prompt, if_pos hover]
    · rw [hcells, stage_of_startsOver hover]
      exact ((Ledger.cells_replace _ _ _ _).trans (if_pos rfl)).symm
    · rw [stage_of_startsOver hover]
      refine ((hcache seq).2.trans (if_pos rfl)).trans ?_
      exact ((Keyed.get?_set _ _ _ _).trans (if_pos rfl)).symm
  · intro s hs
    exact ⟨(hcache s).1.trans (if_neg hs), (hcache s).2.trans (if_neg hs)⟩

/-- Two turns stand, of two sequences, and a third has failed on top of the first of them. -/
theorem stage_feeds_whole_rendering_after_failure :
    ∃ d : Dialogue, Dialogue.Run (.fresh 8) d ∧ d.Extends 1 [1, 2, 3, 9] ∧
      rendered (d.turns 1) = [1, 2, 3] ∧ (d.cache.stage 1 [1, 2, 3, 9]).1.1 = [1, 2, 3, 9] ∧
      KvCache.nPast (d.cache.stage 1 [1, 2, 3, 9]).2 1 = 4 := by
  let d₁ := (Dialogue.fresh 8).staged 1 [1, 2, 3]
  let d₂ := d₁.staged 2 [7]
  let d₃ := d₂.staged 1 [1, 2, 3, 4, 5]
  let d₄ : Dialogue := ⟨d₃.cache.rollback ⟨1, 3, some 3⟩,
    Function.update d₃.turns 1 [⟨[1, 2, 3], 1, 0, none⟩]⟩
  have h₁ : (Dialogue.fresh 8).Step d₁ := .stage ⟨by decide, by decide, by decide⟩
  have h₂ : d₁.Step d₂ := .stage ⟨by decide, by decide, by decide⟩
  have h₃ : d₂.Step d₃ := .stage ⟨by decide, by decide, by decide⟩
  have h₄ : d₃.Step d₄ :=
    @Dialogue.Step.fail d₃ 1 [] [⟨[1, 2, 3], 1, 0, none⟩] ⟨[1, 2, 3, 4, 5], 1, 3, some 3⟩ rfl
  have hrun : Dialogue.Run (.fresh 8) d₄ := (((Relation.ReflTransGen.single h₁).tail h₂).tail h₃).tail h₄
  have hext : d₄.Extends 1 [1, 2, 3, 9] := ⟨by decide, by decide, by decide⟩
  have h := stage_feeds_whole_rendering hrun hext
  exact ⟨d₄, hrun, hext, by decide, h.1, h.2.1⟩

/-- A turn that fails after one below it has failed puts back a length that no cells stand for. -/
example :
    let base := (({} : StagingCache).stage 1 [1]).2
    let first := base.stage 1 [1, 2, 3]
    let second := first.2.stage 1 [1, 2, 3, 4, 5]
    let failed := (second.2.rollback first.1.2).rollback second.1.2
    (failed.stage 1 [1, 7, 8, 9]).1.1 = [1, 9] := by decide

end StagingCache

namespace LocalEngine

open StagingCache

variable {e : LocalEngine} {d : Dialogue} {r : Request}

/-- A turn that comes as far as its prompt is answered, or taken back. -/
theorem generate_cases {m : LoadedModel} {slots : Slots} (hm : e.loaded = some m)
    (hs : e.slots = some slots) (hne : m.tokensOf r.messages ≠ []) :
    let out := e.cache.stage r.seq (m.tokensOf r.messages)
    (∃ g, e.generate r = (.ok g, { e with cache := out.2 })) ∨
      ∃ err, e.generate r = (.error err, { e with cache := out.2.rollback out.1.2 }) := by
  intro out
  have hempty : ¬(m.tokensOf r.messages).isEmpty = true := fun h => hne (List.isEmpty_iff.1 h)
  unfold generate complete
  rw [hm, hs]
  dsimp only
  rw [if_neg hempty]
  split
  · exact .inr ⟨_, rfl⟩
  · split
    · exact .inl ⟨_, rfl⟩
    · exact .inr ⟨_, rfl⟩

/-- A turn without a model, without slots or without a prompt leaves the engine alone. -/
theorem generate_of_unready (h : ∀ m slots, e.loaded = some m → e.slots = some slots →
    m.tokensOf r.messages = []) : ∃ err, e.generate r = (.error err, e) := by
  unfold generate complete
  split
  case h_1 m slots hm hs =>
    rw [if_pos (List.isEmpty_iff.2 (h m slots hm hs))]
    exact ⟨_, rfl⟩
  case h_2 => exact ⟨_, rfl⟩

/-- A turn of the engine stands where it is answered, and is taken back where it is not. -/
theorem generate_run (hd : d.cache = e.cache)
    (hext : ∀ m, e.loaded = some m → m.tokensOf r.messages ≠ [] →
      d.Extends r.seq (m.tokensOf r.messages)) :
    ∃ d', d.Run d' ∧ d'.cache = (e.generate r).2.cache ∧
      (∀ g, (e.generate r).1 = .ok g → ∃ m, e.loaded = some m ∧
        rendered (d'.turns r.seq) = m.tokensOf r.messages) ∧
      (∀ err, (e.generate r).1 = .error err → d'.turns = d.turns) := by
  by_cases hready : ∃ m slots, e.loaded = some m ∧ e.slots = some slots ∧ m.tokensOf r.messages ≠ []
  · -- the prompt is staged, and the turn stands or is taken back at once
    obtain ⟨m, slots, hm, hs, hne⟩ := hready
    have hstep : d.Step (d.staged r.seq (m.tokensOf r.messages)) := .stage (hext m hm hne)
    rcases generate_cases hm hs hne with ⟨g, hg⟩ | ⟨err, herr⟩
    · refine ⟨_, .single hstep, ?_, ?_, ?_⟩
      · rw [hg, ← hd]
        rfl
      · intro g' _
        refine ⟨m, hm, ?_⟩
        rw [Dialogue.turns_staged]
        rfl
      · intro err herr
        rw [hg] at herr
        cases herr
    · have hfail : (d.staged r.seq (m.tokensOf r.messages)).Step
          ⟨(d.staged r.seq (m.tokensOf r.messages)).cache.rollback
              (d.cache.stage r.seq (m.tokensOf r.messages)).1.2,
            Function.update (d.staged r.seq (m.tokensOf r.messages)).turns r.seq (d.turns r.seq)⟩ :=
        @Dialogue.Step.fail _ r.seq [] (d.turns r.seq) ⟨_, _⟩ (d.turns_staged _ _)
      refine ⟨_, (Relation.ReflTransGen.single hstep).tail hfail, ?_, ?_, ?_⟩
      · rw [herr, ← hd]
        rfl
      · intro g hg
        rw [herr] at hg
        cases hg
      · intro err' _
        dsimp only [Dialogue.staged]
        rw [Function.update_idem, Function.update_eq_self]
  · -- the turn does not come as far as its prompt
    have hunready : ∀ m slots, e.loaded = some m → e.slots = some slots →
        m.tokensOf r.messages = [] := by
      intro m slots hm hs
      by_contra hne
      exact hready ⟨m, slots, hm, hs, hne⟩
    obtain ⟨err, herr⟩ := generate_of_unready (r := r) hunready
    refine ⟨d, .refl, ?_, ?_, fun _ _ => rfl⟩
    · rw [herr, hd]
    · intro g hg
      rw [herr] at hg
      cases hg

/-- A turn is answered as if nothing had been ingested before it. -/
theorem generate_as_from_scratch (h : Faithful d) (hd : d.cache = e.cache)
    (hext : ∀ m, e.loaded = some m → m.tokensOf r.messages ≠ [] →
      d.Extends r.seq (m.tokensOf r.messages)) :
    (e.generate r).1 = ({ e with cache := e.cache.clear }.generate r).1 := by
  unfold generate complete
  dsimp only
  split
  case h_1 m slots hm hs =>
    by_cases hempty : (m.tokensOf r.messages).isEmpty = true
    · rw [if_pos hempty, if_pos hempty]
    · rw [if_neg hempty, if_neg hempty]
      have hne : m.tokensOf r.messages ≠ [] := fun hnil => hempty (List.isEmpty_iff.2 hnil)
      have hprompt : (e.cache.stage r.seq (m.tokensOf r.messages)).1.1 = m.tokensOf r.messages := by
        rw [← hd]
        exact congrArg Prod.fst (h.stage (hext m hm hne)).1
      have hscratch : (e.cache.clear.stage r.seq (m.tokensOf r.messages)).1.1 =
          m.tokensOf r.messages := by
        rw [stage_prompt, if_pos (startsOver_iff.2 (.inl rfl))]
      rw [hprompt, hscratch]
      split
      · rfl
      · split <;> rfl
  case h_2 => rfl

end LocalEngine

end ChatInference
