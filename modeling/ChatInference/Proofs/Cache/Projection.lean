import ChatInference.Proofs.Cache.Incremental
import ChatInference.Proofs.Cache.Preparation
import ChatInference.Proofs.Cache.Trimming

/-!
Whether a turn that is not preceded by a context shift fits its context. What the turn brings is measured
before the cache is tidied for it, and the length of the window after. A turn fits as long as the window
keeps its end; where tidying takes the end, the turn ingests that again, and no one has counted it.
-/

namespace ChatInference

namespace StagingCache

/-- What tidying does to a sequence: it deletes, and the sequence has ingested its rendering less far only
where it lost its last cell. -/
structure Tidied (seq : SeqId) (c c' : StagingCache) : Prop where
  nCtx : c'.nCtx = c.nCtx
  thinned : Ledger.Thinned c.ledger c'.ledger
  seen_le : c'.seen seq ≤ c.seen seq
  emptied : c'.ledger.length seq = 0 → c.ledger.length seq = 0 ∨ c'.seen seq = 0
  kept : 0 < c'.ledger.nextPos seq → c'.ledger.nextPos seq = c.ledger.nextPos seq →
    c'.seen seq = c.seen seq

variable {c c' c'' : StagingCache} {seq : SeqId} {full : List Nat}

theorem tidied_refl (h : c.ledger.InOrder) (seq : SeqId) : Tidied seq c c :=
  ⟨rfl, h.thinned, Nat.le_refl _, .inl, fun _ _ => rfl⟩

theorem Tidied.trans (h : Tidied seq c c') (h' : Tidied seq c' c'') : Tidied seq c c'' := by
  have hle := h.thinned.nextPos_le seq
  have hle' := h'.thinned.nextPos_le seq
  refine ⟨h'.nCtx.trans h.nCtx, h.thinned.trans h'.thinned, Nat.le_trans h'.seen_le h.seen_le,
    fun hempty => ?_, fun hpos hsame => ?_⟩
  · rcases h'.emptied hempty with hmid | hseen
    · have hseen' := h'.seen_le
      rcases h.emptied hmid with hbefore | hseen
      · exact .inl hbefore
      · exact .inr (by omega)
    · exact .inr hseen
  · -- the window can only have grown shorter, so that neither part has moved its end
    exact (h'.kept hpos (by omega)).trans (h.kept (by omega) (by omega))

/-- A removal that spares the last cell of a sequence makes it forget nothing. -/
theorem seen_remove_of_last (h : c.ledger.InOrder) (r : Removal)
    (hpos : 0 < c.ledger.nextPos seq)
    (hsame : (c.remove r.seq r.p0 r.p1).ledger.nextPos seq = c.ledger.nextPos seq) :
    (c.remove r.seq r.p0 r.p1).seen seq = c.seen seq := by
  have hle := seen_remove_le c r.seq r.p0 r.p1 seq
  unfold seen at hle ⊢
  cases hseen : c.ingested.get? seq with
  | none =>
    rw [hseen, Option.getD_none] at hle
    exact Nat.le_zero.1 hle
  | some n =>
    rw [hseen, Option.getD_some] at hle
    rw [Option.getD_some]
    rcases Nat.eq_zero_or_pos n with hzero | hn
    · omega
    · rw [(ingested_remove_iff hn hseen hpos (h.fits seq) r).2 hsame, Option.getD_some]

theorem tidied_remove (h : c.ledger.InOrder) (rm : Option SeqId) (p0 : Nat) (p1 : Option Nat) :
    Tidied seq c (c.remove rm p0 p1) := by
  refine ⟨rfl, Ledger.thinned_remove h rm p0 p1, seen_remove_le c rm p0 p1 seq,
    fun hempty => ?_, fun hpos hsame => ?_⟩
  · rw [ledger_remove] at hempty
    by_cases hrm : rm = none ∨ rm = some seq
    · right
      rw [seen_remove, if_pos hrm, if_pos hempty]
    · left
      unfold Ledger.length at hempty ⊢
      rwa [Ledger.cells_remove, if_neg hrm] at hempty
  · exact seen_remove_of_last h ⟨rm, p0, p1⟩ (by rwa [← hsame]) hsame

theorem seen_clear (c : StagingCache) (seq : SeqId) : c.clear.seen seq = 0 := by
  unfold seen
  rw [clear, Keyed.get?_empty, Option.getD_none]

theorem tidied_clear (h : c.ledger.InOrder) (seq : SeqId) : Tidied seq c c.clear := by
  refine ⟨rfl, Ledger.thinned_clear h, ?_, fun _ => .inr (seen_clear c seq), fun hpos => ?_⟩
  · rw [seen_clear]
    exact Nat.zero_le _
  · exact absurd hpos (Nat.lt_irrefl 0)

/-- A rendering that goes on where the last one ended makes a prompt of what the sequence holds, of what
is new since, and of what tidying has made it forget. -/
theorem Tidied.length_prompt (h : Tidied seq c c') (hheld : c.ledger.length seq ≠ 0)
    (hgrows : c.seen seq ≤ full.length) :
    (c'.stage seq full).1.1.length =
      c'.ledger.length seq + c.unseen seq full.length + (c.seen seq - c'.seen seq) := by
  have hle := h.seen_le
  have hnew : c.unseen seq full.length = full.length - c.seen seq := by
    have hover : c.startsOver seq full.length = false := by
      unfold startsOver
      rw [Bool.or_eq_false_iff, beq_eq_false_iff_ne, decide_eq_false_iff_not]
      exact ⟨hheld, Nat.not_lt_of_le hgrows⟩
    unfold unseen
    rw [hover, if_neg Bool.false_ne_true]
  rw [stage_prompt, hnew]
  split
  case isTrue hover =>
    rcases startsOver_iff.1 hover with hnil | hlt
    · -- an emptied sequence has forgotten all of its rendering
      have hempty : c'.ledger.length seq = 0 := congrArg List.length hnil
      have hseen := (h.emptied hempty).resolve_left hheld
      omega
    · omega
  case isFalse =>
    rw [List.length_append, List.length_drop, Ledger.tokens, List.length_map, ← Ledger.length]
    omega

/-- Where tidying leaves a window its end, no prompt is longer than the window and what the turn was said
to bring. -/
theorem Tidied.length_prompt_le (h : Tidied seq c c') (hc : c.ledger.InOrder)
    (hsame : c'.ledger.nextPos seq = c.ledger.nextPos seq) :
    (c'.stage seq full).1.1.length ≤ c'.ledger.nextPos seq + c.unseen seq full.length := by
  have hroom := hc.length_le_nextPos seq
  have hroom' := h.thinned.inOrder.length_le_nextPos seq
  by_cases hheld : c.ledger.length seq = 0
  · -- the whole rendering is new, before and after
    have hnil : c.ledger.cells seq = [] := List.eq_nil_of_length_eq_zero hheld
    have hnil' : c'.ledger.cells seq = [] := by
      by_contra hne
      have hpos := Ledger.nextPos_pos_iff.2 hne
      rw [hsame] at hpos
      exact Ledger.nextPos_pos_iff.1 hpos hnil
    rw [stage_prompt, if_pos (startsOver_iff.2 (.inl hnil')), unseen,
      if_pos (startsOver_iff.2 (.inl hnil)), hheld]
    omega
  · have hpos : 0 < c'.ledger.nextPos seq := by omega
    have hseen := h.kept hpos hsame
    by_cases hgrows : c.seen seq ≤ full.length
    · rw [h.length_prompt hheld hgrows]
      omega
    · rw [stage_prompt, if_pos (startsOver_iff.2 (.inr (by omega))), unseen,
        if_pos (startsOver_iff.2 (.inr (by omega)))]
      omega

end StagingCache

namespace LocalEngine

open StagingCache (Tidied)

instance : LedgerBacked LocalEngine where
  ledgerOf e := e.cache.ledger
  posMax_eq _ _ := rfl
  remove_eq _ _ _ _ := rfl
  shift_eq _ _ _ _ _ := rfl
  clear_eq _ := rfl

/-- What a turn on a conversation of these tokens feeds to the model. -/
def prompt (e : LocalEngine) (seq : SeqId) (full : List Nat) : List Nat :=
  (e.cache.stage seq full).1.1

/-- The engine after a turn that stands. -/
def fed (e : LocalEngine) (seq : SeqId) (full : List Nat) : LocalEngine :=
  { e with cache := (e.cache.stage seq full).2 }

/-- The engine after a turn that was taken back. -/
def takenBack (e : LocalEngine) (seq : SeqId) (full : List Nat) : LocalEngine :=
  let staged := e.cache.stage seq full
  { e with cache := staged.2.rollback staged.1.2 }

variable {e : LocalEngine} {r : Request} {full : List Nat}

/-- What an answered turn says it was fed. -/
theorem promptTokens_complete {m : LoadedModel} {slots : Slots} {g : Generation} {e' : LocalEngine}
    (h : e.complete m slots r full = (.ok g, e')) :
    g.promptTokens = (e.prompt r.seq full).length := by
  unfold complete at h
  dsimp only at h
  split at h
  · cases h
  · split at h
    · cases h
    · split at h
      · cases h
        rfl
      · cases h

/-- A turn of an engine is one on the tokens that its model makes of the messages. -/
theorem complete_of_generate {model : LoadedModel} (hm : e.loaded = some model) {g : Generation}
    {e' : LocalEngine} (h : e.generate r = (.ok g, e')) :
    ∃ slots, e.complete model slots r (model.tokensOf r.messages) = (.ok g, e') := by
  unfold generate at h
  split at h
  case h_1 m slots hm' hs =>
    rw [hm] at hm'
    cases hm'
    exact ⟨slots, h⟩
  case h_2 => cases h

theorem pendingTokens_eq {model : LoadedModel} (hm : e.loaded = some model) (seq : SeqId)
    (messages : List Message) :
    e.pendingTokens seq messages = e.pendingOf seq (model.tokensOf messages) := by
  unfold pendingTokens
  rw [hm]

/-- Short of the last word of 32 bits, what is pending is all that the sequence has not seen. -/
theorem pendingOf_of_lt {seq : SeqId} (h : e.pendingOf seq full < UInt32.size - 1) :
    e.pendingOf seq full = e.cache.unseen seq full.length := by
  unfold pendingOf at h ⊢
  omega

/-- Tidying touches nothing of the engine but its cache. -/
theorem tidied_cache (h : e.cache.ledger.InOrder) (m : Memory) (seq : SeqId) (usage : Nat) :
    ∃ c, (m.tidied e seq usage).2 = { e with cache := c } ∧ Tidied seq e.cache c := by
  refine Memory.tidied_preserves (P := fun e' : LocalEngine =>
    ∃ c, e' = { e with cache := c } ∧ Tidied seq e.cache c) m ?_ (fun _ => ⟨?_, ?_⟩)
    ⟨e.cache, rfl, StagingCache.tidied_refl h seq⟩
  · rintro _ p0 p1 ⟨c, rfl, hc⟩
    exact ⟨c.remove (some seq) p0 (some p1), rfl,
      hc.trans (StagingCache.tidied_remove hc.thinned.inOrder _ _ _)⟩
  · rintro _ p0 p1 ⟨c, rfl, hc⟩
    exact ⟨c.remove none p0 (some p1), rfl,
      hc.trans (StagingCache.tidied_remove hc.thinned.inOrder _ _ _)⟩
  · rintro _ ⟨c, rfl, hc⟩
    exact ⟨c.clear, rfl, hc.trans (StagingCache.tidied_clear hc.thinned.inOrder seq)⟩

/-- What precedes a turn without a context shift tidies the cache, and leaves room in the context for what the
turn was said to bring and to answer. -/
theorem prepared_without_shift {m : Memory} {seq : SeqId} {incoming : Nat} {predict : Int} {usage : Nat}
    (h : e.cache.ledger.InOrder) (hpolicy : m.policy.contextShifting = true)
    (hctx : e.cache.nCtx < UInt32.size - 1) (hskip : m.shiftsFor e seq incoming predict usage = false) :
    ∃ c, (m.prepareTurn e seq incoming predict usage).2 = { e with cache := c } ∧ Tidied seq e.cache c ∧
      c.ledger.nextPos seq + incoming + predict.toNat ≤ e.cache.nCtx := by
  obtain ⟨c, hc, htidied⟩ := tidied_cache h m seq usage
  refine ⟨c, ?_, htidied, ?_⟩
  · rw [Memory.prepareTurn_eq, hskip, if_neg Bool.false_ne_true, hc]
  · -- no word has overflowed, so that the projection is the sum it stands for
    unfold Memory.shiftsFor at hskip
    dsimp only at hskip
    rw [Memory.policy_tidied, hpolicy, Bool.true_and, decide_eq_false_iff_not, Nat.not_lt, hc] at hskip
    change Memory.projected (c.ledger.nextPos seq) incoming _ ≤ c.nCtx at hskip
    rwa [htidied.nCtx, Memory.projected_le_iff hctx] at hskip

/-- An engine with the memory that keeps its cache. -/
structure Attended where
  memory : Memory
  engine : LocalEngine

namespace Attended

/-- Any engine whose cache is empty. -/
def fresh (policy : MemoryPolicy) (e : LocalEngine) : Attended :=
  ⟨{ policy }, { e with cache := e.cache.clear }⟩

/-- Whether the positions of a turn are words. -/
def Fits (e : LocalEngine) (seq : SeqId) (full : List Nat) : Prop :=
  (e.fed seq full).cache.ledger.nextPos seq < Position.limit

/-- A turn stands or is taken back, whatever the tokens of its conversation; upkeep is done, or the model is
changed. -/
inductive Step (a : Attended) : Attended → Prop where
  | fed {seq : SeqId} {full : List Nat} (hfits : Fits a.engine seq full) :
      Step a { a with engine := a.engine.fed seq full }
  | takenBack {seq : SeqId} {full : List Nat} (hfits : Fits a.engine seq full) :
      Step a { a with engine := a.engine.takenBack seq full }
  | upkeep (op : Upkeep) : Step a ⟨(op.run a.memory a.engine).1, (op.run a.memory a.engine).2⟩
  | load (path : String) : Step a { a with engine := (a.engine.load path).2 }
  | start (c : ModelConfig) : Step a { a with engine := (a.engine.start c).2 }
  | releaseSlots : Step a { a with engine := a.engine.releaseSlots }
  | unload : Step a { a with engine := a.engine.unload }

/-- Any steps, one after the other. -/
abbrev Run : Attended → Attended → Prop := Relation.ReflTransGen Step

variable {a a' : Attended}

/-- Each turn is one of these steps, or none. -/
theorem run_generate (hfits : ∀ model, a.engine.loaded = some model →
    Fits a.engine r.seq (model.tokensOf r.messages)) :
    Run a { a with engine := (a.engine.generate r).2 } := by
  by_cases hready : ∃ m slots, a.engine.loaded = some m ∧ a.engine.slots = some slots ∧
      m.tokensOf r.messages ≠ []
  · obtain ⟨m, slots, hm, hs, hne⟩ := hready
    rcases generate_cases hm hs hne with ⟨g, hg⟩ | ⟨err, herr⟩
    · rw [hg]
      exact .single (.fed (hfits m hm))
    · rw [herr]
      exact .single (.takenBack (hfits m hm))
  · have hunready : ∀ m slots, a.engine.loaded = some m → a.engine.slots = some slots →
        m.tokensOf r.messages = [] := by
      intro m slots hm hs
      by_contra hne
      exact hready ⟨m, slots, hm, hs, hne⟩
    obtain ⟨err, herr⟩ := generate_of_unready hunready
    rw [herr]

theorem inOrder_step (h : a.engine.cache.ledger.InOrder) (hstep : a.Step a') :
    a'.engine.cache.ledger.InOrder := by
  have hclear := (Ledger.thinned_clear h).inOrder
  cases hstep with
  | fed hfits => exact StagingCache.inOrder_stage h hfits
  | takenBack hfits => exact (Ledger.thinned_remove (StagingCache.inOrder_stage h hfits) _ _ _).inOrder
  | upkeep op =>
    have h : (LedgerBacked.ledgerOf a.engine).InOrder := h
    exact (op.upkept_run h a.memory).thinned.inOrder
  | load path =>
    dsimp only [load]
    split
    · exact h
    · exact hclear
  | start c =>
    dsimp only [start]
    split
    · exact h
    · split
      · exact h
      · exact h
  | releaseSlots => exact h
  | unload =>
    dsimp only [unload]
    split
    · exact hclear
    · exact h

theorem inOrder_run (h : a.engine.cache.ledger.InOrder) (hrun : a.Run a') :
    a'.engine.cache.ledger.InOrder := by
  induction hrun with
  | refl => exact h
  | tail _ hstep ih => exact inOrder_step ih hstep

/-- After any run of turns and upkeep, let a turn come for which no context shift is attempted, and let any
function make tokens of its messages. If tidying leaves the window of the turn its end, the prompt leaves the
room that the reply may take. If not, it does so exactly when there is room as well for what the sequence has
forgotten, as long as the conversation goes on where it was. The function that the loaded model has is one
of these: what it makes of the messages is what the engine measures, and what an answered turn was fed. -/
theorem turn_without_shift_fits_iff {policy : MemoryPolicy} (hrun : Run (.fresh policy e) a)
    (hpolicy : a.memory.policy.contextShifting = true)
    (hctx : a.engine.cache.nCtx < UInt32.size - 1) (tokensOf : List Message → List Nat) (usage : Nat)
    (hskip : a.memory.shiftsFor a.engine r.seq (a.engine.pendingOf r.seq (tokensOf r.messages))
      r.maxTokens usage = false) :
    let full := tokensOf r.messages
    let pending := a.engine.pendingOf r.seq full
    let e' := (a.memory.prepareTurn a.engine r.seq pending r.maxTokens usage).2
    let forgotten := a.engine.cache.seen r.seq - e'.cache.seen r.seq
    let fits := (e'.prompt r.seq full).length + r.maxTokens.toNat ≤ a.engine.cache.nCtx
    (KvCache.nPast e' r.seq = KvCache.nPast a.engine r.seq → fits) ∧
      (a.engine.cache.ledger.length r.seq ≠ 0 → a.engine.cache.seen r.seq ≤ full.length →
        (fits ↔ e'.cache.ledger.length r.seq + pending + forgotten + r.maxTokens.toNat ≤
          a.engine.cache.nCtx)) ∧
      (∀ m slots g e'', e'.complete m slots r full = (.ok g, e'') →
        g.promptTokens = (e'.prompt r.seq full).length) ∧
      ∀ model, a.engine.loaded = some model → tokensOf = model.tokensOf →
        a.engine.pendingTokens r.seq r.messages = pending ∧
          ∀ g e'', e'.generate r = (.ok g, e'') →
            g.promptTokens = (e'.prompt r.seq full).length := by
  intro full pending e' forgotten fits
  have h : a.engine.cache.ledger.InOrder := inOrder_run Ledger.inOrder_empty hrun
  obtain ⟨c, hc, htidied, hsum⟩ := prepared_without_shift h hpolicy hctx hskip
  have he' : e' = { a.engine with cache := c } := hc
  have hroom : c.ledger.nextPos r.seq + pending + r.maxTokens.toNat ≤ a.engine.cache.nCtx := hsum
  have hprompt : e'.prompt r.seq full = (c.stage r.seq full).1.1 := by
    rw [he']
    rfl
  have hpending : pending = a.engine.cache.unseen r.seq full.length := by
    refine pendingOf_of_lt (Nat.lt_of_le_of_lt ?_ hctx)
    omega
  refine ⟨fun hsame => ?_, fun hheld hgrows => ?_, fun m slots g e'' hg => promptTokens_complete hg,
    fun model hm htokens => ?_⟩
  · rw [he'] at hsame
    have hle : (c.stage r.seq full).1.1.length ≤
        c.ledger.nextPos r.seq + a.engine.cache.unseen r.seq full.length :=
      htidied.length_prompt_le h hsame
    change (e'.prompt r.seq full).length + r.maxTokens.toNat ≤ a.engine.cache.nCtx
    rw [hprompt]
    omega
  · have hlen := htidied.length_prompt hheld hgrows
    change (e'.prompt r.seq full).length + r.maxTokens.toNat ≤ a.engine.cache.nCtx ↔ _
    dsimp only [forgotten]
    rw [hprompt, hlen, he', hpending]
  · subst htokens
    refine ⟨pendingTokens_eq hm r.seq r.messages, fun g e'' hg => ?_⟩
    have hm' : e'.loaded = some model := by
      rw [he']
      exact hm
    obtain ⟨slots, hcomplete⟩ := complete_of_generate hm' hg
    exact promptTokens_complete hcomplete

/-- A vocabulary without a word, so that each character is a token, and a template that adds sixteen to
what a user says. -/
def charwise : LoadedModel :=
  { file := default
    tokenizer := ⟨[], []⟩
    special := ⟨0, 0, "", ""⟩
    template := ⟨.mistral, none, "", ""⟩ }

def listening (nCtx : Nat) : LocalEngine := { cache := { nCtx }, loaded := some charwise }

/-- Windows of more than eight tokens are trimmed. -/
def trimming (strategy : DeletionStrategy) : MemoryPolicy :=
  { maxCacheTokens := 8, chosenStrategy := some strategy }

def asking (messages : List Message) : Request :=
  { (default : Request) with seq := 1, messages, maxTokens := 4 }

def greeting : Request := asking [⟨.user, "a"⟩]

def answer : Request := asking [⟨.user, "a"⟩, ⟨.assistant, "bc"⟩, ⟨.user, "d"⟩]

/-- The service after the greeting, in a context of so many positions. -/
def greeted (strategy : DeletionStrategy) (nCtx : Nat) : Attended :=
  { memory := { policy := trimming strategy }
    engine := (listening nCtx).fed 1 (charwise.tokensOf greeting.messages) }

theorem run_greeted (strategy : DeletionStrategy) (nCtx : Nat) :
    Run (.fresh (trimming strategy) (listening nCtx)) (greeted strategy nCtx) := by
  have hfits : Fits (listening nCtx) 1 (charwise.tokensOf greeting.messages) := by
    change (Ledger.replace {} 1 (charwise.tokensOf greeting.messages)).nextPos 1 < Position.limit
    decide
  exact .single (.fed hfits)

/-- A trim takes the head of a window of sixteen tokens, and eighteen are new. -/
theorem turn_without_shift_fits_behind_gap :
    ∃ a : Attended, Run (.fresh (trimming .lru) (listening 40)) a ∧
      a.engine.loaded = some charwise ∧ a.memory.policy.contextShifting = true ∧
      a.engine.cache.ledger.length 1 = 16 ∧
      a.memory.shiftsFor a.engine 1 (a.engine.pendingTokens 1 answer.messages) 4 0 = false ∧
      (((a.memory.prepareTurn a.engine 1 (a.engine.pendingTokens 1 answer.messages) 4 0).2.prompt 1
        (charwise.tokensOf answer.messages)).length + (4 : Int).toNat ≤ 40) := by
  have hrun := run_greeted .lru 40
  have hskip : (greeted .lru 40).memory.shiftsFor (greeted .lru 40).engine 1
      ((greeted .lru 40).engine.pendingTokens 1 answer.messages) 4 0 = false := by decide
  have hend : KvCache.nPast ((greeted .lru 40).memory.prepareTurn (greeted .lru 40).engine 1
      ((greeted .lru 40).engine.pendingTokens 1 answer.messages) 4 0).2 1 =
        KvCache.nPast (greeted .lru 40).engine 1 := by decide
  have h := turn_without_shift_fits_iff (r := answer) hrun rfl (by decide) charwise.tokensOf 0 hskip
  exact ⟨_, hrun, rfl, rfl, by decide, hskip, h.1 hend⟩

/-- A trim takes the end of the window: the turn was said to bring eighteen tokens and brings 22. -/
theorem turn_without_shift_outgrows_context :
    ∃ a : Attended, Run (.fresh (trimming .fifo) (listening 36)) a ∧
      a.engine.loaded = some charwise ∧ a.memory.policy.contextShifting = true ∧
      a.engine.cache.nCtx = 36 ∧ a.engine.pendingTokens 1 answer.messages = 18 ∧
      a.memory.shiftsFor a.engine 1 18 4 0 = false ∧
      KvCache.nPast (a.memory.prepareTurn a.engine 1 18 4 0).2 1 = 12 ∧
      ((a.memory.prepareTurn a.engine 1 18 4 0).2.prompt 1
        (charwise.tokensOf answer.messages)).length = 34 ∧
      ¬(34 + (4 : Int).toNat ≤ 36) :=
  ⟨greeted .fifo 36, run_greeted .fifo 36, rfl, rfl, rfl, by decide, by decide, by decide, by decide,
    by decide⟩

end Attended

end LocalEngine

end ChatInference
