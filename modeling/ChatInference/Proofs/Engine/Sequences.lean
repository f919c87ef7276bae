import ChatInference.Proofs.Cache.Projection
import ChatInference.Proofs.Service.Loads

/-!
The cells of an engine's cache, by sequence. The contract says who adds cells: turns alone, each to the
sequence it is of. What precedes a turn, and what a load does, then fills no sequence that was empty.
-/

namespace ChatInference

open LedgerBacked (ledgerOf)

/-- The cells that a cache holds for a sequence. -/
def cellsOf {σ : Type} [KvCache σ] [LedgerBacked σ] (kv : σ) (q : SeqId) : List Cell :=
  (ledgerOf kv).cells q

/-- Turns work on their own sequence, and the life of a model adds no cells. -/
class CellContract (σ : Type) [InferenceEngine σ] [LedgerBacked σ] : Prop where
  generate_others {e : σ} {r : Request} {q : SeqId} :
    q ≠ r.seq → cellsOf (InferenceEngine.generate e r).2 q = cellsOf e q
  load_empty {e : σ} {q : SeqId} (path : String) (c : ModelConfig) :
    cellsOf e q = [] → cellsOf (InferenceEngine.load e path c).2 q = []
  start_empty {e : σ} {q : SeqId} (c : ModelConfig) :
    cellsOf e q = [] → cellsOf (InferenceEngine.start e c).2 q = []
  releaseSlots_empty {e : σ} {q : SeqId} :
    cellsOf e q = [] → cellsOf (InferenceEngine.releaseSlots e) q = []
  unload_empty {e : σ} {q : SeqId} :
    cellsOf e q = [] → cellsOf (InferenceEngine.unload e) q = []

section

variable {σ : Type} [KvCache σ] [LedgerBacked σ] {kv kv' : σ} {q seq : SeqId}

theorem nPast_congr (h : cellsOf kv' q = cellsOf kv q) : KvCache.nPast kv' q = KvCache.nPast kv q := by
  rw [Memory.nPast_eq, Memory.nPast_eq]
  exact Ledger.nextPos_congr h

theorem cellsOf_remove (kv : σ) (only : Option SeqId) (p0 : Nat) (p1 : Option Nat) (q : SeqId) :
    cellsOf (KvCache.remove kv only p0 p1).2 q = cellsOf kv q ∨
      ((only = none ∨ only = some q) ∧
        (cellsOf (KvCache.remove kv only p0 p1).2 q).Sublist (cellsOf kv q)) := by
  unfold cellsOf
  rw [LedgerBacked.remove_eq]
  split
  case isFalse => exact .inl rfl
  case isTrue =>
    rw [Ledger.cells_remove]
    split
    case isTrue hown => exact .inr ⟨hown, List.filter_sublist⟩
    case isFalse => exact .inl rfl

/-- The removal for one sequence leaves the others as they are. -/
theorem cellsOf_remove_others (hq : q ≠ seq) (p0 : Nat) (p1 : Option Nat) :
    cellsOf (KvCache.remove kv (some seq) p0 p1).2 q = cellsOf kv q := by
  rcases cellsOf_remove kv (some seq) p0 p1 q with hsame | ⟨hown, -⟩
  · exact hsame
  · rcases hown with hnone | hsome
    · cases hnone
    · cases hsome
      exact absurd rfl hq

theorem cellsOf_remove_empty (only : Option SeqId) (p0 : Nat) (p1 : Option Nat)
    (h : cellsOf kv q = []) : cellsOf (KvCache.remove kv only p0 p1).2 q = [] := by
  rcases cellsOf_remove kv only p0 p1 q with hsame | ⟨-, hsub⟩
  · exact hsame.trans h
  · exact List.sublist_nil.1 (h ▸ hsub)

theorem cellsOf_shift_others (hq : q ≠ seq) (p0 : Nat) (p1 : Option Nat) (delta : Int) :
    cellsOf (KvCache.shift kv seq p0 p1 delta) q = cellsOf kv q := by
  unfold cellsOf
  rw [LedgerBacked.shift_eq, Ledger.cells_shift, if_neg hq]

theorem cellsOf_shift_empty (seq : SeqId) (p0 : Nat) (p1 : Option Nat) (delta : Int)
    (h : cellsOf kv q = []) : cellsOf (KvCache.shift kv seq p0 p1 delta) q = [] := by
  by_cases hq : q = seq
  · unfold cellsOf at h ⊢
    rw [LedgerBacked.shift_eq, Ledger.cells_shift, if_pos hq, ← hq, h]
    exact List.mergeSort_nil
  · exact (cellsOf_shift_others hq p0 p1 delta).trans h

theorem cellsOf_clear (kv : σ) (q : SeqId) : cellsOf (KvCache.clear kv) q = [] := by
  unfold cellsOf
  rw [LedgerBacked.clear_eq]
  rfl

theorem cellsOf_prepareTurn_empty (m : Memory) (kv : σ) (seq : SeqId) (incoming : Nat) (predict : Int)
    (usage : Nat) (h : cellsOf kv q = []) :
    cellsOf (m.prepareTurn kv seq incoming predict usage).2 q = [] :=
  m.prepareTurn_preserves (P := fun kv => cellsOf kv q = []) incoming predict
    (fun _ p0 _ => cellsOf_remove_empty _ p0 _) (fun _ p0 _ delta => cellsOf_shift_empty _ p0 _ delta)
    (fun _ => ⟨fun _ p0 _ => cellsOf_remove_empty _ p0 _, fun kv _ => cellsOf_clear kv q⟩) h

/-- Where memory is not short, what precedes a turn leaves other sequences as they are. -/
theorem cellsOf_prepareTurn_others (m : Memory) (kv : σ) (incoming : Nat) (predict : Int) {usage : Nat}
    (hq : q ≠ seq) (hm : (m.refresh usage).underPressure = false) :
    cellsOf (m.prepareTurn kv seq incoming predict usage).2 q = cellsOf kv q :=
  m.prepareTurn_preserves (P := fun kv' => cellsOf kv' q = cellsOf kv q) incoming predict
    (fun _ p0 _ h => (cellsOf_remove_others hq p0 _).trans h)
    (fun _ p0 _ delta h => (cellsOf_shift_others hq p0 _ delta).trans h)
    (fun hshort => absurd (hm.symm.trans hshort) Bool.false_ne_true) rfl

end

namespace Switch

variable {σ : Type} [InferenceEngine σ] [LedgerBacked σ] [CellContract σ] {q : SeqId}

theorem cellsOf_bringUp {e : σ} (h : cellsOf e q = []) (path : String) (c : ModelConfig) :
    cellsOf (bringUp e path c).2 q = [] := by
  have hload := CellContract.load_empty path c h
  unfold bringUp
  split
  case h_1 err e' he =>
    rw [he] at hload
    exact hload
  case h_2 d e' he =>
    rw [he] at hload
    have hstart := CellContract.start_empty c hload
    split
    case h_1 e'' hs =>
      rw [hs] at hstart
      exact hstart
    case h_2 err e'' hs =>
      rw [hs] at hstart
      exact CellContract.unload_empty hstart

/-- A load fills no sequence, whether it succeeds or not. -/
theorem cellsOf_replace {s : Switch σ} (h : cellsOf s.engine q = []) (path : String)
    (text : Option String) : cellsOf (s.replace path text).2.engine q = [] := by
  unfold replace
  split
  · unfold hotSwap
    dsimp only
    -- the model before is gone with all of its cells, whether it comes back or not
    have hup := cellsOf_bringUp (CellContract.unload_empty (cellsOf_clear
      (InferenceEngine.releaseSlots s.engine) q)) path (s.state.config.mergeOrKeep text)
    split
    case h_1 d e he =>
      rw [he] at hup
      exact hup
    case h_2 err e he =>
      rw [he] at hup
      rw [restore_eq]
      have hback : cellsOf (s.bringBack e err).2 q = [] := by
        unfold bringBack
        split
        · exact cellsOf_bringUp hup _ _
        · exact hup
      split
      case h_1 d e' hb =>
        rw [hb] at hback
        exact hback
      case h_2 again e' hb =>
        rw [hb] at hback
        exact hback
  · unfold firstLoad
    dsimp only
    have hup := cellsOf_bringUp (CellContract.unload_empty
      (CellContract.releaseSlots_empty h)) path (ModelConfig.initial.mergeOrKeep text)
    split
    case h_1 d e he =>
      rw [he] at hup
      exact hup
    case h_2 err e he =>
      rw [he] at hup
      exact hup

end Switch

namespace LocalEngine

variable {e : LocalEngine} {q : SeqId}

theorem cellsOf_stage_others {c : StagingCache} {seq : SeqId} (hq : q ≠ seq) (full : List Nat) :
    (c.stage seq full).2.ledger.cells q = c.ledger.cells q ∧ (c.stage seq full).1.2.seq = seq := by
  cases hover : c.startsOver seq full.length with
  | true =>
    rw [StagingCache.stage_of_startsOver hover]
    exact ⟨(Ledger.cells_replace _ _ _ _).trans (if_neg hq), rfl⟩
  | false =>
    rw [StagingCache.stage_of_not_startsOver hover]
    exact ⟨(Ledger.cells_append _ _ _ _).trans (if_neg hq), rfl⟩

theorem cellsOf_generate_others {r : Request} (hq : q ≠ r.seq) :
    cellsOf (e.generate r).2 q = cellsOf e q := by
  by_cases hready : ∃ m slots, e.loaded = some m ∧ e.slots = some slots ∧ m.tokensOf r.messages ≠ []
  · obtain ⟨m, slots, hm, hs, hne⟩ := hready
    obtain ⟨hcells, hseq⟩ := cellsOf_stage_others (c := e.cache) hq (m.tokensOf r.messages)
    rcases generate_cases hm hs hne with ⟨g, hg⟩ | ⟨err, hg⟩
    · rw [hg]
      exact hcells
    · -- what is taken back is of the same sequence
      rw [hg]
      refine (StagingCache.cells_rollback _ _ q).trans ?_
      rw [hseq, if_neg hq]
      exact hcells
  · obtain ⟨err, hg⟩ := generate_of_unready (r := r) fun m slots hm hs => by
      by_contra hne
      exact hready ⟨m, slots, hm, hs, hne⟩
    rw [hg]

theorem cellsOf_load_empty (h : cellsOf e q = []) (path : String) : cellsOf (e.load path).2 q = [] := by
  unfold load
  split
  · exact h
  · rfl

theorem cellsOf_start (c : ModelConfig) : cellsOf (e.start c).2 q = cellsOf e q := by
  unfold start
  split
  · rfl
  · dsimp only
    split <;> rfl

theorem cellsOf_unload_empty (h : cellsOf e q = []) : cellsOf e.unload q = [] := by
  unfold unload
  split
  · rfl
  · exact h

end LocalEngine

instance : CellContract LocalEngine where
  generate_others := LocalEngine.cellsOf_generate_others
  load_empty path _ h := LocalEngine.cellsOf_load_empty h path
  start_empty c h := (LocalEngine.cellsOf_start c).trans h
  releaseSlots_empty h := h
  unload_empty := LocalEngine.cellsOf_unload_empty

/-- An engine that keeps a ledger: each turn adds two tokens, and loads succeed or fail as a list says. -/
structure LedgerEngine where
  cache : LedgerCache := { nCtx := 4096 }
  outcomes : List Bool := []

instance : InferenceEngine LedgerEngine where
  nCtx e := e.cache.nCtx
  posMax e seq := KvCache.posMax e.cache seq
  remove e seq p0 p1 := (true, { e with cache := (KvCache.remove e.cache seq p0 p1).2 })
  shift e seq p0 p1 delta := { e with cache := KvCache.shift e.cache seq p0 p1 delta }
  clear e := { e with cache := KvCache.clear e.cache }
  stamp _ _ := none
  load e _ _ :=
    (if e.outcomes.headD true then .ok ⟨"", 0, 0⟩ else .error .notLoaded,
      { e with outcomes := e.outcomes.tail })
  start e _ := (.ok (), e)
  releaseSlots e := e
  unload e := { e with cache := KvCache.clear e.cache }
  isLoaded _ := true
  pendingTokens _ _ _ := 2
  generate e r :=
    (.ok ⟨"", 2, 0, .endOfSequence⟩,
      { e with cache := { e.cache with ledger := e.cache.ledger.append r.seq [7, 7] } })

instance : LedgerBacked LedgerEngine where
  ledgerOf e := e.cache.ledger
  posMax_eq _ _ := rfl
  remove_eq _ _ _ _ := rfl
  shift_eq _ _ _ _ _ := rfl
  clear_eq _ := rfl

instance : CellContract LedgerEngine where
  generate_others hq := (Ledger.cells_append _ _ _ _).trans (if_neg hq)
  load_empty _ _ h := h
  start_empty _ h := h
  releaseSlots_empty h := h
  unload_empty _ := rfl

end ChatInference
