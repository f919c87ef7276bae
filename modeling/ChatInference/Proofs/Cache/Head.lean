import ChatInference.Proofs.Cache.Preparation

/-!
The head of a window under smart deletion. Every range that a memory removes by its policy begins past
the positions that are to be kept, also where it is measured on the longest sequence and taken from
all of them; and no cell that a shift moves down ends among those positions. So all sequences keep
their heads through any run, and only appends add to them.
-/

namespace ChatInference

/-- Smart deletion begins past the head of a window, however short the window is. -/
theorem DeletionStrategy.keep_le_of_smart {keep past : Nat} {range : Nat × Nat}
    (h : smart.range? keep past = some range) : keep ≤ range.1 := by
  obtain ⟨hbounds, -⟩ := Option.filter_eq_some_iff.1 h
  simp only [bounds?] at hbounds
  split at hbounds
  case isFalse => cases hbounds
  case isTrue =>
    cases hbounds
    exact Nat.le_add_right keep _

theorem ShiftPlan.plan?_keep {keep past discard : Nat} {p : ShiftPlan}
    (h : plan? keep past discard = some p) : p.keep = keep := by
  unfold plan? at h
  split at h
  case isFalse => cases h
  case isTrue =>
    cases h
    rfl

namespace Ledger

/-- The cells of a sequence at the positions below `keep`. -/
def head (l : Ledger) (keep : Nat) (seq : SeqId) : List Cell :=
  (l.cells seq).filter fun c => c.pos < keep

/-- Each sequence has the same cells at the positions below `keep`, each as often as before. -/
def SameHeads (keep : Nat) (l l' : Ledger) : Prop :=
  ∀ seq, (l'.head keep seq).Perm (l.head keep seq)

variable {l l' l'' : Ledger} {keep : Nat}

theorem mem_head {seq : SeqId} {c : Cell} :
    c ∈ l.head keep seq ↔ c ∈ l.cells seq ∧ c.pos < keep := by
  simp only [head, List.mem_filter, decide_eq_true_eq]

theorem sameHeads_refl (keep : Nat) (l : Ledger) : SameHeads keep l l :=
  fun _ => List.Perm.refl _

theorem SameHeads.trans (h : SameHeads keep l l') (h' : SameHeads keep l' l'') :
    SameHeads keep l l'' :=
  fun seq => (h' seq).trans (h seq)

theorem head_append (l : Ledger) (seq : SeqId) (ts : List Nat) (keep : Nat) (s : SeqId) :
    (l.head keep s).Sublist ((l.append seq ts).head keep s) := by
  unfold head
  rw [cells_append]
  by_cases hs : s = seq
  · subst hs
    rw [if_pos rfl, List.filter_append]
    exact List.sublist_append_left _ _
  · rw [if_neg hs]

theorem sameHeads_remove (l : Ledger) {seq : Option SeqId} {p0 : Nat} {p1 : Option Nat}
    (h : keep ≤ p0) : SameHeads keep l (l.remove seq p0 p1) := by
  intro s
  apply List.Perm.of_eq
  unfold head
  rw [cells_remove]
  split
  case isFalse => rfl
  case isTrue =>
    rw [List.filter_filter]
    apply List.filter_congr
    intro c _
    by_cases hc : c.pos < keep
    · -- a cell of the head stands before the range
      have hout : ¬Position.InRange p0 p1 c.pos := by
        intro hin
        have := hin.1
        omega
      simp only [hc, hout, decide_true, decide_false, Bool.not_false, Bool.and_self]
    · simp only [hc, decide_false, Bool.false_and]

/-- A shift neither takes a cell out of the head nor puts one in, where both the range and what it
moves to begin past the head. -/
theorem filter_shiftCell? {p0 : Nat} {p1 : Option Nat} {delta : Int} (h : keep ≤ p0)
    (hdelta : (keep : Int) ≤ p0 + delta) (cells : List Cell) :
    (cells.filterMap (shiftCell? p0 p1 delta)).filter (fun c => c.pos < keep) =
      cells.filter fun c => c.pos < keep := by
  induction cells with
  | nil => rfl
  | cons c cells ih =>
    by_cases hc : c.pos < keep
    · have hout : ¬Position.InRange p0 p1 c.pos := by
        intro hin
        have := hin.1
        omega
      rw [List.filterMap_cons_some (shiftCell?_of_not_inRange delta hout),
        List.filter_cons_of_pos (by simpa using hc), List.filter_cons_of_pos (by simpa using hc), ih]
    · rw [List.filter_cons_of_neg (by simpa using hc)]
      cases hd : shiftCell? p0 p1 delta c with
      | none =>
        rw [List.filterMap_cons_none hd]
        exact ih
      | some d =>
        have hfar : ¬d.pos < keep := by
          rcases (shiftCell?_some hd).2 with ⟨-, hsame⟩ | ⟨hin, hmoved, -⟩
          · omega
          · have := hin.1
            omega
        rw [List.filterMap_cons_some hd, List.filter_cons_of_neg (by simpa using hfar)]
        exact ih

theorem sameHeads_shift (l : Ledger) {seq : SeqId} {p0 : Nat} {p1 : Option Nat} {delta : Int}
    (h : keep ≤ p0) (hdelta : (keep : Int) ≤ p0 + delta) :
    SameHeads keep l (l.shift seq p0 p1 delta) := by
  intro s
  unfold head
  rw [cells_shift]
  split
  case isFalse => exact List.Perm.refl _
  case isTrue hs =>
    subst hs
    -- sorting may change the order of cells, and nothing else
    have hsort : (shiftCells p0 p1 delta (l.cells s)).Perm
        ((l.cells s).filterMap (shiftCell? p0 p1 delta)) := List.mergeSort_perm _ _
    calc
      ((shiftCells p0 p1 delta (l.cells s)).filter fun c => c.pos < keep).Perm
          (((l.cells s).filterMap (shiftCell? p0 p1 delta)).filter fun c => c.pos < keep) :=
        hsort.filter _
      _ = (l.cells s).filter fun c => c.pos < keep := filter_shiftCell? h hdelta (l.cells s)

end Ledger

open LedgerBacked (ledgerOf)
open Ledger (SameHeads)

namespace Memory

variable {σ : Type} [KvCache σ] {m : Memory}

theorem policy_contextShift (m : Memory) (kv : σ) (seq : SeqId) :
    (m.contextShift kv seq).2.1.policy = m.policy := by
  unfold contextShift
  split
  · split
    · rfl
    · split <;> rfl
  · rfl

/-- A partial deletion that is allowed fails only where the cache refuses the removal. -/
theorem clearPartial_ok (haccepts : ∀ (kv : σ) seq p0 p1, (KvCache.remove kv seq p0 p1).1 = true)
    (hpartial : m.policy.partialDeletion = true) (kv : σ) (seq : Option SeqId)
    (strategy : DeletionStrategy) : ∃ n, (m.clearPartial kv seq strategy).1 = .ok n := by
  unfold clearPartial
  rw [if_pos hpartial]
  split
  case h_1 => exact ⟨0, rfl⟩
  case h_2 range _ =>
    have hdone := haccepts kv seq range.1 (some range.2)
    split
    case h_1 kv' hr =>
      rw [hr] at hdone
      cases hdone
    case h_2 kv' hr => exact ⟨range.2 - range.1, rfl⟩

/-- Relief is the partial deletion, where that is allowed and not refused. -/
theorem relieve_cache (haccepts : ∀ (kv : σ) seq p0 p1, (KvCache.remove kv seq p0 p1).1 = true)
    (hpartial : m.policy.partialDeletion = true) (kv : σ) (usage : Nat) :
    (m.relieve kv usage).2 =
      ((m.count fun c => { c with pressureEvents := c.pressureEvents + 1 }).clearPartial kv none
        m.policy.deletionStrategy).2.2 := by
  obtain ⟨n, hok⟩ := clearPartial_ok
    (m := m.count fun c => { c with pressureEvents := c.pressureEvents + 1 }) haccepts hpartial kv
    none m.policy.deletionStrategy
  unfold relieve
  dsimp only
  split
  case h_1 n' m' kv' hr =>
    change Memory.clearPartial _ kv none m.policy.deletionStrategy = _ at hr
    rw [hr]
  case h_2 e m' kv' hr =>
    change Memory.clearPartial _ kv none m.policy.deletionStrategy = _ at hr
    rw [hr] at hok
    cases hok

variable [LedgerBacked σ] {kv : σ}

theorem sameHeads_cacheRemove {keep p0 : Nat} (h : keep ≤ p0) (kv : σ) (seq : Option SeqId)
    (p1 : Option Nat) :
    SameHeads keep (ledgerOf kv) (ledgerOf (KvCache.remove kv seq p0 p1).2) := by
  rw [LedgerBacked.remove_eq]
  split
  · exact Ledger.sameHeads_remove _ h
  · exact Ledger.sameHeads_refl keep _

/-- The discarded range begins where the head ends, and what is left of the window closes up to it. -/
theorem sameHeads_contextShift (m : Memory) (kv : σ) (seq : SeqId) :
    SameHeads m.policy.keepTokens (ledgerOf kv) (ledgerOf (m.contextShift kv seq).2.2) := by
  rcases m.contextShift_cache kv seq with hkv | ⟨plan, hplan, hkv⟩
  · rw [hkv]
    exact Ledger.sameHeads_refl _ _
  · have hkeep := ShiftPlan.plan?_keep hplan
    have hremoved := sameHeads_cacheRemove (Nat.le_of_eq hkeep.symm) kv (some seq) (some plan.cut)
    dsimp only at hkv
    rw [hkv]
    split
    case isFalse => exact hremoved
    case isTrue =>
      have hcut : plan.cut = plan.keep + plan.discard := rfl
      have hlow := neg_le_leftBy plan.discard
      rw [LedgerBacked.shift_eq]
      apply hremoved.trans
      apply Ledger.sameHeads_shift
      · omega
      · omega

theorem sameHeads_clearPartial (m : Memory) (kv : σ) (seq : Option SeqId) :
    SameHeads m.policy.keepTokens (ledgerOf kv)
      (ledgerOf (m.clearPartial kv seq .smart).2.2) := by
  rcases m.clearPartial_cache kv seq .smart with hkv | ⟨range, hrange, hkv⟩
  · rw [hkv]
    exact Ledger.sameHeads_refl _ _
  · rw [hkv]
    exact sameHeads_cacheRemove (DeletionStrategy.keep_le_of_smart hrange) kv seq (some range.2)

theorem sameHeads_trim (hsmart : m.policy.deletionStrategy = .smart) (kv : σ) (seq : SeqId) :
    SameHeads m.policy.keepTokens (ledgerOf kv) (ledgerOf (m.trim kv seq).2.2) := by
  unfold trim
  rw [hsmart]
  split
  · exact Ledger.sameHeads_refl _ _
  · exact sameHeads_clearPartial m kv (some seq)

variable (haccepts : ∀ (kv : σ) seq p0 p1, (KvCache.remove kv seq p0 p1).1 = true)

include haccepts

/-- The range is measured on the longest sequence, and the shorter ones lose what they have of it. -/
theorem sameHeads_relieve (hsmart : m.policy.deletionStrategy = .smart)
    (hpartial : m.policy.partialDeletion = true) (kv : σ) (usage : Nat) :
    SameHeads m.policy.keepTokens (ledgerOf kv) (ledgerOf (m.relieve kv usage).2) := by
  rw [relieve_cache haccepts hpartial, hsmart]
  exact sameHeads_clearPartial _ kv none

theorem sameHeads_tidied (hsmart : m.policy.deletionStrategy = .smart)
    (hpartial : m.policy.partialDeletion = true) (kv : σ) (seq : SeqId) (usage : Nat) :
    SameHeads m.policy.keepTokens (ledgerOf kv) (ledgerOf (m.tidied kv seq usage).2) := by
  have hrelieved : SameHeads m.policy.keepTokens (ledgerOf kv)
      (ledgerOf (m.relieved kv usage).2) := by
    unfold relieved
    split
    · exact sameHeads_relieve (m := m.refresh usage) haccepts hsmart hpartial kv usage
    · exact Ledger.sameHeads_refl _ _
  have hpolicy := m.policy_relieved kv usage
  rw [tidied_eq]
  split
  case isFalse => exact hrelieved
  case isTrue =>
    have htrim := sameHeads_trim (m := (m.relieved kv usage).1) (by rw [hpolicy, hsmart])
      (m.relieved kv usage).2 seq
    rw [hpolicy] at htrim
    exact hrelieved.trans htrim

theorem sameHeads_prepareTurn (hsmart : m.policy.deletionStrategy = .smart)
    (hpartial : m.policy.partialDeletion = true) (kv : σ) (seq : SeqId) (incoming : Nat)
    (predict : Int) (usage : Nat) :
    SameHeads m.policy.keepTokens (ledgerOf kv)
      (ledgerOf (m.prepareTurn kv seq incoming predict usage).2) := by
  have htidied := sameHeads_tidied haccepts hsmart hpartial kv seq usage
  have hpolicy := m.policy_tidied kv seq usage
  rw [prepareTurn_eq]
  split
  case isFalse => exact htidied
  case isTrue =>
    have hshift := sameHeads_contextShift (m.tidied kv seq usage).1 (m.tidied kv seq usage).2 seq
    rw [hpolicy] at hshift
    exact htidied.trans hshift

end Memory

namespace Upkeep

/-- What a memory does as its policy says: all but the deletions that it is told. -/
def byPolicy : Upkeep → Bool
  | contextShift _ | relieve _ | trim _ | prepareTurn _ _ _ _ => true
  | clearPartial _ _ | clear _ => false

variable {σ : Type} [KvCache σ]

theorem policy_run (op : Upkeep) (m : Memory) (kv : σ) : (op.run m kv).1.policy = m.policy := by
  cases op with
  | contextShift seq => exact m.policy_contextShift kv seq
  | clearPartial seq strategy => exact m.policy_clearPartial kv seq strategy
  | clear seq => cases seq <;> rfl
  | relieve usage => exact m.policy_relieve kv usage
  | trim seq => exact m.policy_trim kv seq
  | prepareTurn seq incoming predict usage =>
    have htidied := m.policy_tidied kv seq usage
    change (m.prepareTurn kv seq incoming predict usage).1.policy = m.policy
    rw [Memory.prepareTurn_eq]
    split
    · exact (Memory.policy_contextShift _ _ seq).trans htidied
    · exact htidied

theorem sameHeads_run [LedgerBacked σ] {m : Memory}
    (haccepts : ∀ (kv : σ) seq p0 p1, (KvCache.remove kv seq p0 p1).1 = true)
    (hsmart : m.policy.deletionStrategy = .smart) (hpartial : m.policy.partialDeletion = true)
    (kv : σ) {op : Upkeep} (hop : op.byPolicy = true) :
    SameHeads m.policy.keepTokens (ledgerOf kv) (ledgerOf (op.run m kv).2) := by
  cases op with
  | contextShift seq => exact m.sameHeads_contextShift kv seq
  | clearPartial seq strategy => cases hop
  | clear seq => cases hop
  | relieve usage => exact Memory.sameHeads_relieve haccepts hsmart hpartial kv usage
  | trim seq => exact Memory.sameHeads_trim hsmart kv seq
  | prepareTurn seq incoming predict usage =>
    exact Memory.sameHeads_prepareTurn haccepts hsmart hpartial kv seq incoming predict usage

end Upkeep

/-- A memory with its cache: tokens are appended to a sequence, or the memory does as its policy
says. -/
inductive Memory.Follows {σ : Type} [KvCache σ] [LedgerBacked σ] : Memory × σ → Memory × σ → Prop
  | append {m : Memory} {kv kv' : σ} (seq : SeqId) (tokens : List Nat)
      (h : ledgerOf kv' = (ledgerOf kv).append seq tokens) : Follows (m, kv) (m, kv')
  | upkeep {m : Memory} {kv : σ} (op : Upkeep) (h : op.byPolicy = true) :
      Follows (m, kv) (op.run m kv)

namespace Memory

variable {σ : Type} [KvCache σ] [LedgerBacked σ]

/-- All that a run is for the head of a window: the policy stays, and of the cells at the positions
that are to be kept none goes. -/
theorem heads_run {s s' : Memory × σ}
    (haccepts : ∀ (kv : σ) seq p0 p1, (KvCache.remove kv seq p0 p1).1 = true)
    (hsmart : s.1.policy.deletionStrategy = .smart) (hpartial : s.1.policy.partialDeletion = true)
    (hrun : Relation.ReflTransGen Follows s s') :
    s'.1.policy = s.1.policy ∧ ∀ seq,
      ((ledgerOf s.2).head s.1.policy.keepTokens seq).Subperm
        ((ledgerOf s'.2).head s.1.policy.keepTokens seq) := by
  -- over the steps taken so far; the policy is part of what each step keeps
  induction hrun with
  | refl => exact ⟨rfl, fun seq => (List.Sublist.refl _).subperm⟩
  | tail _ step ih =>
    obtain ⟨hpolicy, hheads⟩ := ih
    cases step with
    | append seq tokens h =>
      refine ⟨hpolicy, fun s => (hheads s).trans ?_⟩
      rw [h]
      exact (Ledger.head_append _ seq tokens _ s).subperm
    | @upkeep m kv op h =>
      dsimp only at hpolicy hheads
      have hop := Upkeep.sameHeads_run haccepts (by rw [hpolicy, hsmart])
        (by rw [hpolicy, hpartial]) kv h
      rw [hpolicy] at hop
      refine ⟨(op.policy_run m kv).trans hpolicy, fun s => (hheads s).trans ?_⟩
      exact (hop s).symm.subperm

/-- Under smart deletion, on a cache that refuses no removal, whatever the memory does by its policy
and whatever is appended in between, in any order and to any sequences: each cell below the number
of tokens to keep stays in its sequence, at its position and with its token; and what the memory does
then puts no other cell there. -/
theorem head_of_window_stays {m m' : Memory} {kv kv' : σ}
    (haccepts : ∀ (kv : σ) seq p0 p1, (KvCache.remove kv seq p0 p1).1 = true)
    (hsmart : m.policy.deletionStrategy = .smart) (hpartial : m.policy.partialDeletion = true)
    (hrun : Relation.ReflTransGen Follows (m, kv) (m', kv')) :
    (∀ seq, ∀ c ∈ (ledgerOf kv).cells seq, c.pos < m.policy.keepTokens →
        c ∈ (ledgerOf kv').cells seq) ∧
      ∀ op : Upkeep, op.byPolicy = true →
        SameHeads m.policy.keepTokens (ledgerOf kv') (ledgerOf (op.run m' kv').2) := by
  obtain ⟨hpolicy, hheads⟩ := heads_run haccepts hsmart hpartial hrun
  dsimp only at hpolicy hheads
  constructor
  · intro seq c hc hkeep
    have hmem := (hheads seq).subset (Ledger.mem_head.2 ⟨hc, hkeep⟩)
    exact (Ledger.mem_head.1 hmem).1
  · intro op hop
    rw [← hpolicy]
    exact Upkeep.sameHeads_run haccepts (by rw [hpolicy, hsmart]) (by rw [hpolicy, hpartial]) kv' hop

/-- Two tokens are to be kept of every window, and a shift discards two. -/
def keepingTwo : Memory :=
  { policy := { keepTokens := 2, discardTokens := 2, cacheStrategy := .smart } }

/-- A sequence of twelve tokens, and one of three. -/
def uneven : LedgerCache :=
  { nCtx := 16, ledger := (({} : Ledger).append 1 (List.range 12)).append 2 [30, 31, 32] }

/-- When memory gets short, the long sequence loses five tokens from its middle. Both keep the two at
the head, also when the long one is shifted next. -/
theorem head_of_window_stays_uneven :
    let relieved := keepingTwo.relieve uneven 0
    relieved.2.ledger.tokens 1 = [0, 1, 2, 3, 9, 10, 11] ∧
      ⟨1, 1⟩ ∈ relieved.2.ledger.cells 1 ∧ ⟨1, 31⟩ ∈ relieved.2.ledger.cells 2 ∧
      SameHeads 2 relieved.2.ledger (relieved.1.contextShift relieved.2 1).2.2.ledger := by
  intro relieved
  have hrun : Relation.ReflTransGen Follows (keepingTwo, uneven) (relieved.1, relieved.2) :=
    .single (.upkeep (.relieve 0) rfl)
  obtain ⟨hstay, hsame⟩ := head_of_window_stays (fun _ _ _ _ => rfl) rfl rfl hrun
  refine ⟨by decide, ?_, ?_, hsame (.contextShift 1) rfl⟩
  · exact hstay 1 ⟨1, 1⟩ (by decide) (by decide)
  · exact hstay 2 ⟨1, 31⟩ (by decide) (by decide)

end Memory

end ChatInference
