import ChatInference.Proofs.Cache.Head
import ChatInference.Proofs.Cache.Rollback

/-!
What a hit frees. A trim measures its range on the highest position of a sequence, and only the fifo
range reaches up to it. So fifo trims bring a window down to its size, by one position a trim or more.
The ranges of the other strategies end below: the highest position stays, the next trim is a hit again
with the same range, and finds it empty. From then on, until tokens are appended, every trim is a hit
and none frees a cell.
-/

namespace ChatInference

open LedgerBacked (ledgerOf)

namespace DeletionStrategy

/-- Whether a partial deletion of a window of `past` positions takes a cell. -/
def takes (s : DeletionStrategy) (keep past : Nat) (c : Cell) : Bool :=
  (s.range? keep past).any fun r => decide (Position.InRange r.1 (some r.2) c.pos)

variable {s : DeletionStrategy} {keep past : Nat} {c : Cell}

theorem takes_iff : s.takes keep past c = true ↔
    ∃ r, s.bounds? keep past = some r ∧ r.1 ≤ c.pos ∧ c.pos < r.2 := by
  unfold takes range?
  cases s.bounds? keep past with
  | none => simp
  | some r =>
    by_cases hr : r.1 < r.2
    · simp [hr, Ledger.inRange_some]
    · -- no position lies in a range that ends where it begins
      have hout : ¬(r.1 ≤ c.pos ∧ c.pos < r.2) := by omega
      simp [hr, hout]

theorem takes_fifo_iff : fifo.takes keep past c = true ↔ past - past / 4 ≤ c.pos ∧ c.pos < past := by
  rw [takes_iff]
  simp [bounds?]

theorem takes_lru_iff : lru.takes keep past c = true ↔ c.pos < past / 4 := by
  rw [takes_iff]
  simp [bounds?]

/-- Only the fifo range reaches up to the last position. -/
theorem takes_last_iff (hlast : c.pos + 1 = past) :
    s.takes keep past c = true ↔ s = .fifo ∧ 4 ≤ past := by
  rw [takes_iff]
  cases s with
  | fifo =>
    simp only [bounds?, Option.some.injEq, exists_eq_left', true_and]
    omega
  | lru =>
    simp only [bounds?, Option.some.injEq, exists_eq_left', reduceCtorEq, false_and, iff_false]
    omega
  | smart =>
    simp only [bounds?, reduceCtorEq, false_and, iff_false]
    -- a quarter of what lies after the head stays behind the range
    rintro ⟨r, hr, hstart, hend⟩
    split at hr
    case isFalse => cases hr
    case isTrue hkeep =>
      cases hr
      dsimp only at hstart hend
      omega

end DeletionStrategy

/-- A part of a sequence that has its last cell has its next position. -/
theorem Ledger.nextPos_filter_of_last {l l' : Ledger} {seq : SeqId} {p : Cell → Bool}
    (h : l'.cells seq = (l.cells seq).filter p)
    (hlast : ∀ x ∈ l.cells seq, x.pos + 1 = l.nextPos seq → p x = true) :
    l'.nextPos seq = l.nextPos seq := by
  apply Nat.le_antisymm
  · apply nextPos_le_iff.2
    intro x hx
    rw [h] at hx
    exact pos_lt_nextPos (List.mem_filter.1 hx).1
  · rcases Nat.eq_zero_or_pos (l.nextPos seq) with hzero | hpos
    · omega
    · obtain ⟨x, hx, hxlast⟩ := exists_last hpos
      have hkept : x ∈ l'.cells seq := by
        rw [h]
        exact List.mem_filter.2 ⟨hx, hlast x hx hxlast⟩
      have hlt := pos_lt_nextPos hkept
      omega

namespace Memory

variable {σ : Type} [KvCache σ] {m : Memory} {kv : σ} {seq : SeqId}

theorem trim_hit_iff : (m.trim kv seq).1 = .hit ↔ m.policy.maxCacheTokens < KvCache.nPast kv seq := by
  unfold trim
  split
  case isTrue h => exact iff_of_false nofun (Nat.not_lt.2 h)
  case isFalse h => exact iff_of_true rfl (Nat.lt_of_not_le h)

theorem trim_miss_iff : (m.trim kv seq).1 = .miss ↔ KvCache.nPast kv seq ≤ m.policy.maxCacheTokens := by
  rw [← Nat.not_lt, ← trim_hit_iff]
  cases (m.trim kv seq).1 <;> decide

theorem trim_cache_of_hit (h : (m.trim kv seq).1 = .hit) :
    (m.trim kv seq).2.2 = (m.clearPartial kv (some seq) m.policy.deletionStrategy).2.2 := by
  unfold trim
  rw [if_neg (Nat.not_le.2 (trim_hit_iff.1 h))]

/-- The memory and its cache after so many trims of a sequence, with no tokens in between. -/
def trims (m : Memory) (kv : σ) (seq : SeqId) : Nat → Memory × σ
  | 0 => (m, kv)
  | n + 1 => trims (m.trim kv seq).2.1 (m.trim kv seq).2.2 seq n

/-- What the trim says that comes after so many others. -/
def signal (m : Memory) (kv : σ) (seq : SeqId) (n : Nat) : TrimSignal :=
  ((m.trims kv seq n).1.trim (m.trims kv seq n).2 seq).1

variable [LedgerBacked σ]

/-- A trim leaves fewer cells of the sequence than there were. -/
def Frees (m : Memory) (kv : σ) (seq : SeqId) : Prop :=
  (ledgerOf (m.trim kv seq).2.2).length seq < (ledgerOf kv).length seq

/-- Whether a trim by the policy takes a cell of a sequence as it stands. -/
def takes (m : Memory) (kv : σ) (seq : SeqId) (c : Cell) : Bool :=
  m.policy.deletionStrategy.takes m.policy.keepTokens (KvCache.nPast kv seq) c

/-- The next trim of a sequence is a hit and takes none of its cells. -/
structure Stalled (m : Memory) (kv : σ) (seq : SeqId) : Prop where
  hit : (m.trim kv seq).1 = .hit
  spared : ∀ c ∈ (ledgerOf kv).cells seq, m.takes kv seq c = false

section Accepting

variable (haccepts : ∀ (kv : σ) seq p0 p1, (KvCache.remove kv seq p0 p1).1 = true)

include haccepts

/-- What a partial deletion leaves of its sequence. -/
theorem cells_clearPartial (hpartial : m.policy.partialDeletion = true) (s : DeletionStrategy) :
    (ledgerOf (m.clearPartial kv (some seq) s).2.2).cells seq =
      ((ledgerOf kv).cells seq).filter fun c =>
        !s.takes m.policy.keepTokens (KvCache.nPast kv seq) c := by
  have hpast : KvCache.nPast kv seq = KvCache.nextOf kv (some seq) := rfl
  unfold clearPartial DeletionStrategy.takes
  rw [if_pos hpartial, hpast]
  split
  case h_1 hrange =>
    -- no range, and no cell in it
    rw [hrange]
    exact (List.filter_eq_self.2 fun _ _ => rfl).symm
  case h_2 range hrange =>
    have hdone := haccepts kv (some seq) range.1 (some range.2)
    have hremoved := LedgerBacked.remove_eq kv (some seq) range.1 (some range.2)
    rw [if_pos hdone] at hremoved
    rw [hrange]
    split
    case h_1 kv' hr =>
      rw [hr] at hdone
      cases hdone
    case h_2 kv' hr =>
      rw [hr] at hremoved
      dsimp only at hremoved ⊢
      rw [hremoved, Ledger.cells_remove, if_pos (.inr rfl)]
      rfl

theorem cells_trim (hpartial : m.policy.partialDeletion = true) (hhit : (m.trim kv seq).1 = .hit) :
    (ledgerOf (m.trim kv seq).2.2).cells seq =
      ((ledgerOf kv).cells seq).filter fun c => !m.takes kv seq c := by
  rw [trim_cache_of_hit hhit]
  exact cells_clearPartial haccepts hpartial _

theorem frees_iff (hpartial : m.policy.partialDeletion = true) (hhit : (m.trim kv seq).1 = .hit) :
    m.Frees kv seq ↔ ∃ c ∈ (ledgerOf kv).cells seq, m.takes kv seq c = true := by
  unfold Frees Ledger.length
  rw [cells_trim haccepts hpartial hhit, List.length_filter_lt_length_iff_exists]
  simp only [Bool.not_eq_true, Bool.not_eq_false']

/-- A trim that spares the last cell leaves the window as long as it was. -/
theorem nPast_trim_of_not_fifo (hpartial : m.policy.partialDeletion = true)
    (hhit : (m.trim kv seq).1 = .hit) (hs : m.policy.deletionStrategy ≠ .fifo) :
    KvCache.nPast (m.trim kv seq).2.2 seq = KvCache.nPast kv seq := by
  rw [nPast_eq, nPast_eq]
  apply Ledger.nextPos_filter_of_last (cells_trim haccepts hpartial hhit)
  intro c _ hlast
  rw [← nPast_eq] at hlast
  rw [Bool.not_eq_true', ← Bool.not_eq_true]
  intro htaken
  exact hs ((DeletionStrategy.takes_last_iff hlast).1 htaken).1

theorem nPast_trim_of_fifo (hpartial : m.policy.partialDeletion = true)
    (hhit : (m.trim kv seq).1 = .hit) (hs : m.policy.deletionStrategy = .fifo) :
    KvCache.nPast (m.trim kv seq).2.2 seq ≤ KvCache.nPast kv seq - KvCache.nPast kv seq / 4 := by
  rw [nPast_eq]
  apply Ledger.nextPos_le_iff.2
  -- a cell that is left stands before the range, as none stands after it
  intro c hc
  rw [cells_trim haccepts hpartial hhit, List.mem_filter] at hc
  obtain ⟨hmem, hspared⟩ := hc
  have hlt := Ledger.pos_lt_nextPos hmem
  rw [← nPast_eq] at hlt
  rw [Bool.not_eq_true', ← Bool.not_eq_true, takes, hs, DeletionStrategy.takes_fifo_iff] at hspared
  omega

/-- A fifo hit takes the last cell of the window, if the window is long enough to have a quarter. -/
theorem frees_fifo_iff (hpartial : m.policy.partialDeletion = true)
    (hhit : (m.trim kv seq).1 = .hit) (hs : m.policy.deletionStrategy = .fifo) :
    m.Frees kv seq ↔ 4 ≤ KvCache.nPast kv seq := by
  rw [frees_iff haccepts hpartial hhit]
  constructor
  · rintro ⟨c, -, htaken⟩
    rw [takes, hs, DeletionStrategy.takes_fifo_iff] at htaken
    omega
  · intro hlong
    have hpos : 0 < (ledgerOf kv).nextPos seq := by
      rw [← nPast_eq]
      omega
    obtain ⟨c, hc, hlast⟩ := Ledger.exists_last hpos
    rw [← nPast_eq] at hlast
    exact ⟨c, hc, (DeletionStrategy.takes_last_iff hlast).2 ⟨hs, hlong⟩⟩

/-- One trim where it comes to nothing: all is as before, and so the next comes to nothing too. -/
theorem Stalled.trim (h : m.Stalled kv seq) (hpartial : m.policy.partialDeletion = true) :
    (ledgerOf (m.trim kv seq).2.2).cells seq = (ledgerOf kv).cells seq ∧
      (m.trim kv seq).2.1.Stalled (m.trim kv seq).2.2 seq := by
  have hcells : (ledgerOf (m.trim kv seq).2.2).cells seq = (ledgerOf kv).cells seq := by
    rw [cells_trim haccepts hpartial h.hit, List.filter_eq_self]
    intro c hc
    rw [h.spared c hc]
    rfl
  have hpast : KvCache.nPast (m.trim kv seq).2.2 seq = KvCache.nPast kv seq := by
    rw [nPast_eq, nPast_eq, Ledger.nextPos_congr hcells]
  refine ⟨hcells, ?_, ?_⟩
  · rw [trim_hit_iff, policy_trim, hpast]
    exact trim_hit_iff.1 h.hit
  · intro c hc
    rw [hcells] at hc
    unfold takes
    rw [policy_trim, hpast]
    exact h.spared c hc

/-- A hit whose range ends below the last cell is followed by hits that take nothing. -/
theorem stalled_of_hit (hpartial : m.policy.partialDeletion = true)
    (hhit : (m.trim kv seq).1 = .hit) (hs : m.policy.deletionStrategy ≠ .fifo) :
    (m.trim kv seq).2.1.Stalled (m.trim kv seq).2.2 seq := by
  have hpast := nPast_trim_of_not_fifo haccepts hpartial hhit hs
  refine ⟨?_, fun c hc => ?_⟩
  · rw [trim_hit_iff, policy_trim, hpast]
    exact trim_hit_iff.1 hhit
  · -- the range is the one that has just been emptied
    rw [cells_trim haccepts hpartial hhit, List.mem_filter, Bool.not_eq_true'] at hc
    unfold takes
    rw [policy_trim, hpast]
    exact hc.2

theorem Stalled.trims (h : m.Stalled kv seq) (hpartial : m.policy.partialDeletion = true) (n : Nat) :
    m.signal kv seq n = .hit ∧
      (ledgerOf (m.trims kv seq n).2).cells seq = (ledgerOf kv).cells seq := by
  induction n generalizing m kv with
  | zero => exact ⟨h.hit, rfl⟩
  | succ n ih =>
    obtain ⟨hcells, hnext⟩ := h.trim haccepts hpartial
    have hrest := ih hnext (by rw [policy_trim, hpartial])
    exact ⟨hrest.1, hrest.2.trans hcells⟩

/-- Fifo trims come to a miss, after no more of them than there are positions too many. -/
theorem exists_miss_of_fifo (hpartial : m.policy.partialDeletion = true)
    (hs : m.policy.deletionStrategy = .fifo) (hmax : 3 ≤ m.policy.maxCacheTokens) :
    ∃ n ≤ KvCache.nPast kv seq - m.policy.maxCacheTokens, m.signal kv seq n = .miss := by
  -- over the length of the window, which every hit makes shorter
  induction hpast : KvCache.nPast kv seq using Nat.strongRecOn generalizing m kv with
  | ind past ih =>
    by_cases hmiss : past ≤ m.policy.maxCacheTokens
    · refine ⟨0, Nat.zero_le _, trim_miss_iff.2 ?_⟩
      rw [← hpast] at hmiss
      exact hmiss
    · have hhit : (m.trim kv seq).1 = .hit := by
        rw [trim_hit_iff]
        omega
      have hless := nPast_trim_of_fifo haccepts hpartial hhit hs
      have hpolicy := m.policy_trim kv seq
      have hshorter : KvCache.nPast (m.trim kv seq).2.2 seq < past := by omega
      rw [← hpolicy] at hpartial hs hmax
      obtain ⟨n, hn, hend⟩ := ih _ hshorter hpartial hs hmax rfl
      rw [hpolicy] at hn
      exact ⟨n + 1, by omega, hend⟩

/-- On a cache that refuses no removal, a hit frees cells exactly when some cell of the sequence stands
in the range of the strategy. Under fifo this is so as long as there are four positions or more, and
trims come to a miss after at most as many as there are positions too many. Under the other strategies
each later trim, with no tokens in between, is a hit as well, and leaves the cells that the first has
left. -/
theorem hit_frees_iff_range_holds_cell (hpartial : m.policy.partialDeletion = true)
    (hhit : (m.trim kv seq).1 = .hit) :
    (m.Frees kv seq ↔ ∃ c ∈ (ledgerOf kv).cells seq, m.takes kv seq c = true) ∧
      (m.policy.deletionStrategy = .fifo →
        (m.Frees kv seq ↔ 4 ≤ KvCache.nPast kv seq) ∧
          (3 ≤ m.policy.maxCacheTokens →
            ∃ n ≤ KvCache.nPast kv seq - m.policy.maxCacheTokens, m.signal kv seq n = .miss)) ∧
      (m.policy.deletionStrategy ≠ .fifo → ∀ n,
        m.signal kv seq (n + 1) = .hit ∧
          (ledgerOf (m.trims kv seq (n + 1)).2).cells seq =
            (ledgerOf (m.trim kv seq).2.2).cells seq) := by
  refine ⟨frees_iff haccepts hpartial hhit, fun hs => ⟨?_, ?_⟩, fun hs n => ?_⟩
  · exact frees_fifo_iff haccepts hpartial hhit hs
  · exact exists_miss_of_fifo haccepts hpartial hs
  · have hstalled := stalled_of_hit haccepts hpartial hhit hs
    exact hstalled.trims haccepts (by rw [policy_trim, hpartial]) n

end Accepting

/-- Twelve tokens in a window of eight. -/
def overfull : LedgerCache := { nCtx := 16, ledger := ({} : Ledger).append 1 (List.range 12) }

def trimmingTo (size : Nat) (strategy : DeletionStrategy) : Memory :=
  { policy := { maxCacheTokens := size, cacheStrategy := strategy } }

/-- Fifo takes the last three of twelve tokens, and is to take more. -/
theorem hit_frees_overfull :
    ((trimmingTo 8 .fifo).trim overfull 1).1 = .hit ∧
      ((trimmingTo 8 .fifo).trim overfull 1).2.2.ledger.tokens 1 = List.range 9 ∧
      (trimmingTo 8 .fifo).Frees overfull 1 ∧
      ∃ n ≤ 4, (trimmingTo 8 .fifo).signal overfull 1 n = .miss := by
  have hhit : ((trimmingTo 8 .fifo).trim overfull 1).1 = .hit := by decide
  obtain ⟨-, hfifo, -⟩ := hit_frees_iff_range_holds_cell (fun _ _ _ _ => rfl) rfl hhit
  obtain ⟨hfrees, hmiss⟩ := hfifo rfl
  exact ⟨hhit, by decide, hfrees.2 (by decide), hmiss (by decide)⟩

end Memory

namespace Tended

/-- A cache with one sequence, and nothing done to it yet. -/
def holding (policy : MemoryPolicy) (nCtx : Nat) (seq : SeqId) (tokens : List Nat) : Tended :=
  ⟨{ policy }, { nCtx, ledger := ({} : Ledger).append seq tokens }⟩

def trimmed (t : Tended) (seq : SeqId) : Tended :=
  ⟨(t.memory.trim t.cache seq).2.1, (t.memory.trim t.cache seq).2.2⟩

theorem policy_trimmed (t : Tended) (seq : SeqId) :
    (t.trimmed seq).memory.policy = t.memory.policy :=
  t.memory.policy_trim t.cache seq

variable (policy : MemoryPolicy) (nCtx : Nat) (seq : SeqId) (tokens : List Nat)

theorem cells_holding :
    (holding policy nCtx seq tokens).cache.ledger.cells seq = Ledger.cellsFrom 0 tokens := by
  unfold holding
  rw [Ledger.cells_append, if_pos rfl]
  rfl

theorem nPast_holding : KvCache.nPast (holding policy nCtx seq tokens).cache seq = tokens.length := by
  rw [Memory.nPast_eq]
  exact Ledger.nextPos_of_cellsFrom (cells_holding policy nCtx seq tokens)

theorem run_trimmed {tokens : List Nat} (hfits : tokens.length < Position.limit) :
    Run (.fresh policy nCtx) ((holding policy nCtx seq tokens).trimmed seq) := by
  have hnext : (({} : Ledger).append seq tokens).nextPos seq = tokens.length :=
    Ledger.nextPos_of_cellsFrom (cells_holding policy nCtx seq tokens)
  have happend : (fresh policy nCtx).Step (holding policy nCtx seq tokens) :=
    .append (Nat.lt_of_le_of_lt (Nat.le_of_eq hnext) hfits)
  exact (Relation.ReflTransGen.single happend).tail (.upkeep (.trim seq))

theorem hit_holding {policy : MemoryPolicy} {tokens : List Nat}
    (hlong : policy.maxCacheTokens < tokens.length) :
    ((holding policy nCtx seq tokens).memory.trim
      (holding policy nCtx seq tokens).cache seq).1 = .hit := by
  rw [Memory.trim_hit_iff, nPast_holding]
  exact hlong

section Lru

variable {policy tokens} (hpartial : policy.partialDeletion = true)
  (hs : policy.deletionStrategy = .lru) (hlong : policy.maxCacheTokens < tokens.length)

include hpartial hs hlong

/-- Under lru a first trim takes the oldest quarter of a sequence without gaps. -/
theorem length_trimmed :
    ((holding policy nCtx seq tokens).trimmed seq).cache.ledger.length seq =
      tokens.length - tokens.length / 4 := by
  let t := holding policy nCtx seq tokens
  have hrange (c : Cell) : t.memory.takes t.cache seq c =
      decide (Position.InRange 0 (some (tokens.length / 4)) c.pos) := by
    rw [Bool.eq_iff_iff, decide_eq_true_iff, Ledger.inRange_some, Memory.takes, nPast_holding]
    change policy.deletionStrategy.takes _ _ c = true ↔ _
    rw [hs, DeletionStrategy.takes_lru_iff]
    omega
  have hhit : (t.memory.trim t.cache seq).1 = .hit := hit_holding nCtx seq hlong
  have hcells := Memory.cells_trim (fun _ _ _ _ => rfl) hpartial hhit
  simp only [hrange] at hcells
  calc
    (t.trimmed seq).cache.ledger.length seq =
        ((Ledger.cellsFrom 0 tokens).filter fun c =>
          !decide (Position.InRange 0 (some (tokens.length / 4)) c.pos)).length := by
      rw [← cells_holding]
      exact congrArg List.length hcells
    _ = (tokens.drop (tokens.length / 4)).length := by
      rw [Ledger.filter_cellsFrom_slice tokens (Nat.zero_le _) (Nat.div_le_self _ _)]
      simp [Ledger.cellsFrom]
    _ = tokens.length - tokens.length / 4 := List.length_drop

/-- So many tokens are left, however often they are trimmed. -/
theorem length_trims (n : Nat) :
    let t := (holding policy nCtx seq tokens).trimmed seq
    t.memory.signal t.cache seq n = .hit ∧
      (t.memory.trims t.cache seq n).2.ledger.length seq = tokens.length - tokens.length / 4 := by
  intro t
  have hnotFifo : policy.deletionStrategy ≠ .fifo := by
    rw [hs]
    decide
  have hstalled : t.memory.Stalled t.cache seq :=
    Memory.stalled_of_hit (fun _ _ _ _ => rfl) hpartial (hit_holding nCtx seq hlong) hnotFifo
  have hpolicy : t.memory.policy = policy := policy_trimmed _ seq
  obtain ⟨hsignal, hsame⟩ := hstalled.trims (fun _ _ _ _ => rfl) (by rw [hpolicy, hpartial]) n
  exact ⟨hsignal, (congrArg List.length hsame).trans (length_trimmed nCtx seq hpartial hs hlong)⟩

end Lru

/-- A sequence of 2000 tokens is to be trimmed to 1024. The first hit takes the oldest 500, and no
later one takes any. -/
theorem hit_frees_nothing_after_hit :
    ∃ t : Tended, Run (.fresh (Memory.trimmingTo 1024 .lru).policy 8192) t ∧
      t.memory.policy = (Memory.trimmingTo 1024 .lru).policy ∧
      ∀ n, t.memory.signal t.cache 1 n = .hit ∧
        (t.memory.trims t.cache 1 n).2.ledger.length 1 = 1500 := by
  have hlen : (List.range 2000).length = 2000 := List.length_range
  have hfits : (List.range 2000).length < Position.limit := by
    rw [hlen]
    decide
  have hlong : (Memory.trimmingTo 1024 .lru).policy.maxCacheTokens < (List.range 2000).length := by
    rw [hlen]
    decide
  refine ⟨_, run_trimmed _ 8192 1 hfits, policy_trimmed _ 1, fun n => ?_⟩
  obtain ⟨hsignal, hleft⟩ := length_trims 8192 1 rfl rfl hlong n
  rw [hlen] at hleft
  exact ⟨hsignal, hleft⟩

end Tended

end ChatInference
