import ChatInference.Proofs.Cache.Order
import Mathlib.Logic.Relation

/-!
Upkeep only ever deletes. Whatever is asked of a memory in any order, with tokens appended in between,
every sequence stays in strictly ascending position; each operation leaves of every sequence some of
its tokens in the order they had, and works on the sequence it is given alone, unless memory is short.
-/

namespace ChatInference

/-- A cache whose cells are those of a ledger. It may refuse a removal, and then deletes nothing. -/
class LedgerBacked (σ : Type) [KvCache σ] where
  ledgerOf : σ → Ledger
  posMax_eq (kv : σ) (seq : Option SeqId) : KvCache.posMax kv seq = (ledgerOf kv).posMax seq
  remove_eq (kv : σ) (seq : Option SeqId) (p0 : Nat) (p1 : Option Nat) :
    ledgerOf (KvCache.remove kv seq p0 p1).2 =
      if (KvCache.remove kv seq p0 p1).1 then (ledgerOf kv).remove seq p0 p1 else ledgerOf kv
  shift_eq (kv : σ) (seq : SeqId) (p0 : Nat) (p1 : Option Nat) (delta : Int) :
    ledgerOf (KvCache.shift kv seq p0 p1 delta) = (ledgerOf kv).shift seq p0 p1 delta
  clear_eq (kv : σ) : ledgerOf (KvCache.clear kv) = (ledgerOf kv).clear

instance : LedgerBacked LedgerCache where
  ledgerOf := LedgerCache.ledger
  posMax_eq _ _ := rfl
  remove_eq _ _ _ _ := rfl
  shift_eq _ _ _ _ _ := rfl
  clear_eq _ := rfl

instance : LedgerBacked StagingCache where
  ledgerOf := StagingCache.ledger
  posMax_eq _ _ := rfl
  remove_eq _ _ _ _ := rfl
  shift_eq _ _ _ _ _ := rfl
  clear_eq _ := rfl

open LedgerBacked (ledgerOf)

/-- Upkeep for one sequence, or for all: deletions, and no other sequence is touched. -/
structure Ledger.Upkept (only : Option SeqId) (l l' : Ledger) : Prop where
  thinned : Thinned l l'
  alone : ∀ seq, only = some seq → SameBut seq l l'

namespace Ledger.Upkept

variable {l l' l'' : Ledger} {only : Option SeqId}

theorem refl (h : l.InOrder) : Upkept only l l := ⟨h.thinned, fun seq _ => sameBut_refl seq l⟩

theorem trans (h : Upkept only l l') (h' : Upkept only l' l'') : Upkept only l l'' :=
  ⟨h.thinned.trans h'.thinned, fun seq hs => (h.alone seq hs).trans (h'.alone seq hs)⟩

/-- What is done for one sequence is done for all of them. -/
theorem forAll {seq : SeqId} (h : Upkept (some seq) l l') : Upkept none l l' := ⟨h.thinned, nofun⟩

theorem remove (h : l.InOrder) (only : Option SeqId) (p0 : Nat) (p1 : Option Nat) :
    Upkept only l (l.remove only p0 p1) := by
  refine ⟨thinned_remove h only p0 p1, ?_⟩
  rintro seq rfl
  exact sameBut_remove l seq p0 p1

end Ledger.Upkept

open Ledger (Upkept)

namespace Memory

variable {σ : Type} [KvCache σ]

/-- A context shift leaves the cache alone, or it removes a range and then, unless that is refused,
closes the gap. -/
theorem contextShift_cache (m : Memory) (kv : σ) (seq : SeqId) :
    (m.contextShift kv seq).2.2 = kv ∨
      ∃ plan, ShiftPlan.plan? m.policy.keepTokens (KvCache.nPast kv seq) m.policy.discardTokens =
          some plan ∧
        let removed := KvCache.remove kv (some seq) plan.keep (some plan.cut)
        (m.contextShift kv seq).2.2 =
          if removed.1 then
            KvCache.shift removed.2 seq plan.cut (some plan.past) (leftBy plan.discard)
          else removed.2 := by
  unfold contextShift
  split
  case isFalse => exact .inl rfl
  case isTrue =>
    split
    case h_1 => exact .inl rfl
    case h_2 plan hplan =>
      refine .inr ⟨plan, hplan, ?_⟩
      split
      case h_1 kv' hr =>
        rw [hr]
        rfl
      case h_2 kv' hr =>
        rw [hr]
        rfl

/-- A partial deletion leaves the cache alone, or asks it for one removal. -/
theorem clearPartial_cache (m : Memory) (kv : σ) (seq : Option SeqId)
    (strategy : DeletionStrategy) :
    (m.clearPartial kv seq strategy).2.2 = kv ∨
      ∃ range, strategy.range? m.policy.keepTokens (KvCache.nextOf kv seq) = some range ∧
        (m.clearPartial kv seq strategy).2.2 =
          (KvCache.remove kv seq range.1 (some range.2)).2 := by
  unfold clearPartial
  split
  case isFalse => exact .inl rfl
  case isTrue =>
    split
    case h_1 => exact .inl rfl
    case h_2 range hrange =>
      refine .inr ⟨range, hrange, ?_⟩
      split
      case h_1 kv' hr => rw [hr]
      case h_2 kv' hr => rw [hr]

variable [LedgerBacked σ] {m : Memory} {kv : σ}

theorem nPast_eq (kv : σ) (seq : SeqId) : KvCache.nPast kv seq = (ledgerOf kv).nextPos seq := by
  have hmax := LedgerBacked.posMax_eq kv (some seq)
  unfold KvCache.nPast KvCache.nextOf Ledger.nextPos
  cases hp : (ledgerOf kv).posMax (some seq) with
  | none => simp only [hmax, hp]
  | some p => simp only [hmax, hp]

theorem upkept_cacheRemove (h : (ledgerOf kv).InOrder) (seq : Option SeqId) (p0 : Nat)
    (p1 : Option Nat) : Upkept seq (ledgerOf kv) (ledgerOf (KvCache.remove kv seq p0 p1).2) := by
  rw [LedgerBacked.remove_eq]
  split
  · exact .remove h seq p0 p1
  · exact .refl h

theorem upkept_contextShift (h : (ledgerOf kv).InOrder) (m : Memory) (seq : SeqId) :
    Upkept (some seq) (ledgerOf kv) (ledgerOf (m.contextShift kv seq).2.2) := by
  rcases m.contextShift_cache kv seq with hkv | ⟨plan, hplan, hkv⟩
  · rw [hkv]
    exact .refl h
  · have hremoved := LedgerBacked.remove_eq kv (some seq) plan.keep (some plan.cut)
    dsimp only at hkv
    rw [hkv]
    split
    case isFalse hrefused =>
      rw [hremoved, if_neg hrefused]
      exact .refl h
    case isTrue hdone =>
      rw [LedgerBacked.shift_eq, hremoved, if_pos hdone]
      rw [nPast_eq] at hplan
      have hshift := Ledger.thinned_shiftPlan h hplan
      refine (Upkept.remove h (some seq) plan.keep (some plan.cut)).trans ⟨hshift, ?_⟩
      rintro s ⟨⟩
      exact Ledger.sameBut_shift _ seq _ _ _

theorem upkept_clearPartial (h : (ledgerOf kv).InOrder) (m : Memory) (seq : Option SeqId)
    (strategy : DeletionStrategy) :
    Upkept seq (ledgerOf kv) (ledgerOf (m.clearPartial kv seq strategy).2.2) := by
  rcases m.clearPartial_cache kv seq strategy with hkv | ⟨range, -, hkv⟩
  · rw [hkv]
    exact .refl h
  · rw [hkv]
    exact upkept_cacheRemove h seq range.1 (some range.2)

theorem upkept_clear (h : (ledgerOf kv).InOrder) (m : Memory) (seq : Option SeqId) :
    Upkept seq (ledgerOf kv) (ledgerOf (m.clear kv seq).2) := by
  cases seq with
  | some seq => exact upkept_cacheRemove h (some seq) 0 none
  | none =>
    change Upkept none (ledgerOf kv) (ledgerOf (KvCache.clear kv))
    rw [LedgerBacked.clear_eq]
    exact ⟨Ledger.thinned_clear h, nofun⟩

theorem upkept_relieve (h : (ledgerOf kv).InOrder) (m : Memory) (usage : Nat) :
    Upkept none (ledgerOf kv) (ledgerOf (m.relieve kv usage).2) := by
  unfold relieve
  dsimp only
  have hpartial := upkept_clearPartial h
    (m.count fun c => { c with pressureEvents := c.pressureEvents + 1 }) none
    m.policy.deletionStrategy
  split
  case h_1 removed m' kv' hr =>
    change Upkept none (ledgerOf kv) (ledgerOf kv')
    change Memory.clearPartial _ kv none m.policy.deletionStrategy = _ at hr
    rw [hr] at hpartial
    exact hpartial
  case h_2 e m' kv' hr =>
    change Memory.clearPartial _ kv none m.policy.deletionStrategy = _ at hr
    rw [hr] at hpartial
    exact hpartial.trans (upkept_clear hpartial.thinned.inOrder m' none)

theorem upkept_trim (h : (ledgerOf kv).InOrder) (m : Memory) (seq : SeqId) :
    Upkept (some seq) (ledgerOf kv) (ledgerOf (m.trim kv seq).2.2) := by
  unfold trim
  split
  · exact .refl h
  · exact upkept_clearPartial h m (some seq) m.policy.deletionStrategy

/-- What is done before a turn is done for its sequence, but for the relief of short memory. -/
theorem upkept_prepareTurn (h : (ledgerOf kv).InOrder) (m : Memory) (seq : SeqId)
    (incoming : Nat) (predict : Int) (usage : Nat) :
    Upkept (if (m.refresh usage).underPressure then none else some seq) (ledgerOf kv)
      (ledgerOf (m.prepareTurn kv seq incoming predict usage).2) := by
  let only : Option SeqId := if (m.refresh usage).underPressure then none else some seq
  have hown {l l' : Ledger} (hl : Upkept (some seq) l l') : Upkept only l l' := by
    dsimp only [only]
    split
    · exact hl.forAll
    · exact hl
  let relieved : Memory × σ :=
    if (m.refresh usage).underPressure then (m.refresh usage).relieve kv usage
    else (m.refresh usage, kv)
  have hrelieved : Upkept only (ledgerOf kv) (ledgerOf relieved.2) := by
    dsimp only [only, relieved]
    split
    · exact upkept_relieve h (m.refresh usage) usage
    · exact .refl h
  let trimmed : Memory × σ :=
    if relieved.1.policy.tokenCacheReuse then (relieved.1.trim relieved.2 seq).2 else relieved
  have htrimmed : Upkept only (ledgerOf relieved.2) (ledgerOf trimmed.2) := by
    dsimp only [trimmed]
    split
    · exact hown (upkept_trim hrelieved.thinned.inOrder relieved.1 seq)
    · exact .refl hrelieved.thinned.inOrder
  have hsofar := hrelieved.trans htrimmed
  change Upkept only (ledgerOf kv) (ledgerOf (if _ then _ else trimmed : Memory × σ).2)
  split
  · exact hsofar.trans (hown (upkept_contextShift hsofar.thinned.inOrder trimmed.1 seq))
  · exact hsofar

end Memory

/-- What can be asked of a memory. Where the memory in use is measured, it comes to `usage` bytes. -/
inductive Upkeep where
  | contextShift (seq : SeqId)
  | clearPartial (seq : Option SeqId) (strategy : DeletionStrategy)
  | clear (seq : Option SeqId)
  | relieve (usage : Nat)
  | trim (seq : SeqId)
  | prepareTurn (seq : SeqId) (incoming : Nat) (predict : Int) (usage : Nat)

namespace Upkeep

def run {σ : Type} [KvCache σ] (m : Memory) (kv : σ) : Upkeep → Memory × σ
  | contextShift seq => (m.contextShift kv seq).2
  | clearPartial seq strategy => (m.clearPartial kv seq strategy).2
  | clear seq => m.clear kv seq
  | relieve usage => m.relieve kv usage
  | trim seq => (m.trim kv seq).2
  | prepareTurn seq incoming predict usage => m.prepareTurn kv seq incoming predict usage

/-- The sequence that an operation is given, if it is given one. -/
def given : Upkeep → Option SeqId
  | contextShift seq | trim seq | prepareTurn seq _ _ _ => some seq
  | clearPartial seq _ | clear seq => seq
  | relieve _ => none

/-- Whether an operation relieves memory pressure, on the way or as all it does. -/
def relieves (m : Memory) : Upkeep → Bool
  | relieve _ => true
  | prepareTurn _ _ _ usage => (m.refresh usage).underPressure
  | contextShift _ | clearPartial _ _ | clear _ | trim _ => false

theorem upkept_run {σ : Type} [KvCache σ] [LedgerBacked σ] {kv : σ} (h : (ledgerOf kv).InOrder)
    (m : Memory) (op : Upkeep) :
    Upkept (if op.relieves m then none else op.given) (ledgerOf kv) (ledgerOf (op.run m kv).2) := by
  cases op with
  | contextShift seq => exact m.upkept_contextShift h seq
  | clearPartial seq strategy => exact m.upkept_clearPartial h seq strategy
  | clear seq => exact m.upkept_clear h seq
  | relieve usage => exact m.upkept_relieve h usage
  | trim seq => exact m.upkept_trim h seq
  | prepareTurn seq incoming predict usage =>
    exact m.upkept_prepareTurn h seq incoming predict usage

end Upkeep

/-- A ledger in the care of a memory. -/
structure Tended where
  memory : Memory
  cache : LedgerCache

namespace Tended

def fresh (policy : MemoryPolicy) (nCtx : Nat) : Tended := ⟨{ policy }, { nCtx }⟩

/-- Tokens are appended, as long as their positions are words, or upkeep is done. -/
inductive Step (t : Tended) : Tended → Prop where
  | append {seq : SeqId} {tokens : List Nat}
      (hfits : (t.cache.ledger.append seq tokens).nextPos seq < Position.limit) :
      Step t { t with cache := { t.cache with ledger := t.cache.ledger.append seq tokens } }
  | upkeep (op : Upkeep) : Step t ⟨(op.run t.memory t.cache).1, (op.run t.memory t.cache).2⟩

/-- Any steps, one after the other. -/
abbrev Run : Tended → Tended → Prop := Relation.ReflTransGen Step

variable {t t' : Tended}

theorem inOrder_step (h : t.cache.ledger.InOrder) (hstep : t.Step t') :
    t'.cache.ledger.InOrder := by
  cases hstep with
  | append hfits => exact Ledger.inOrder_append h _ _ hfits
  | upkeep op =>
    have h : (ledgerOf t.cache).InOrder := h
    exact (op.upkept_run h t.memory).thinned.inOrder

theorem inOrder_run (h : t.cache.ledger.InOrder) (hrun : t.Run t') : t'.cache.ledger.InOrder := by
  induction hrun with
  | refl => exact h
  | tail _ hstep ih => exact inOrder_step ih hstep

/-- After any run of appends and upkeep, no two cells of a sequence share a position and its next one is
at least their number. Any further upkeep leaves of each sequence a part of its tokens in the same
order and moves its next position up never; unless it relieves memory pressure, it touches no other
sequence than the one it is given. -/
theorem upkeep_only_deletes {policy : MemoryPolicy} {nCtx : Nat} (hrun : Run (.fresh policy nCtx) t) :
    (∀ seq, ((t.cache.ledger.cells seq).Pairwise fun a b => a.pos < b.pos) ∧
        ((t.cache.ledger.cells seq).map (·.pos)).Nodup ∧
        t.cache.ledger.length seq ≤ KvCache.nPast t.cache seq) ∧
      ∀ op : Upkeep,
        let cache := (op.run t.memory t.cache).2
        (∀ seq, (cache.ledger.tokens seq).Sublist (t.cache.ledger.tokens seq) ∧
            KvCache.nPast cache seq ≤ KvCache.nPast t.cache seq) ∧
          ∀ seq, op.given = some seq → op.relieves t.memory = false →
            ∀ s, s ≠ seq → cache.ledger.cells s = t.cache.ledger.cells s := by
  have h : (ledgerOf t.cache).InOrder := inOrder_run Ledger.inOrder_empty hrun
  refine ⟨fun seq => ⟨h.ascending seq, (h.ascending seq).nodup_positions, ?_⟩, fun op => ?_⟩
  · exact h.length_le_nextPos seq
  · have hop := op.upkept_run h t.memory
    refine ⟨fun seq => ⟨hop.thinned.tokens seq, hop.thinned.nextPos_le seq⟩, ?_⟩
    intro seq hgiven hcalm
    rw [hcalm, if_neg Bool.false_ne_true] at hop
    exact hop.alone seq hgiven

/-- A partial deletion leaves a gap in the first sequence, and a shift renumbers across it. -/
theorem upkeep_only_deletes_across_gap :
    ∃ t : Tended, Run (.fresh (keepingOne 2).policy 16) t ∧
      t.cache.ledger.cells 1 = [⟨0, 10⟩, ⟨1, 11⟩, ⟨4, 14⟩, ⟨5, 15⟩] ∧
      ((Upkeep.contextShift 1).run t.memory t.cache).2.ledger.cells 1 =
        [⟨0, 10⟩, ⟨2, 14⟩, ⟨3, 15⟩] ∧
      (((Upkeep.contextShift 1).run t.memory t.cache).2.ledger.tokens 1).Sublist
        (t.cache.ledger.tokens 1) ∧
      ((Upkeep.contextShift 1).run t.memory t.cache).2.ledger.cells 2 = t.cache.ledger.cells 2 := by
  let t₀ := Tended.fresh (keepingOne 2).policy 16
  let t₁ : Tended :=
    { t₀ with cache := { t₀.cache with ledger := t₀.cache.ledger.append 1 [10, 11, 12, 13, 14, 15] } }
  let t₂ : Tended :=
    { t₁ with cache := { t₁.cache with ledger := t₁.cache.ledger.append 2 [20, 21] } }
  let op : Upkeep := .clearPartial (some 1) .smart
  let t₃ : Tended := ⟨(op.run t₂.memory t₂.cache).1, (op.run t₂.memory t₂.cache).2⟩
  have h₁ : t₀.Step t₁ := .append (by decide)
  have h₂ : t₁.Step t₂ := .append (by decide)
  have h₃ : t₂.Step t₃ := .upkeep op
  have hrun : Run t₀ t₃ := ((Relation.ReflTransGen.single h₁).tail h₂).tail h₃
  have hplan : ShiftPlan.plan? t₃.memory.policy.keepTokens (KvCache.nPast t₃.cache 1)
      t₃.memory.policy.discardTokens = some ⟨1, 2, 6⟩ := by decide
  have hshift : ((Upkeep.contextShift 1).run t₃.memory t₃.cache).2.ledger =
      (t₃.cache.ledger.remove (some 1) 1 (some 3)).shift 1 3 (some 6) (Memory.leftBy 2) := by
    change (t₃.memory.contextShift t₃.cache 1).2.2.ledger = _
    unfold Memory.contextShift
    rw [if_pos (by decide), hplan]
    rfl
  have h := (upkeep_only_deletes hrun).2 (.contextShift 1)
  refine ⟨t₃, hrun, by decide, ?_, (h.1 1).1, h.2 1 rfl rfl 2 (by decide)⟩
  rw [hshift, Memory.leftBy_of_le (by decide), Ledger.cells_shift, if_pos rfl,
    Ledger.shiftCells_of_ascending (by decide)]
  decide

end Tended

end ChatInference
