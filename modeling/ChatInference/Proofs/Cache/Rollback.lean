import ChatInference.Proofs.Cache.Staging
import Mathlib.Data.List.Basic

/-!
Taking a failed turn back. A turn that only added to its sequence leaves no trace, and a turn that
started over takes all that was there before with it. Removals that come between a turn and its
rollback do what they would have done without the turn, but for the length that its sequence
remembers: the rollback puts back the one from before the turn, whatever was removed since.
-/

namespace ChatInference

namespace Ledger

variable {l l' : Ledger} {seq : SeqId} {n : Nat}

theorem nextPos_eq (l : Ledger) (seq : SeqId) :
    l.nextPos seq = (((l.cells seq).map (·.pos)).max?.map (· + 1)).getD 0 := by
  unfold nextPos posMax
  dsimp only
  cases ((l.cells seq).map (·.pos)).max? with
  | none => rfl
  | some p => rfl

theorem nextPos_le_iff : l.nextPos seq ≤ n ↔ ∀ x ∈ l.cells seq, x.pos < n := by
  rw [nextPos_eq]
  cases h : ((l.cells seq).map (·.pos)).max? with
  | none =>
    have hnil : l.cells seq = [] := List.map_eq_nil_iff.1 (List.max?_eq_none_iff.1 h)
    rw [hnil]
    exact iff_of_true (Nat.zero_le n) (List.forall_mem_nil _)
  | some p =>
    obtain ⟨hmem, hle⟩ := List.max?_eq_some_iff.1 h
    obtain ⟨y, hy, rfl⟩ := List.mem_map.1 hmem
    constructor
    · intro hn x hx
      have hxy := hle x.pos (List.mem_map_of_mem hx)
      exact Nat.lt_of_le_of_lt hxy hn
    · intro hall
      exact hall y hy

theorem pos_lt_nextPos {x : Cell} (h : x ∈ l.cells seq) : x.pos < l.nextPos seq :=
  nextPos_le_iff.1 (Nat.le_refl _) x h

/-- The next position follows that of some cell, unless there is none. -/
theorem exists_last (h : 0 < l.nextPos seq) : ∃ x ∈ l.cells seq, x.pos + 1 = l.nextPos seq := by
  by_contra hno
  have hle : l.nextPos seq ≤ l.nextPos seq - 1 := by
    apply nextPos_le_iff.2
    intro x hx
    have hp := pos_lt_nextPos hx
    have hne : x.pos + 1 ≠ l.nextPos seq := fun he => hno ⟨x, hx, he⟩
    omega
  omega

theorem posMax_congr (h : l'.cells seq = l.cells seq) :
    l'.posMax (some seq) = l.posMax (some seq) := by
  unfold posMax
  dsimp only
  rw [h]

theorem nextPos_congr (h : l'.cells seq = l.cells seq) : l'.nextPos seq = l.nextPos seq := by
  rw [nextPos_eq, nextPos_eq, h]

theorem nextPos_pos_iff : 0 < l.nextPos seq ↔ l.cells seq ≠ [] := by
  constructor
  · intro h hnil
    obtain ⟨x, hx, -⟩ := exists_last h
    rw [hnil] at hx
    cases hx
  · intro h
    obtain ⟨x, hx⟩ := List.exists_mem_of_ne_nil _ h
    exact Nat.lt_of_le_of_lt (Nat.zero_le _) (pos_lt_nextPos hx)

theorem posMax_of_pos (h : 0 < l.nextPos seq) :
    l.posMax (some seq) = some (l.nextPos seq - 1) := by
  rw [nextPos_eq] at h ⊢
  unfold posMax
  dsimp only
  cases hm : ((l.cells seq).map (·.pos)).max? with
  | none =>
    rw [hm] at h
    exact absurd h (Nat.lt_irrefl 0)
  | some p => rfl

/-- A removal that spares all cells of a sequence. -/
theorem filter_spares {p0 : Nat} {p1 : Option Nat} {cells : List Cell}
    (h : ∀ x ∈ cells, ¬Position.InRange p0 p1 x.pos) :
    (cells.filter fun x => !decide (Position.InRange p0 p1 x.pos)) = cells := by
  apply List.filter_eq_self.2
  intro x hx
  rw [Bool.not_eq_true', decide_eq_false_iff_not]
  exact h x hx

/-- A removal of a sequence's cells moves its next position exactly when it takes the last cell. -/
theorem nextPos_filter_iff {p0 : Nat} {p1 : Option Nat} (hpos : 0 < l.nextPos seq)
    (h : l'.cells seq = (l.cells seq).filter fun x => !decide (Position.InRange p0 p1 x.pos)) :
    l'.nextPos seq = l.nextPos seq ↔ ¬Position.InRange p0 p1 (l.nextPos seq - 1) := by
  have hmem (x : Cell) : x ∈ l'.cells seq ↔
      x ∈ l.cells seq ∧ ¬Position.InRange p0 p1 x.pos := by
    rw [h, List.mem_filter, Bool.not_eq_true', decide_eq_false_iff_not]
  constructor
  · intro heq
    obtain ⟨x, hx, hlast⟩ := exists_last (l := l') (by rw [heq]; exact hpos)
    have hx' : x.pos = l.nextPos seq - 1 := by omega
    rw [← hx']
    exact ((hmem x).1 hx).2
  · intro hspared
    obtain ⟨x, hx, hlast⟩ := exists_last hpos
    have hx' : x.pos = l.nextPos seq - 1 := by omega
    rw [← hx'] at hspared
    have hge := pos_lt_nextPos ((hmem x).2 ⟨hx, hspared⟩)
    have hle : l'.nextPos seq ≤ l.nextPos seq :=
      nextPos_le_iff.2 fun y hy => pos_lt_nextPos ((hmem y).1 hy).1
    omega

end Ledger

/-- A removal of a range from one sequence or from all. -/
structure Removal where
  seq : Option SeqId
  p0 : Nat
  p1 : Option Nat
  deriving DecidableEq

/-- Whether a removal leaves a cell of a sequence alone. -/
def Removal.spares (r : Removal) (s : SeqId) (x : Cell) : Bool :=
  !decide ((r.seq = none ∨ r.seq = some s) ∧ Position.InRange r.p0 r.p1 x.pos)

namespace StagingCache

/-- Both hold the same cells and remember the same lengths. -/
structure Same (c c' : StagingCache) : Prop where
  cells : ∀ s, c'.ledger.cells s = c.ledger.cells s
  ingested : ∀ s, c'.ingested.get? s = c.ingested.get? s

/-- The cache after removals, one after the other. -/
def removeAll (c : StagingCache) (rs : List Removal) : StagingCache :=
  rs.foldl (fun c r => c.remove r.seq r.p0 r.p1) c

/-- The cache after a turn of a sequence that came to nothing, with the removals that came between
its staging and its rollback. -/
def failTurn (c : StagingCache) (seq : SeqId) (full : List Nat) (rs : List Removal) :
    StagingCache :=
  ((c.stage seq full).2.removeAll rs).rollback (c.stage seq full).1.2

theorem cells_rollback (c : StagingCache) (st : Staged) (s : SeqId) :
    (c.rollback st).ledger.cells s =
      if s = st.seq then
        (c.ledger.cells s).filter fun x => !decide (Position.InRange st.firstPos none x.pos)
      else c.ledger.cells s := by
  unfold rollback
  dsimp only
  rw [Ledger.cells_remove]
  by_cases hs : s = st.seq
  · rw [if_pos hs, if_pos (.inr (congrArg some hs.symm))]
  · have hno : ¬(some st.seq = none ∨ some st.seq = some s) := by
      rintro (h | h)
      · cases h
      · exact hs (Option.some.inj h).symm
    rw [if_neg hs, if_neg hno]

theorem ingested_rollback (c : StagingCache) (st : Staged) (s : SeqId) :
    (c.rollback st).ingested.get? s = if s = st.seq then st.previous else c.ingested.get? s := by
  unfold rollback
  dsimp only
  cases st.previous with
  | none => exact Keyed.get?_erase _ _ _
  | some n => exact Keyed.get?_set _ _ _ _

variable {c : StagingCache} {seq : SeqId} {full : List Nat} {rs : List Removal}

theorem startsOver_iff : c.startsOver seq full.length = true ↔
    c.ledger.cells seq = [] ∨ full.length < c.seen seq := by
  unfold startsOver Ledger.length
  rw [Bool.or_eq_true, beq_iff_eq, List.length_eq_zero_iff, decide_eq_true_eq]

theorem nextPos_pos_of_appended (h : c.startsOver seq full.length = false) :
    0 < c.ledger.nextPos seq := by
  apply Ledger.nextPos_pos_iff.2
  intro hnil
  rw [startsOver_iff.2 (.inl hnil)] at h
  cases h

/-- A removal goes by the cells and the length of a sequence alone. -/
theorem remove_congr {c c' : StagingCache} {s : SeqId} (r : Removal)
    (hcells : c'.ledger.cells s = c.ledger.cells s) (hseen : c'.ingested.get? s = c.ingested.get? s) :
    (c'.remove r.seq r.p0 r.p1).ledger.cells s = (c.remove r.seq r.p0 r.p1).ledger.cells s ∧
      (c'.remove r.seq r.p0 r.p1).ingested.get? s =
        (c.remove r.seq r.p0 r.p1).ingested.get? s := by
  have hafter : (c'.ledger.remove r.seq r.p0 r.p1).cells s =
      (c.ledger.remove r.seq r.p0 r.p1).cells s := by
    rw [Ledger.cells_remove, Ledger.cells_remove, hcells]
  have hreaches : c'.reachesTail s r.p1 = c.reachesTail s r.p1 := by
    unfold reachesTail
    rw [Ledger.posMax_congr hcells]
  refine ⟨hafter, ?_⟩
  rw [ingested_remove, ingested_remove, hseen]
  congr 2
  funext n
  unfold seenAfter Ledger.length
  dsimp only
  rw [hafter, hcells, hreaches]

theorem removeAll_congr {c c' : StagingCache} {s : SeqId} (rs : List Removal)
    (hcells : c'.ledger.cells s = c.ledger.cells s) (hseen : c'.ingested.get? s = c.ingested.get? s) :
    (c'.removeAll rs).ledger.cells s = (c.removeAll rs).ledger.cells s ∧
      (c'.removeAll rs).ingested.get? s = (c.removeAll rs).ingested.get? s := by
  induction rs generalizing c c' with
  | nil => exact ⟨hcells, hseen⟩
  | cons r rs ih =>
    obtain ⟨hcells', hseen'⟩ := remove_congr r hcells hseen
    exact ih hcells' hseen'

theorem cells_removeAll (c : StagingCache) (rs : List Removal) (s : SeqId) :
    (c.removeAll rs).ledger.cells s =
      (c.ledger.cells s).filter fun x => rs.all fun r => Removal.spares r s x := by
  induction rs generalizing c with
  | nil => exact (List.filter_eq_self.2 fun _ _ => rfl).symm
  | cons r rs ih =>
    have hone : (c.remove r.seq r.p0 r.p1).ledger.cells s =
        (c.ledger.cells s).filter fun x => Removal.spares r s x := by
      rw [ledger_remove, Ledger.cells_remove]
      unfold Removal.spares
      by_cases hs : r.seq = none ∨ r.seq = some s
      · simp only [hs, if_true, true_and]
      · simp only [hs, if_false, false_and, decide_false, Bool.not_false, List.filter_true]
    have hrest := ih (c.remove r.seq r.p0 r.p1)
    rw [hone, List.filter_filter] at hrest
    refine hrest.trans ?_
    congr 1
    funext x
    exact Bool.and_comm _ _

/-- A removal reaches the tail of a sequence when it ends past the last cell. -/
theorem reachesTail_iff (hpos : 0 < c.ledger.nextPos seq)
    (hfits : c.ledger.nextPos seq < Position.limit) (p1 : Option Nat) :
    c.reachesTail seq p1 = true ↔ c.ledger.nextPos seq ≤ Position.rangeEnd p1 := by
  unfold reachesTail Position.rangeEnd
  rw [Ledger.posMax_of_pos hpos]
  cases p1 with
  | none => exact iff_of_true rfl (Nat.le_sub_one_of_lt hfits)
  | some p =>
    dsimp only [Option.getD_some]
    rw [decide_eq_true_eq]
    omega

theorem nextPos_removeAll_le (c : StagingCache) (rs : List Removal) (s : SeqId) :
    (c.removeAll rs).ledger.nextPos s ≤ c.ledger.nextPos s := by
  apply Ledger.nextPos_le_iff.2
  intro x hx
  apply Ledger.pos_lt_nextPos
  rw [cells_removeAll] at hx
  exact (List.mem_filter.1 hx).1

theorem ingested_remove_le {n : Nat} {r : Removal}
    (h : (c.remove r.seq r.p0 r.p1).ingested.get? seq = some n) :
    ∃ m, c.ingested.get? seq = some m ∧ n ≤ m := by
  rw [ingested_remove] at h
  split at h
  case isFalse => exact ⟨n, h, Nat.le_refl n⟩
  case isTrue =>
    obtain ⟨m, hm, hn⟩ := Option.bind_eq_some_iff.1 h
    refine ⟨m, hm, ?_⟩
    unfold seenAfter at hn
    dsimp only at hn
    split at hn
    · cases hn
    · split at hn
      · cases hn
        exact Nat.sub_le _ _
      · cases hn
        exact Nat.le_refl _

theorem ingested_removeAll_le {n : Nat} (rs : List Removal)
    (h : (c.removeAll rs).ingested.get? seq = some n) :
    ∃ m, c.ingested.get? seq = some m ∧ n ≤ m := by
  induction rs generalizing c with
  | nil => exact ⟨n, h, Nat.le_refl n⟩
  | cons r rs ih =>
    obtain ⟨k, hk, hnk⟩ := ih h
    obtain ⟨m, hm, hkm⟩ := ingested_remove_le hk
    exact ⟨m, hm, Nat.le_trans hnk hkm⟩

/-- A removal lowers or drops the length of a sequence exactly when it takes its last cell. -/
theorem seenAfter_iff {after : StagingCache} {p0 n : Nat} {p1 : Option Nat} (hn : 0 < n)
    (hpos : 0 < c.ledger.nextPos seq) (hfits : c.ledger.nextPos seq < Position.limit)
    (hcells : after.ledger.cells seq =
      (c.ledger.cells seq).filter fun x => !decide (Position.InRange p0 p1 x.pos)) :
    seenAfter c after p1 seq n = some n ↔
      after.ledger.nextPos seq = c.ledger.nextPos seq := by
  have hlast := Ledger.nextPos_filter_iff hpos hcells
  have hlen : after.ledger.length seq ≤ c.ledger.length seq := by
    unfold Ledger.length
    rw [hcells]
    exact List.length_filter_le _ _
  unfold seenAfter
  dsimp only
  by_cases hleft : after.ledger.length seq = 0
  · -- nothing is left, neither cells nor a length
    have hnil : after.ledger.cells seq = [] := List.eq_nil_of_length_eq_zero hleft
    rw [if_pos (beq_iff_eq.2 hleft)]
    refine iff_of_false nofun ?_
    intro heq
    exact Ledger.nextPos_pos_iff.1 (heq ▸ hpos) hnil
  · rw [if_neg (mt beq_iff_eq.1 hleft)]
    by_cases htail : c.reachesTail seq p1 = true
    · -- what the removal takes, it takes up to the last cell
      rw [if_pos htail]
      have hend := (reachesTail_iff hpos hfits p1).1 htail
      constructor
      · intro h
        have hsame : after.ledger.length seq = c.ledger.length seq := by
          have := Option.some.inj h
          omega
        apply Ledger.nextPos_congr
        unfold Ledger.length at hsame
        rw [hcells] at hsame ⊢
        exact List.filter_eq_self.2 (List.length_filter_eq_length_iff.1 hsame)
      · intro heq
        have hbefore : c.ledger.nextPos seq - 1 < p0 := by
          by_contra hge
          exact hlast.1 heq ⟨Nat.le_of_not_lt hge, by omega⟩
        have hspared : after.ledger.cells seq = c.ledger.cells seq := by
          rw [hcells]
          apply Ledger.filter_spares
          intro x hx hin
          have hx' := Ledger.pos_lt_nextPos hx
          have hp0 := hin.1
          omega
        have hsame : after.ledger.length seq = c.ledger.length seq := congrArg List.length hspared
        rw [hsame, Nat.sub_self, Nat.sub_zero]
    · -- the removal ends before the last cell
      rw [if_neg htail]
      refine iff_of_true rfl (hlast.2 ?_)
      intro hin
      have hend := mt (reachesTail_iff hpos hfits p1).2 htail
      have hlt := hin.2
      omega

theorem ingested_remove_iff {n : Nat} (hn : 0 < n) (hseen : c.ingested.get? seq = some n)
    (hpos : 0 < c.ledger.nextPos seq) (hfits : c.ledger.nextPos seq < Position.limit)
    (r : Removal) :
    (c.remove r.seq r.p0 r.p1).ingested.get? seq = some n ↔
      (c.remove r.seq r.p0 r.p1).ledger.nextPos seq = c.ledger.nextPos seq := by
  rw [ingested_remove, hseen]
  have hcells := Ledger.cells_remove c.ledger r.seq r.p0 r.p1 seq
  by_cases ha : r.seq = none ∨ r.seq = some seq
  · rw [if_pos ha] at hcells ⊢
    exact seenAfter_iff hn hpos hfits hcells
  · rw [if_neg ha] at hcells ⊢
    exact iff_of_true rfl (Ledger.nextPos_congr hcells)

/-- Removals leave the length of a sequence as it is exactly when none takes its last cell. -/
theorem ingested_removeAll_iff {n : Nat} (hn : 0 < n) (hseen : c.ingested.get? seq = some n)
    (hpos : 0 < c.ledger.nextPos seq) (hfits : c.ledger.nextPos seq < Position.limit)
    (rs : List Removal) :
    (c.removeAll rs).ingested.get? seq = some n ↔
      (c.removeAll rs).ledger.nextPos seq = c.ledger.nextPos seq := by
  induction rs generalizing c with
  | nil => exact iff_of_true hseen rfl
  | cons r rs ih =>
    have hone := ingested_remove_iff hn hseen hpos hfits r
    have hle : (c.remove r.seq r.p0 r.p1).ledger.nextPos seq ≤ c.ledger.nextPos seq :=
      nextPos_removeAll_le c [r] seq
    by_cases hsame : (c.remove r.seq r.p0 r.p1).ledger.nextPos seq = c.ledger.nextPos seq
    · have hrest := ih (hone.2 hsame) (hsame ▸ hpos) (hsame ▸ hfits)
      rw [hsame] at hrest
      exact hrest
    · -- what the first removal took does not come back
      have hlater := nextPos_removeAll_le (c.remove r.seq r.p0 r.p1) rs seq
      refine iff_of_false ?_ ?_
      · intro h
        obtain ⟨m, hm, hnm⟩ :=
          ingested_removeAll_le (c := c.remove r.seq r.p0 r.p1) rs h
        obtain ⟨k, hk, hmk⟩ := ingested_remove_le hm
        have hkn : k = n := Option.some.inj (hk.symm.trans hseen)
        have hmn : m = n := by omega
        exact hsame (hone.1 (hmn ▸ hm))
      · intro h
        have hback : ((c.remove r.seq r.p0 r.p1).removeAll rs).ledger.nextPos seq =
            c.ledger.nextPos seq := h
        omega

/-- The cells that an appended turn leaves once it is taken back are those that the removals alone
would have left. -/
theorem cells_failTurn (happ : c.startsOver seq full.length = false)
    (hfits : (c.stage seq full).2.ledger.nextPos seq < Position.limit) (rs : List Removal)
    (s : SeqId) : (c.failTurn seq full rs).ledger.cells s = (c.removeAll rs).ledger.cells s := by
  have hstage := stage_of_not_startsOver happ
  unfold failTurn
  rw [hstage] at hfits ⊢
  rw [cells_rollback, cells_removeAll, cells_removeAll]
  dsimp only at hfits ⊢
  rw [Ledger.cells_append]
  by_cases hs : s = seq
  · subst hs
    rw [if_pos rfl, if_pos rfl, List.filter_append, List.filter_append]
    -- the cells from before the turn lie below its first position, those of the turn above
    have hold : ∀ x ∈ (c.ledger.cells s).filter fun x => rs.all fun r => r.spares s x,
        ¬Position.InRange (c.ledger.nextPos s) none x.pos := by
      intro x hx hin
      have hlt := Ledger.pos_lt_nextPos (List.mem_filter.1 hx).1
      have hge := hin.1
      omega
    have hnew : ((Ledger.cellsFrom (c.ledger.nextPos s) (full.drop (c.seen s))).filter fun x =>
          rs.all fun r => r.spares s x).filter
        (fun x => !decide (Position.InRange (c.ledger.nextPos s) none x.pos)) = [] := by
      apply List.filter_eq_nil_iff.2
      intro x hx
      have hx' := (List.mem_filter.1 hx).1
      have hlt : x.pos < Position.limit - 1 := by
        have hmem : x ∈ (c.ledger.append s (full.drop (c.seen s))).cells s := by
          rw [Ledger.cells_append, if_pos rfl]
          exact List.mem_append_right _ hx'
        have := Ledger.pos_lt_nextPos hmem
        omega
      have hin : Position.InRange (c.ledger.nextPos s) none x.pos :=
        ⟨(Ledger.pos_of_mem_cellsFrom hx').1, hlt⟩
      rw [decide_eq_true hin]
      exact Bool.false_ne_true
    rw [Ledger.filter_spares hold, hnew, List.append_nil]
  · rw [if_neg hs, if_neg hs]

theorem ingested_failTurn (happ : c.startsOver seq full.length = false) (rs : List Removal)
    (s : SeqId) : (c.failTurn seq full rs).ingested.get? s =
      if s = seq then c.ingested.get? seq else (c.removeAll rs).ingested.get? s := by
  have hstage := stage_of_not_startsOver happ
  unfold failTurn
  rw [hstage, ingested_rollback]
  dsimp only
  by_cases hs : s = seq
  · rw [if_pos hs, if_pos hs]
  · rw [if_neg hs, if_neg hs]
    refine (removeAll_congr rs ?_ ?_).2
    · dsimp only
      rw [Ledger.cells_append, if_neg hs]
    · dsimp only
      rw [Keyed.get?_set, if_neg hs]

/-- A turn that starts over and comes to nothing leaves nothing of its sequence. -/
theorem failTurn_of_startsOver (hover : c.startsOver seq full.length = true)
    (hfits : (c.stage seq full).2.ledger.nextPos seq < Position.limit) (s : SeqId) :
    (c.failTurn seq full []).ledger.cells s = (if s = seq then [] else c.ledger.cells s) ∧
      (c.failTurn seq full []).ingested.get? s =
        if s = seq then none else c.ingested.get? s := by
  have hstage := stage_of_startsOver hover
  unfold failTurn removeAll
  rw [hstage] at hfits ⊢
  dsimp only [List.foldl_nil] at hfits ⊢
  rw [cells_rollback, ingested_rollback]
  dsimp only
  by_cases hs : s = seq
  · subst hs
    rw [if_pos rfl, if_pos rfl, if_pos rfl, if_pos rfl]
    refine ⟨List.filter_eq_nil_iff.2 ?_, rfl⟩
    intro x hx
    have hlt := Ledger.pos_lt_nextPos hx
    have hin : Position.InRange 0 none x.pos := ⟨Nat.zero_le _, Nat.lt_sub_of_add_lt (by omega)⟩
    rw [decide_eq_true hin]
    exact Bool.false_ne_true
  · rw [if_neg hs, if_neg hs, if_neg hs, if_neg hs, Ledger.cells_replace, if_neg hs,
      Keyed.get?_set, if_neg hs]
    exact ⟨rfl, rfl⟩

/-- A turn that fails leaves no trace exactly when it did not start over, or its sequence remembered
nothing; other sequences never notice. A turn that started over and failed leaves its sequence empty
and forgotten, whatever it held before. Positions are words. -/
theorem failed_turn_leaves_no_trace_iff (c : StagingCache) (seq : SeqId) (full : List Nat)
    (hfits : (c.stage seq full).2.ledger.nextPos seq < Position.limit) :
    let failed := c.failTurn seq full []
    (c.Same failed ↔
        (c.startsOver seq full.length = true → c.ingested.get? seq = none)) ∧
      (c.startsOver seq full.length = true →
        failed.ledger.cells seq = [] ∧ failed.ingested.get? seq = none) ∧
      ∀ s, s ≠ seq → failed.ledger.cells s = c.ledger.cells s ∧
        failed.ingested.get? s = c.ingested.get? s := by
  intro failed
  cases h : c.startsOver seq full.length with
  | false =>
    have hcells (s : SeqId) : failed.ledger.cells s = c.ledger.cells s :=
      cells_failTurn h hfits [] s
    have hseen (s : SeqId) : failed.ingested.get? s = c.ingested.get? s := by
      have hs := ingested_failTurn h [] s
      by_cases he : s = seq
      · rw [if_pos he] at hs
        exact hs.trans (congrArg c.ingested.get? he.symm)
      · rw [if_neg he] at hs
        exact hs
    exact ⟨iff_of_true ⟨hcells, hseen⟩ nofun, nofun, fun s _ => ⟨hcells s, hseen s⟩⟩
  | true =>
    have hfailed := failTurn_of_startsOver h hfits
    have hgone := hfailed seq
    rw [if_pos rfl, if_pos rfl] at hgone
    have hothers : ∀ s, s ≠ seq → failed.ledger.cells s = c.ledger.cells s ∧
        failed.ingested.get? s = c.ingested.get? s := by
      intro s hs
      have hsame := hfailed s
      rw [if_neg hs, if_neg hs] at hsame
      exact hsame
    refine ⟨⟨fun hsame _ => ?_, fun hnone => ?_⟩, fun _ => hgone, hothers⟩
    · rw [← hsame.ingested seq]
      exact hgone.2
    · -- a sequence that remembers nothing starts over only where it is empty
      have hempty : c.ledger.cells seq = [] := by
        rcases startsOver_iff.1 h with hnil | hlt
        · exact hnil
        · unfold seen at hlt
          rw [hnone rfl] at hlt
          exact absurd hlt (Nat.not_lt_zero _)
      have hback (s : SeqId) : failed.ledger.cells s = c.ledger.cells s ∧
          failed.ingested.get? s = c.ingested.get? s := by
        by_cases hs : s = seq
        · rw [hs, hempty, hnone rfl]
          exact hgone
        · exact hothers s hs
      exact ⟨fun s => (hback s).1, fun s => (hback s).2⟩

/-- A cache whose first sequence has ingested the tokens 1 to 3. -/
def threeTokens : StagingCache := (({} : StagingCache).stage 1 [1, 2, 3]).2

theorem failed_turn_leaves_no_trace_appended :
    (threeTokens.stage 1 [1, 2, 3, 4, 5]).2.ledger.nextPos 1 < Position.limit ∧
      threeTokens.Same (threeTokens.failTurn 1 [1, 2, 3, 4, 5] []) := by
  have hfits : (threeTokens.stage 1 [1, 2, 3, 4, 5]).2.ledger.nextPos 1 < Position.limit := by
    decide
  refine ⟨hfits, ?_⟩
  apply (failed_turn_leaves_no_trace_iff threeTokens 1 [1, 2, 3, 4, 5] hfits).1.2
  intro hover
  exact absurd hover (by decide)

/-- A rendering that got shorter takes all of its sequence along when its turn fails. -/
theorem failed_shorter_turn_forgets :
    threeTokens.ledger.cells 1 = [⟨0, 1⟩, ⟨1, 2⟩, ⟨2, 3⟩] ∧ threeTokens.ingested.get? 1 = some 3 ∧
      let failed := threeTokens.failTurn 1 [1, 2] []
      failed.ledger.cells 1 = [] ∧ failed.ingested.get? 1 = none ∧ ¬threeTokens.Same failed := by
  refine ⟨by decide, by decide, by decide, by decide, ?_⟩
  intro hsame
  exact absurd (hsame.cells 1) (by decide)

/-- Removals between an appended turn and its rollback leave the same cells as they would have
without the turn, and other sequences the same lengths. The turn's own sequence gets back the length
from before the turn, which is right exactly when the removals would have left that length alone: with
something to remember, when none of them would have taken its last cell. Positions are words. -/
theorem failed_turn_after_removals_same_iff (c : StagingCache) (seq : SeqId) (full : List Nat)
    (rs : List Removal) (happ : c.startsOver seq full.length = false)
    (hfits : (c.stage seq full).2.ledger.nextPos seq < Position.limit) :
    let failed := c.failTurn seq full rs
    let never := c.removeAll rs
    (∀ s, failed.ledger.cells s = never.ledger.cells s) ∧
      (∀ s, s ≠ seq → failed.ingested.get? s = never.ingested.get? s) ∧
      failed.ingested.get? seq = c.ingested.get? seq ∧
      (never.Same failed ↔ never.ingested.get? seq = c.ingested.get? seq) ∧
      (0 < c.seen seq →
        (never.Same failed ↔ never.ledger.nextPos seq = c.ledger.nextPos seq)) := by
  intro failed never
  have hcells : ∀ s, failed.ledger.cells s = never.ledger.cells s := cells_failTurn happ hfits rs
  have hothers : ∀ s, s ≠ seq → failed.ingested.get? s = never.ingested.get? s := by
    intro s hs
    have h := ingested_failTurn happ rs s
    rw [if_neg hs] at h
    exact h
  have hown : failed.ingested.get? seq = c.ingested.get? seq := by
    have h := ingested_failTurn happ rs seq
    rw [if_pos rfl] at h
    exact h
  have hsame : never.Same failed ↔ never.ingested.get? seq = c.ingested.get? seq := by
    constructor
    · intro h
      exact (h.ingested seq).symm.trans hown
    · intro h
      refine ⟨hcells, fun s => ?_⟩
      by_cases hs : s = seq
      · rw [hs]
        exact hown.trans h.symm
      · exact hothers s hs
  refine ⟨hcells, hothers, hown, hsame, fun hseen => ?_⟩
  have hbefore : c.ledger.nextPos seq < Position.limit := by
    have hstage := stage_of_not_startsOver happ
    rw [hstage] at hfits
    refine Nat.lt_of_le_of_lt (Ledger.nextPos_le_iff.2 fun x hx => ?_) hfits
    apply Ledger.pos_lt_nextPos
    rw [Ledger.cells_append, if_pos rfl]
    exact List.mem_append_left _ hx
  unfold seen at hseen
  cases hn : c.ingested.get? seq with
  | none =>
    rw [hn] at hseen
    exact absurd hseen (Nat.lt_irrefl 0)
  | some n =>
    rw [hn] at hseen hsame
    rw [hsame]
    exact ingested_removeAll_iff hseen hn (nextPos_pos_of_appended happ) hbefore rs

/-- The oldest of the three cells is removed while the turn is under way. -/
theorem failed_turn_after_removals_same_head :
    threeTokens.startsOver 1 [1, 2, 3, 4, 5].length = false ∧
      (threeTokens.removeAll [⟨none, 0, some 1⟩]).Same
        (threeTokens.failTurn 1 [1, 2, 3, 4, 5] [⟨none, 0, some 1⟩]) := by
  have happ : threeTokens.startsOver 1 [1, 2, 3, 4, 5].length = false := by decide
  have h := failed_turn_after_removals_same_iff threeTokens 1 [1, 2, 3, 4, 5]
    [⟨none, 0, some 1⟩] happ (by decide)
  exact ⟨happ, (h.2.2.2.2 (by decide)).2 (by decide)⟩

/-- With the newest cells removed, the rollback remembers a token that no cell holds. -/
theorem failed_turn_remembers_removed_tail :
    threeTokens.startsOver 1 [1, 2, 3, 4, 5].length = false ∧
      let failed := threeTokens.failTurn 1 [1, 2, 3, 4, 5] [⟨none, 2, some 5⟩]
      let never := threeTokens.removeAll [⟨none, 2, some 5⟩]
      failed.ingested.get? 1 = some 3 ∧ never.ingested.get? 1 = some 2 ∧
        failed.ledger.cells 1 = [⟨0, 1⟩, ⟨1, 2⟩] ∧ ¬never.Same failed ∧
        (failed.stage 1 [1, 2, 3, 4]).1.1 = [1, 2, 4] := by
  refine ⟨by decide, by decide, by decide, by decide, ?_, by decide⟩
  intro hsame
  exact absurd (hsame.ingested 1) (by decide)

end StagingCache

end ChatInference
