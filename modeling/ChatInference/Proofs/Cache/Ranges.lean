import ChatInference.Proofs.Cache.Edits

/-!
What a removal and a shift are asked to do with a range, and what they do. A range without an end is asked
to run to the end of its sequence. A ledger has it end at the last word instead, which as the end of a range
is not part of it, so a cell there is spared; and what a shift carries past the last word is dropped, where
only cells pushed below zero were to be. Both take a cell that shifts have brought that far.
-/

namespace ChatInference

namespace Position

/-- The positions that a range names; without an end it runs to the end of the sequence. -/
def Named (p0 : Nat) (p1 : Option Nat) (pos : Nat) : Prop := p0 ≤ pos ∧ ∀ e ∈ p1, pos < e

instance (p0 : Nat) (p1 : Option Nat) (pos : Nat) : Decidable (Named p0 p1 pos) := by
  unfold Named; infer_instance

variable {p0 pos : Nat} {p1 : Option Nat}

/-- The last word is the one position that an open range names and does not reach. -/
theorem inRange_iff_named (hword : pos < limit) :
    InRange p0 p1 pos ↔ Named p0 p1 pos ∧ (p1 = none → pos ≠ limit - 1) := by
  cases p1 with
  | none =>
    have hend : InRange p0 none pos ↔ p0 ≤ pos ∧ pos < limit - 1 := Iff.rfl
    rw [hend, Named]
    simp only [Option.mem_def, reduceCtorEq, false_implies, implies_true, and_true, forall_const]
    omega
  | some e =>
    rw [Ledger.inRange_some, Named]
    simp only [Option.mem_def, Option.some.injEq, forall_eq', reduceCtorEq, false_implies, and_true]

end Position

namespace Ledger

open Position (Named InRange)

/-- The removal that is asked for: of the sequence, or of all, exactly the named cells go. The others
keep position, token and order, and so do all sequences that are not meant. -/
def Removes (l l' : Ledger) (seq : Option SeqId) (p0 : Nat) (p1 : Option Nat) : Prop :=
  ∀ s, l'.cells s =
    (l.cells s).filter fun c => !decide ((seq = none ∨ seq = some s) ∧ Named p0 p1 c.pos)

/-- What is asked of a shift for one cell: a named one moves, and is dropped only below zero. -/
def renumber? (p0 : Nat) (p1 : Option Nat) (delta : Int) (c : Cell) : Option Cell :=
  if Named p0 p1 c.pos then
    if 0 ≤ (c.pos : Int) + delta then some { c with pos := (c.pos + delta).toNat } else none
  else some c

/-- The shift that is asked for: the cells of the sequence are renumbered, the ones that are not named
keep their order, as do those that are, and other sequences have no part in it. -/
structure Shifts (l l' : Ledger) (seq : SeqId) (p0 : Nat) (p1 : Option Nat) (delta : Int) : Prop where
  renumbered : (l'.cells seq).Perm ((l.cells seq).filterMap (renumber? p0 p1 delta))
  spared : ((l.cells seq).filter fun c => !decide (Named p0 p1 c.pos)).Sublist (l'.cells seq)
  moved : (((l.cells seq).filter fun c => decide (Named p0 p1 c.pos)).filterMap
    (renumber? p0 p1 delta)).Sublist (l'.cells seq)
  others : ∀ s, s ≠ seq → l'.cells s = l.cells s

variable {l : Ledger} {p0 : Nat} {p1 : Option Nat} {delta : Int} {c d : Cell}

theorem removes_iff (h : l.ByPosition) (seq : Option SeqId) (p0 : Nat) (p1 : Option Nat) :
    Removes l (l.remove seq p0 p1) seq p0 p1 ↔
      (p1 = none → ∀ s, seq = none ∨ seq = some s →
        ∀ c ∈ l.cells s, p0 ≤ c.pos → c.pos ≠ Position.limit - 1) := by
  constructor
  · rintro hremoves rfl s hs c hc hp0 hlast
    -- the cell is named and still there, since the range stops before it
    have hout : ¬InRange p0 none c.pos := fun hin =>
      ((Position.inRange_iff_named (h.words s c hc)).1 hin).2 rfl hlast
    have hkept : c ∈ (l.remove seq p0 none).cells s := by
      rw [cells_remove, if_pos hs, List.mem_filter]
      exact ⟨hc, by simpa using hout⟩
    rw [hremoves s, List.mem_filter, Bool.not_eq_true', decide_eq_false_iff_not] at hkept
    exact hkept.2 ⟨hs, hp0, fun _ he => absurd he (Option.not_mem_none _)⟩
  · intro hlast s
    rw [cells_remove]
    -- in a sequence that is meant, the range reaches all cells that it names
    by_cases hs : seq = none ∨ seq = some s
    · rw [if_pos hs]
      apply List.filter_congr
      intro c hc
      have hsame : InRange p0 p1 c.pos ↔ Named p0 p1 c.pos := by
        rw [Position.inRange_iff_named (h.words s c hc)]
        exact and_iff_left_of_imp fun hnamed hopen => hlast hopen s hs c hc hnamed.1
      simp only [hs, hsame, true_and]
    · rw [if_neg hs]
      simp only [hs, false_and, decide_false, Bool.not_false, List.filter_true]

theorem renumber?_of_not_named (h : ¬Named p0 p1 c.pos) : renumber? p0 p1 delta c = some c :=
  if_neg h

/-- What becomes of a named cell that is not pushed below zero. -/
theorem renumber?_of_named (h : Named p0 p1 c.pos) (hpos : 0 ≤ (c.pos : Int) + delta) :
    renumber? p0 p1 delta c = some { c with pos := (c.pos + delta).toNat } := by
  rw [renumber?, if_pos h, if_pos hpos]

theorem shiftCell?_of_inRange (hin : InRange p0 p1 c.pos) (hnamed : Named p0 p1 c.pos)
    (hbelow : (c.pos : Int) + delta < Position.limit) :
    shiftCell? p0 p1 delta c = renumber? p0 p1 delta c := by
  rw [shiftCell?, if_pos hin, renumber?, if_pos hnamed, Position.move?]
  by_cases hpos : 0 ≤ (c.pos : Int) + delta
  · rw [if_pos ⟨hpos, hbelow⟩, if_pos hpos]
    rfl
  · rw [if_neg fun hmoved => hpos hmoved.1, if_neg hpos]
    rfl

/-- A cell is renumbered as asked, unless it is named and goes past the last word, or is at the last word
and named by an open range that moves it. -/
theorem shiftCell?_eq_renumber? (hword : c.pos < Position.limit)
    (h : Named p0 p1 c.pos → (c.pos : Int) + delta < Position.limit ∧
      (p1 = none → c.pos = Position.limit - 1 → delta = 0)) :
    shiftCell? p0 p1 delta c = renumber? p0 p1 delta c := by
  have hin : InRange p0 p1 c.pos ↔ Named p0 p1 c.pos ∧ (p1 = none → c.pos ≠ Position.limit - 1) :=
    Position.inRange_iff_named hword
  by_cases hnamed : Named p0 p1 c.pos
  case neg =>
    rw [renumber?_of_not_named hnamed, shiftCell?, if_neg fun hr => hnamed (hin.1 hr).1]
  case pos =>
    obtain ⟨hbelow, hstays⟩ := h hnamed
    by_cases hreached : InRange p0 p1 c.pos
    case pos => exact shiftCell?_of_inRange hreached hnamed hbelow
    case neg =>
      -- the open range stops before the cell, and the cell was not to go anywhere
      have hlast : ¬(p1 = none → c.pos ≠ Position.limit - 1) := fun hne => hreached (hin.2 ⟨hnamed, hne⟩)
      obtain ⟨hopen, hpos⟩ := Classical.not_imp.1 hlast
      obtain rfl := hstays hopen (not_not.1 hpos)
      rw [renumber?_of_named hnamed (by omega), shiftCell?, if_neg hreached, Int.add_zero,
        Int.toNat_natCast]

theorem renumber?_some (h : renumber? p0 p1 delta c = some d) :
    (¬Named p0 p1 c.pos ∧ d = c) ∨ (Named p0 p1 c.pos ∧ (d.pos : Int) = c.pos + delta) := by
  unfold renumber? at h
  split at h
  case isFalse hout => exact .inl ⟨hout, (Option.some.inj h).symm⟩
  case isTrue hnamed =>
    split at h
    case isFalse => cases h
    case isTrue hpos =>
      cases h
      exact .inr ⟨hnamed, Int.toNat_of_nonneg hpos⟩

/-- Cells that are not named are in the renumbered row as they were, in the same order. -/
theorem spared_sublist_renumbered (p0 : Nat) (p1 : Option Nat) (delta : Int) (cells : List Cell) :
    (cells.filter fun c => !decide (Named p0 p1 c.pos)).Sublist
      (cells.filterMap (renumber? p0 p1 delta)) := by
  let spared := cells.filter fun c => !decide (Named p0 p1 c.pos)
  have hstay : spared.filterMap (renumber? p0 p1 delta) = spared := by
    refine (List.filterMap_congr fun c hc => ?_).trans List.filterMap_some
    exact renumber?_of_not_named (by simpa using (List.mem_filter.1 hc).2)
  have hsub : (spared.filterMap (renumber? p0 p1 delta)).Sublist
      (cells.filterMap (renumber? p0 p1 delta)) := List.filter_sublist.filterMap _
  rwa [hstay] at hsub

/-- Cells that move together stay in their order. -/
theorem moved_sorted {cells : List Cell} (h : cells.Pairwise fun a b => a.pos ≤ b.pos)
    (hnamed : ∀ c ∈ cells, Named p0 p1 c.pos) :
    (cells.filterMap (renumber? p0 p1 delta)).Pairwise fun a b => a.pos ≤ b.pos := by
  refine List.pairwise_filterMap.2 (h.imp_of_mem ?_)
  intro a b ha hb hab a' ha' b' hb'
  have hpa := (renumber?_some ha').resolve_left fun hout => hout.1 (hnamed a ha)
  have hpb := (renumber?_some hb').resolve_left fun hout => hout.1 (hnamed b hb)
  omega

/-- Sorting keeps the order of what is in order: where each cell is renumbered as asked, so is the row. -/
theorem shifts_of_renumbered (h : l.ByPosition) {seq : SeqId}
    (hcells : ∀ c ∈ l.cells seq, shiftCell? p0 p1 delta c = renumber? p0 p1 delta c) :
    Shifts l (l.shift seq p0 p1 delta) seq p0 p1 delta := by
  have hafter : (l.shift seq p0 p1 delta).cells seq =
      ((l.cells seq).filterMap (renumber? p0 p1 delta)).mergeSort fun a b => a.pos ≤ b.pos := by
    rw [cells_shift, if_pos rfl, shiftCells, List.filterMap_congr hcells]
  have hkeeps {row : List Cell} (hrow : row.Pairwise fun a b => a.pos ≤ b.pos)
      (hsub : row.Sublist ((l.cells seq).filterMap (renumber? p0 p1 delta))) :
      row.Sublist ((l.shift seq p0 p1 delta).cells seq) := by
    rw [hafter]
    exact List.sublist_mergeSort pos_le_trans pos_le_total (hrow.imp decide_eq_true) hsub
  refine ⟨?renumbered, ?spared, ?moved, sameBut_shift l seq p0 p1 delta⟩
  case renumbered =>
    rw [hafter]
    exact List.mergeSort_perm _ _
  case spared =>
    exact hkeeps ((h.sorted seq).sublist List.filter_sublist) (spared_sublist_renumbered p0 p1 delta _)
  case moved =>
    refine hkeeps (moved_sorted ((h.sorted seq).sublist List.filter_sublist) fun c hc => ?_)
      (List.filter_sublist.filterMap _)
    exact of_decide_eq_true (List.mem_filter.1 hc).2

theorem shifts_iff (h : l.ByPosition) (seq : SeqId) (p0 : Nat) (p1 : Option Nat) (delta : Int) :
    Shifts l (l.shift seq p0 p1 delta) seq p0 p1 delta ↔
      ∀ c ∈ l.cells seq, Named p0 p1 c.pos →
        (c.pos : Int) + delta < Position.limit ∧
          (p1 = none → c.pos = Position.limit - 1 → delta = 0) := by
  constructor
  · intro hshifts c hc hnamed
    have hafter := (h.shift seq p0 p1 delta).words seq
    have hmem (d : Cell) : d ∈ (l.shift seq p0 p1 delta).cells seq ↔
        ∃ x ∈ l.cells seq, renumber? p0 p1 delta x = some d := by
      rw [hshifts.renumbered.mem_iff, List.mem_filterMap]
    have hbelow : (c.pos : Int) + delta < Position.limit := by
      -- past the last word it could not be among the cells, whose positions are words
      by_contra hpast
      have hmoved : renumber? p0 p1 delta c = some { c with pos := (c.pos + delta).toNat } :=
        renumber?_of_named hnamed (by omega)
      have hlt := hafter _ ((hmem _).2 ⟨c, hc, hmoved⟩)
      dsimp only at hlt
      omega
    refine ⟨hbelow, ?_⟩
    rintro rfl hlast
    -- the range stops before the cell, which stays, and a move would leave no cell there
    have hstays : c ∈ (l.shift seq p0 none delta).cells seq := by
      rw [cells_shift, if_pos rfl, mem_shiftCells]
      refine ⟨c, hc, if_neg fun hr => ?_⟩
      exact ((Position.inRange_iff_named (h.words seq c hc)).1 hr).2 rfl hlast
    obtain ⟨x, hx, hxc⟩ := (hmem c).1 hstays
    rcases renumber?_some hxc with ⟨hout, rfl⟩ | ⟨-, hmoved⟩
    · exact absurd hnamed hout
    · have hword := h.words seq x hx
      omega
  · intro hall
    exact shifts_of_renumbered h fun c hc => shiftCell?_eq_renumber? (h.words seq c hc) (hall c hc)

end Ledger

namespace LedgerCache

open Position (Named)
open Ledger (Removes Shifts)

/-- After any edits of a fresh cache, every removal is accepted and does what is asked, unless it is open and
is to take a cell at the last word. A shift does what is asked exactly where it carries no named cell past the
last word, and where, being open, it leaves one that stands there alone or moves it by nothing. -/
theorem ranges_kept_iff {n : Nat} {c : LedgerCache} (hrun : Run { nCtx := n } c) :
    (∀ (seq : Option SeqId) (p0 : Nat) (p1 : Option Nat),
      (KvCache.remove c seq p0 p1).1 = true ∧
        (Removes c.ledger (KvCache.remove c seq p0 p1).2.ledger seq p0 p1 ↔
          (p1 = none → ∀ s, seq = none ∨ seq = some s →
            ∀ x ∈ c.ledger.cells s, p0 ≤ x.pos → x.pos ≠ Position.limit - 1))) ∧
      ∀ (seq : SeqId) (p0 : Nat) (p1 : Option Nat) (delta : Int),
        Shifts c.ledger (KvCache.shift c seq p0 p1 delta).ledger seq p0 p1 delta ↔
          ∀ x ∈ c.ledger.cells seq, Named p0 p1 x.pos →
            (x.pos : Int) + delta < Position.limit ∧
              (p1 = none → x.pos = Position.limit - 1 → delta = 0) := by
  have h := byPosition_run hrun Ledger.ByPosition.empty
  exact ⟨fun seq p0 p1 => ⟨rfl, Ledger.removes_iff h seq p0 p1⟩, Ledger.shifts_iff h⟩

/-- One cell, brought to the position before the last. -/
def farUp : LedgerCache :=
  let c : LedgerCache := { nCtx := 8, ledger := ({} : Ledger).append 1 [7] }
  KvCache.shift (KvCache.shift c 1 0 none 2147483647) 1 0 none 2147483647

theorem run_farUp : Run { nCtx := 8 } farUp :=
  ((Relation.ReflTransGen.single (.append _ 1 [7] (by decide))).tail
    (.shift _ 1 0 none 2147483647)).tail (.shift _ 1 0 none 2147483647)

theorem cells_farUp : farUp.ledger.cells 1 = [⟨4294967294, 7⟩] := by
  decide +kernel

/-- There an open removal takes the cell, and an open shift can still move it up by one. -/
theorem ranges_kept_far_up :
    farUp.ledger.cells 1 = [⟨4294967294, 7⟩] ∧
      Removes farUp.ledger (KvCache.remove farUp (some 1) 0 none).2.ledger (some 1) 0 none ∧
      Shifts farUp.ledger (KvCache.shift farUp 1 0 none 1).ledger 1 0 none 1 := by
  obtain ⟨hremove, hshift⟩ := ranges_kept_iff run_farUp
  have hcell {x : Cell} (hx : x ∈ farUp.ledger.cells 1) : x.pos = 4294967294 := by
    rw [cells_farUp, List.mem_singleton] at hx
    rw [hx]
  refine ⟨cells_farUp, (hremove (some 1) 0 none).2.2 fun _ s hs x hx _ => ?_,
    (hshift 1 0 none 1).2 fun x hx _ => ?_⟩
  · obtain rfl : 1 = s := Option.some.inj (hs.resolve_left (Option.some_ne_none 1))
    rw [hcell hx]
    decide
  · rw [hcell hx]
    decide

/-- The same cell one further, at the last word. -/
def atLast : LedgerCache := KvCache.shift farUp 1 0 none 1

/-- No open range reaches the last word: the cell there is neither taken nor moved down. A cell that is
carried past it is dropped, although it was pushed above zero. -/
theorem open_range_spares_last_word :
    Run { nCtx := 8 } farUp ∧ Run { nCtx := 8 } atLast ∧
      atLast.ledger.cells 1 = [⟨4294967295, 7⟩] ∧
      (KvCache.remove atLast (some 1) 0 none).2.ledger.cells 1 = [⟨4294967295, 7⟩] ∧
      ¬Removes atLast.ledger (KvCache.remove atLast (some 1) 0 none).2.ledger (some 1) 0 none ∧
      (KvCache.shift atLast 1 0 none (-1)).ledger.cells 1 = [⟨4294967295, 7⟩] ∧
      ¬Shifts atLast.ledger (KvCache.shift atLast 1 0 none (-1)).ledger 1 0 none (-1) ∧
      (KvCache.shift farUp 1 0 none 2).ledger.cells 1 = [] ∧
      ¬Shifts farUp.ledger (KvCache.shift farUp 1 0 none 2).ledger 1 0 none 2 := by
  refine ⟨run_farUp, run_farUp.tail (.shift _ 1 0 none 1), by decide +kernel, by decide +kernel,
    fun h => ?_, by decide +kernel, fun h => ?_, by decide +kernel, fun h => ?_⟩
  · exact absurd (h 1) (by decide +kernel)
  · exact absurd h.renumbered (by decide +kernel)
  · exact absurd h.renumbered (by decide +kernel)

end LedgerCache

end ChatInference
