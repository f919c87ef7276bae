import ChatInference.Proofs.Cache.Edits
import Mathlib

/-!
The order in which a ledger stores its cells. Every edit moves or deletes what is there and puts new cells
behind it. A shift alone can bring cells to one position; those it brings there stay in the order they were
stored in before it, whatever edits follow, for they move on together or not at all.
-/

namespace ChatInference

/-- An edit of a ledger. -/
inductive Edit where
  | append (seq : SeqId) (tokens : List Nat)
  | replace (seq : SeqId) (tokens : List Nat)
  | remove (seq : Option SeqId) (p0 : Nat) (p1 : Option Nat)
  | shift (seq : SeqId) (p0 : Nat) (p1 : Option Nat) (delta : Int)
  | clear
  deriving DecidableEq

namespace Edit

/-- What becomes of the cells of a sequence: nothing of those that are deleted or dropped. -/
def fate (seq : SeqId) : Edit → Cell → Option Cell
  | append _ _ => some
  | replace s _ => if s = seq then fun _ => none else some
  | remove s p0 p1 =>
    if s = none ∨ s = some seq then Option.guard fun c => !decide (Position.InRange p0 p1 c.pos)
    else some
  | shift s p0 p1 delta => if s = seq then Ledger.shiftCell? p0 p1 delta else some
  | clear => fun _ => none

/-- What becomes of a cell in the end. -/
def fates (seq : SeqId) : List Edit → Cell → Option Cell
  | [], c => some c
  | e :: es, c => (e.fate seq c).bind (fates seq es)

/-- The cells that an edit puts into a sequence. -/
def added (l : Ledger) (seq : SeqId) : Edit → List Cell
  | append s ts => if s = seq then Ledger.cellsFrom (l.nextPos seq) ts else []
  | replace s ts => if s = seq then Ledger.cellsFrom 0 ts else []
  | remove _ _ _ | shift _ _ _ _ | clear => []

theorem fates_concat (seq : SeqId) (es : List Edit) (e : Edit) (c : Cell) :
    fates seq (es ++ [e]) c = (fates seq es c).bind (e.fate seq) := by
  induction es generalizing c with
  | nil => simp [fates]
  | cons d es ih => cases h : d.fate seq c <;> simp [fates, h, ih]

theorem filterMap_fates_cons (seq : SeqId) (e : Edit) (es : List Edit) (cells : List Cell) :
    cells.filterMap (fates seq (e :: es)) = (cells.filterMap (e.fate seq)).filterMap (fates seq es) := by
  rw [List.filterMap_filterMap]
  rfl

/-- Nothing but a shift of the sequence gives a cell that it keeps another position. -/
theorem eq_of_fate {e : Edit} {seq : SeqId} {c d : Cell} (h : e.fate seq c = some d) :
    d = c ∨ ∃ p0 p1 delta, e = shift seq p0 p1 delta := by
  cases e with
  | append s ts => exact .inl (Option.some.inj h).symm
  | replace s ts =>
    simp only [fate] at h
    split at h
    · cases h
    · exact .inl (Option.some.inj h).symm
  | remove s p0 p1 =>
    simp only [fate] at h
    split at h
    · exact .inl (Option.guard_eq_some_iff.1 h).1.symm
    · exact .inl (Option.some.inj h).symm
  | shift s p0 p1 delta =>
    simp only [fate] at h
    split at h
    case isTrue hs => exact .inr ⟨p0, p1, delta, by rw [hs]⟩
    case isFalse => exact .inl (Option.some.inj h).symm
  | clear => cases h

/-- Where a cell goes depends on its position alone. -/
theorem pos_of_fate {e : Edit} {seq : SeqId} {c d c' d' : Cell} (hpos : c.pos = d.pos)
    (hc : e.fate seq c = some c') (hd : e.fate seq d = some d') : c'.pos = d'.pos := by
  by_cases hshift : ∃ p0 p1 delta, e = shift seq p0 p1 delta
  · obtain ⟨p0, p1, delta, rfl⟩ := hshift
    simp only [fate, if_true] at hc hd
    have hc' := (Ledger.shiftCell?_some hc).2
    have hd' := (Ledger.shiftCell?_some hd).2
    -- the range holds both cells or neither
    rw [hpos] at hc'
    rcases hc' with ⟨hout, hc'⟩ | ⟨hin, hc', -⟩ <;> rcases hd' with ⟨hout', hd'⟩ | ⟨hin', hd', -⟩
    · omega
    · exact absurd hin' hout
    · exact absurd hin hout'
    · omega
  · obtain rfl := (eq_of_fate hc).resolve_right hshift
    obtain rfl := (eq_of_fate hd).resolve_right hshift
    exact hpos

end Edit

namespace Ledger

variable {l : Ledger} {seq : SeqId} {e : Edit} {es : List Edit} {cells : List Cell}

/-- The ledger after an edit. -/
def edit (l : Ledger) : Edit → Ledger
  | .append seq tokens => l.append seq tokens
  | .replace seq tokens => l.replace seq tokens
  | .remove seq p0 p1 => l.remove seq p0 p1
  | .shift seq p0 p1 delta => l.shift seq p0 p1 delta
  | .clear => l.clear

/-- The ledger after edits, one after the other. -/
def edits (l : Ledger) (es : List Edit) : Ledger := es.foldl edit l

/-- The cells of a sequence at one position, in the order they are stored in. -/
def row (l : Ledger) (seq : SeqId) (p : Nat) : List Cell := (l.cells seq).filter fun c => c.pos = p

/-- No position passes the last word but one, before the edits and after each of them. -/
def StaysBelow (l : Ledger) (es : List Edit) : Prop :=
  ∀ done, done <+: es → ∀ seq, ∀ c ∈ (l.edits done).cells seq, c.pos < Position.limit - 1

/-- The same, by looking at every cell. -/
theorem staysBelow_iff : l.StaysBelow es ↔
    (es.inits.all fun done => (l.edits done).seqs.values.flatten.all fun c =>
      c.pos < Position.limit - 1) = true := by
  simp only [StaysBelow, List.all_eq_true, List.mem_inits, List.mem_flatten, decide_eq_true_eq]
  refine forall₂_congr fun done _ => ⟨fun h c hc => ?_, fun h seq c hc => ?_⟩
  · obtain ⟨held, hheld, hc⟩ := hc
    obtain ⟨⟨seq, _⟩, hentry, rfl⟩ := List.mem_map.1 hheld
    apply h seq
    rwa [cells, Keyed.get?_eq_some_iff.2 hentry, Option.getD_some]
  · unfold cells at hc
    cases hget : (l.edits done).seqs.get? seq with
    | none => simp [hget] at hc
    | some held =>
      rw [hget, Option.getD_some] at hc
      exact h c ⟨held, List.mem_map_of_mem (Keyed.get?_eq_some_iff.1 hget), hc⟩

theorem edits_append (l : Ledger) (es fs : List Edit) : l.edits (es ++ fs) = (l.edits es).edits fs :=
  List.foldl_append

theorem StaysBelow.start (h : l.StaysBelow es) : ∀ c ∈ l.cells seq, c.pos < Position.limit - 1 :=
  h [] List.nil_prefix seq

theorem StaysBelow.of_prefix {done : List Edit} (h : l.StaysBelow es) (hdone : done <+: es) :
    l.StaysBelow done :=
  fun first hfirst => h first (hfirst.trans hdone)

theorem StaysBelow.rest {done after : List Edit} (h : l.StaysBelow (done ++ after)) :
    (l.edits done).StaysBelow after := by
  intro first hfirst
  rw [← edits_append]
  exact h (done ++ first) ((List.prefix_append_right_inj done).2 hfirst)

theorem StaysBelow.head (h : l.StaysBelow (e :: es)) : l.StaysBelow [e] :=
  h.of_prefix (List.prefix_append [e] es)

theorem StaysBelow.tail (h : l.StaysBelow (e :: es)) : (l.edit e).StaysBelow es :=
  @StaysBelow.rest l [e] es h

/-- What an append puts into a sequence ends before the last word. -/
theorem StaysBelow.room {ts : List Nat} (h : l.StaysBelow [.append seq ts]) :
    l.nextPos seq + ts.length ≤ Position.limit - 1 := by
  apply add_length_le_of_cellsFrom
  · exact nextPos_le_iff.2 h.start
  · intro c hc
    apply h _ List.prefix_rfl seq
    change c ∈ (l.append seq ts).cells seq
    rw [cells_append, if_pos rfl]
    exact List.mem_append_right _ hc

theorem StaysBelow.byPosition_edit (hbelow : l.StaysBelow [e]) (h : l.ByPosition) :
    (l.edit e).ByPosition := by
  cases e with
  | append seq ts => exact h.append seq (Nat.le_trans hbelow.room (Nat.sub_le _ _))
  | replace seq ts =>
    refine h.replace seq ?_
    have hroom : 0 + ts.length ≤ Position.limit - 1 := by
      apply add_length_le_of_cellsFrom (Nat.zero_le _)
      intro c hc
      apply hbelow _ List.prefix_rfl seq
      change c ∈ (l.replace seq ts).cells seq
      rwa [cells_replace, if_pos rfl]
    omega
  | remove seq p0 p1 => exact h.remove seq p0 p1
  | shift seq p0 p1 delta => exact h.shift seq p0 p1 delta
  | clear => exact ByPosition.empty

theorem StaysBelow.byPosition (hbelow : l.StaysBelow es) (h : l.ByPosition) :
    (l.edits es).ByPosition := by
  induction es generalizing l with
  | nil => exact h
  | cons e es ih => exact ih hbelow.tail (hbelow.head.byPosition_edit h)

/-- Sorting by position leaves alone what stands at one position. -/
theorem filter_mergeSort (cells : List Cell) (p : Nat) :
    ((cells.mergeSort fun a b => a.pos ≤ b.pos).filter fun c => c.pos = p) =
      cells.filter fun c => c.pos = p := by
  let sorted := cells.mergeSort fun a b => a.pos ≤ b.pos
  have hrow : (cells.filter fun c => c.pos = p).Pairwise fun a b => decide (a.pos ≤ b.pos) = true := by
    apply List.pairwise_of_forall_mem_list
    intro a ha b hb
    have hpa := of_decide_eq_true (List.mem_filter.1 ha).2
    have hpb := of_decide_eq_true (List.mem_filter.1 hb).2
    exact decide_eq_true (by omega)
  have hsub : (cells.filter fun c => c.pos = p).Sublist (sorted.filter fun c => c.pos = p) := by
    have h := (List.sublist_mergeSort pos_le_trans pos_le_total hrow List.filter_sublist).filter
      fun c => c.pos = p
    rwa [List.filter_filter, List.filter_congr fun c _ => Bool.and_self _] at h
  have hlen := ((List.mergeSort_perm cells fun a b => a.pos ≤ b.pos).filter fun c => c.pos = p).length_eq
  exact (hsub.eq_of_length hlen.symm).symm

/-- After an edit a sequence holds what became of its cells, by position, and then what was added. -/
theorem cells_edit (h : l.ByPosition) (e : Edit) (seq : SeqId) :
    (l.edit e).cells seq =
      (((l.cells seq).filterMap (e.fate seq)).mergeSort fun a b => a.pos ≤ b.pos) ++ e.added l seq := by
  have hsorted {cells : List Cell} (hsub : cells.Sublist (l.cells seq)) :
      (cells.mergeSort fun a b => a.pos ≤ b.pos) = cells :=
    List.mergeSort_of_pairwise (((h.sorted seq).sublist hsub).imp decide_eq_true)
  cases e with
  | append s ts =>
    simp only [edit, Edit.fate, Edit.added, cells_append, List.filterMap_some, hsorted (.refl _)]
    by_cases hs : seq = s
    · simp [hs]
    · simp [hs, Ne.symm hs]
  | replace s ts =>
    simp only [edit, Edit.fate, Edit.added, cells_replace]
    by_cases hs : seq = s
    · simp [hs]
    · simp [hs, Ne.symm hs, hsorted (.refl _)]
  | remove s p0 p1 =>
    simp only [edit, Edit.fate, Edit.added, cells_remove, List.append_nil]
    by_cases hs : s = none ∨ s = some seq
    · simp only [hs, if_true, List.filterMap_eq_filter, hsorted List.filter_sublist]
    · simp only [hs, if_false, List.filterMap_some, hsorted (.refl _)]
  | shift s p0 p1 delta =>
    simp only [edit, Edit.fate, Edit.added, cells_shift, List.append_nil]
    by_cases hs : seq = s
    · simp [hs, shiftCells]
    · simp [hs, Ne.symm hs, hsorted (.refl _)]
  | clear => simp [edit, clear, cells, Edit.fate, Edit.added]

theorem pos_of_mem_row {p : Nat} {c : Cell} (hc : c ∈ l.row seq p) : c.pos = p :=
  of_decide_eq_true (List.mem_filter.1 hc).2

theorem pos_eq_of_sublist_row {p : Nat} {x y : Cell} (h : [x, y].Sublist (l.row seq p)) :
    x.pos = y.pos := by
  have hx := pos_of_mem_row (h.subset (by simp : x ∈ [x, y]))
  have hy := pos_of_mem_row (h.subset (by simp : y ∈ [x, y]))
  rw [hx, hy]

theorem row_edit (h : l.ByPosition) (e : Edit) (seq : SeqId) (p : Nat) :
    (l.edit e).row seq p =
      (((l.cells seq).filterMap (e.fate seq)).filter fun c => c.pos = p) ++
        (e.added l seq).filter fun c => c.pos = p := by
  rw [row, cells_edit h, List.filter_append, filter_mergeSort]

/-- A shift puts the cells that come to a position, or stay there, in the order they were stored in. -/
theorem row_shift (l : Ledger) (seq : SeqId) (p0 : Nat) (p1 : Option Nat) (delta : Int) (p : Nat) :
    (l.shift seq p0 p1 delta).row seq p =
      ((l.cells seq).filterMap (shiftCell? p0 p1 delta)).filter fun c => c.pos = p := by
  rw [row, cells_shift, if_pos rfl, shiftCells, filter_mergeSort]

theorem added_pairwise (l : Ledger) (seq : SeqId) (e : Edit) :
    (e.added l seq).Pairwise fun a b => a.pos < b.pos := by
  cases e with
  | append s ts | replace s ts =>
    simp only [Edit.added]
    split
    · exact cellsFrom_pairwise _ ts
    · exact List.Pairwise.nil
  | remove | shift | clear => exact List.Pairwise.nil

/-- What is added to a sequence comes after all that it still holds. -/
theorem pos_lt_added {c d : Cell} (hc : c ∈ (l.cells seq).filterMap (e.fate seq))
    (hd : d ∈ e.added l seq) : c.pos < d.pos := by
  cases e with
  | append s ts =>
    simp only [Edit.added] at hd
    split at hd
    case isTrue =>
      simp only [Edit.fate, List.filterMap_some] at hc
      have hlt := pos_lt_nextPos hc
      have hge := (pos_of_mem_cellsFrom hd).1
      omega
    case isFalse => cases hd
  | replace s ts =>
    simp only [Edit.added] at hd
    split at hd
    case isTrue hs => simp [Edit.fate, hs] at hc
    case isFalse => cases hd
  | remove | shift | clear => cases hd

/-- Cells at one position are still at one after an edit, in the same order, unless they are gone. -/
theorem sublist_row_edit (h : l.ByPosition) (e : Edit) {p : Nat} (hsub : cells.Sublist (l.row seq p)) :
    ∃ q, (cells.filterMap (e.fate seq)).Sublist ((l.edit e).row seq q) := by
  have hpos : ∀ c ∈ cells, c.pos = p := fun c hc => pos_of_mem_row (hsub.subset hc)
  -- what is left of them is at one position as well
  obtain ⟨q, hq⟩ : ∃ q, ∀ c ∈ cells.filterMap (e.fate seq), c.pos = q := by
    cases hkept : cells.filterMap (e.fate seq) with
    | nil => exact ⟨0, List.forall_mem_nil _⟩
    | cons d ds =>
      refine ⟨d.pos, fun c hc => ?_⟩
      rw [← hkept] at hc
      obtain ⟨c₀, hc₀, hfc⟩ := List.mem_filterMap.1 hc
      obtain ⟨d₀, hd₀, hfd⟩ := List.mem_filterMap.1 (hkept ▸ List.mem_cons_self : d ∈ cells.filterMap _)
      exact Edit.pos_of_fate ((hpos c₀ hc₀).trans (hpos d₀ hd₀).symm) hfc hfd
  have hmoved := ((hsub.trans List.filter_sublist).filterMap (e.fate seq)).filter fun c => c.pos = q
  rw [List.filter_eq_self.2 fun c hc => decide_eq_true (hq c hc)] at hmoved
  refine ⟨q, ?_⟩
  rw [row_edit h]
  exact hmoved.trans (List.sublist_append_left _ _)

/-- The same through any further edits. -/
theorem sublist_row_edits (hbelow : l.StaysBelow es) (h : l.ByPosition) {p : Nat}
    (hsub : cells.Sublist (l.row seq p)) :
    ∃ q, (cells.filterMap (Edit.fates seq es)).Sublist ((l.edits es).row seq q) := by
  induction es generalizing l cells p with
  | nil => exact ⟨p, by simpa [Edit.fates, edits] using hsub⟩
  | cons e es ih =>
    obtain ⟨q, hq⟩ := sublist_row_edit h e hsub
    rw [Edit.filterMap_fates_cons]
    exact ih hbelow.tail (hbelow.head.byPosition_edit h) hq

/-- Two results in a row come from two arguments in the same row. -/
theorem exists_pair_of_filterMap {f : Cell → Option Cell} {x y : Cell}
    (h : [x, y].Sublist (cells.filterMap f)) :
    ∃ a b, [a, b].Sublist cells ∧ f a = some x ∧ f b = some y := by
  induction cells with
  | nil => cases h
  | cons c cells ih =>
    cases hc : f c with
    | none =>
      rw [List.filterMap_cons_none hc] at h
      obtain ⟨a, b, hab, hfa, hfb⟩ := ih h
      exact ⟨a, b, hab.cons c, hfa, hfb⟩
    | some d =>
      rw [List.filterMap_cons_some hc] at h
      rcases List.sublist_cons_iff.1 h with hlater | ⟨r, hr, hlater⟩
      · obtain ⟨a, b, hab, hfa, hfb⟩ := ih hlater
        exact ⟨a, b, hab.cons c, hfa, hfb⟩
      · obtain ⟨rfl, rfl⟩ := List.cons.inj hr
        obtain ⟨b, hb, hfb⟩ := List.mem_filterMap.1 (List.singleton_sublist.1 hlater)
        exact ⟨c, b, (List.singleton_sublist.2 hb).cons_cons c, hc, hfb⟩

/-- Cells at one position were there before an edit, stored in the same order. -/
theorem exists_pair_of_edit (h : l.ByPosition) {p : Nat} {x y : Cell}
    (hxy : [x, y].Sublist ((l.edit e).row seq p)) :
    ∃ a b, [a, b].Sublist (l.cells seq) ∧ e.fate seq a = some x ∧ e.fate seq b = some y := by
  have hsame : x.pos = y.pos := pos_eq_of_sublist_row hxy
  rw [row_edit h] at hxy
  obtain ⟨old, new, hsplit, hold, hnew⟩ := List.sublist_append_iff.1 hxy
  replace hold := hold.trans List.filter_sublist
  replace hnew := hnew.trans List.filter_sublist
  -- a cell that was added has no other one at its position
  match old, new, hsplit with
  | [_, _], [], rfl => exact exists_pair_of_filterMap hold
  | [_], [_], rfl =>
    have hlt := pos_lt_added (List.singleton_sublist.1 hold) (List.singleton_sublist.1 hnew)
    omega
  | [], [_, _], rfl =>
    have hlt := List.pairwise_pair.1 ((added_pairwise l seq e).sublist hnew)
    omega

/-- An edit brings two cells of a sequence, which are stored in this order at two positions, to one. -/
structure Joins (l : Ledger) (seq : SeqId) (e : Edit) (a b a' b' : Cell) : Prop where
  stored : [a, b].Sublist (l.cells seq)
  apart : a.pos < b.pos
  left : e.fate seq a = some a'
  right : e.fate seq b = some b'
  together : a'.pos = b'.pos

/-- Two cells that stand at one position were brought there by a shift, before which they stood apart in
this order. -/
theorem exists_joins (hbelow : StaysBelow {} es) {p : Nat} {x y : Cell}
    (hxy : [x, y].Sublist ((edits {} es).row seq p)) :
    ∃ before p0 p1 delta after, es = before ++ .shift seq p0 p1 delta :: after ∧
      ∃ a b a' b', Joins (edits {} before) seq (.shift seq p0 p1 delta) a b a' b' ∧
        Edit.fates seq after a' = some x ∧ Edit.fates seq after b' = some y := by
  -- by the last edit: the two were at one position before it already, or it is the shift
  induction es using List.reverseRecOn generalizing p x y with
  | nil => cases hxy
  | append_singleton es e ih =>
    have hbefore : StaysBelow {} es := hbelow.of_prefix (List.prefix_append es [e])
    have h : (edits {} es).ByPosition := hbefore.byPosition ByPosition.empty
    have hsame : x.pos = y.pos := pos_eq_of_sublist_row hxy
    rw [edits_append] at hxy
    obtain ⟨a, b, hab, hfa, hfb⟩ := exists_pair_of_edit h hxy
    by_cases hpos : a.pos = b.pos
    case pos =>
      have hrow : [a, b].Sublist ((edits {} es).row seq b.pos) := by
        have hfilter := hab.filter fun c => c.pos = b.pos
        simpa [hpos, row] using hfilter
      obtain ⟨before, p0, p1, delta, after, rfl, a₀, b₀, a', b', hjoins, ha, hb⟩ := ih hbefore hrow
      refine ⟨before, p0, p1, delta, after ++ [e], by simp, a₀, b₀, a', b', hjoins, ?_, ?_⟩
      · rw [Edit.fates_concat, ha, Option.bind_some, hfa]
      · rw [Edit.fates_concat, hb, Option.bind_some, hfb]
    case neg =>
      -- an edit that is no shift of the sequence would have left them where they were
      have hshift : ∃ p0 p1 delta, e = .shift seq p0 p1 delta := by
        by_contra hno
        obtain rfl := (Edit.eq_of_fate hfa).resolve_right hno
        obtain rfl := (Edit.eq_of_fate hfb).resolve_right hno
        exact hpos hsame
      obtain ⟨p0, p1, delta, rfl⟩ := hshift
      have hle := List.pairwise_pair.1 ((h.sorted seq).sublist hab)
      refine ⟨es, p0, p1, delta, [], rfl, a, b, x, y, ⟨hab, ?_, hfa, hfb, hsame⟩, rfl, rfl⟩
      omega

/-- In a row by position, the cells at one position come right after those below it. -/
theorem filter_lt_succ (h : cells.Pairwise fun a b => a.pos ≤ b.pos) (p : Nat) :
    (cells.filter fun c => c.pos < p + 1) =
      (cells.filter fun c => c.pos < p) ++ cells.filter fun c => c.pos = p := by
  induction cells with
  | nil => rfl
  | cons c cells ih =>
    obtain ⟨hc, hcells⟩ := List.pairwise_cons.1 h
    by_cases hp : c.pos < p
    · have hlt : c.pos < p + 1 := by omega
      have hne : c.pos ≠ p := by omega
      simp only [List.filter_cons, hlt, hp, hne, decide_true, decide_false, if_true,
        Bool.false_eq_true, if_false, ih hcells, List.cons_append]
    · -- from here on no cell stands below
      have hge : ∀ x ∈ c :: cells, p ≤ x.pos := by
        intro x hx
        rcases List.mem_cons.1 hx with rfl | hx
        · omega
        · have := hc x hx
          omega
      have hnone : ((c :: cells).filter fun x => x.pos < p) = [] := by
        apply List.filter_eq_nil_iff.2
        intro x hx
        simpa using hge x hx
      rw [hnone, List.nil_append]
      apply List.filter_congr
      intro x hx
      have := hge x hx
      simp only [decide_eq_decide]
      omega

/-- A row by position is put together from what stands at each position. -/
theorem eq_flatMap_of_sorted {n : Nat} (h : cells.Pairwise fun a b => a.pos ≤ b.pos)
    (hn : ∀ c ∈ cells, c.pos < n) :
    cells = (List.range n).flatMap fun p => cells.filter fun c => c.pos = p := by
  have hbelow (k : Nat) : (cells.filter fun c => c.pos < k) =
      (List.range k).flatMap fun p => cells.filter fun c => c.pos = p := by
    induction k with
    | zero => simp
    | succ k ih =>
      rw [filter_lt_succ h, ih, List.range_succ, List.flatMap_append, List.flatMap_singleton]
  rw [← hbelow]
  exact (List.filter_eq_self.2 fun c hc => decide_eq_true (hn c hc)).symm

/-- The tokens of a sequence are those at its first position, then those at the next, and so on. -/
theorem tokens_eq_flatMap (h : l.ByPosition) (seq : SeqId) :
    l.tokens seq =
      (List.range (l.nextPos seq)).flatMap fun p => (l.row seq p).map (·.token) := by
  have hcells : l.cells seq = (List.range (l.nextPos seq)).flatMap (l.row seq) :=
    eq_flatMap_of_sorted (h.sorted seq) fun c hc => pos_lt_nextPos hc
  rw [tokens, hcells, List.map_flatMap]

/-- What an append does to a sequence: tokens at consecutive positions, before the last word and past all
cells that were there. -/
theorem append_puts_behind {ts : List Nat} (hbelow : l.StaysBelow [.append seq ts]) :
    ∃ start new, (l.append seq ts).cells seq = l.cells seq ++ new ∧ new.map (·.token) = ts ∧
      new.map (·.pos) = List.range' start ts.length ∧ start + ts.length < Position.limit ∧
      ∀ c ∈ l.cells seq, c.pos < start := by
  have hroom := hbelow.room
  have hlimit : 0 < Position.limit := by decide
  refine ⟨l.nextPos seq, cellsFrom (l.nextPos seq) ts, ?_, tokens_cellsFrom _ ts,
    positions_cellsFrom _ ts, by omega, fun c hc => pos_lt_nextPos hc⟩
  rw [cells_append, if_pos rfl]

/-- After any edits of an empty ledger that let no position pass the last word but one, every sequence has
its cells by position, and its tokens are those at each position in turn. An append puts its tokens at consecutive
positions above all cells of the sequence. A shift leaves at each position what comes there, or stays, in the
order it was stored in, and in that order it remains, as far as it is not deleted, at one position ever after.
No two cells stand at one position but those that a shift has brought together, stored in this order before it. -/
theorem edits_keep_stored_order {es : List Edit} (hbelow : StaysBelow {} es) (seq : SeqId) :
    let l := edits {} es
    ((l.cells seq).Pairwise fun a b => a.pos ≤ b.pos) ∧
      l.tokens seq =
        (List.range (l.nextPos seq)).flatMap (fun p => (l.row seq p).map (·.token)) ∧
      (∀ before ts after, es = before ++ .append seq ts :: after →
        ∃ start new,
          (edits {} (before ++ [.append seq ts])).cells seq = (edits {} before).cells seq ++ new ∧
            new.map (·.token) = ts ∧ new.map (·.pos) = List.range' start ts.length ∧
            start + ts.length < Position.limit ∧
            ∀ c ∈ (edits {} before).cells seq, c.pos < start) ∧
      (∀ before p0 p1 delta after, es = before ++ .shift seq p0 p1 delta :: after → ∀ p,
        let met := (((edits {} before).cells seq).filterMap (shiftCell? p0 p1 delta)).filter
          fun c => c.pos = p
        (edits {} (before ++ [.shift seq p0 p1 delta])).row seq p = met ∧
          ∃ q, (met.filterMap (Edit.fates seq after)).Sublist (l.row seq q)) ∧
      ∀ p x y, [x, y].Sublist (l.row seq p) →
        ∃ before p0 p1 delta after, es = before ++ .shift seq p0 p1 delta :: after ∧
          ∃ a b a' b', Joins (edits {} before) seq (.shift seq p0 p1 delta) a b a' b' ∧
            Edit.fates seq after a' = some x ∧ Edit.fates seq after b' = some y := by
  intro l
  have h : l.ByPosition := hbelow.byPosition ByPosition.empty
  refine ⟨h.sorted seq, tokens_eq_flatMap h seq, ?appends, ?shifts,
    fun p x y hxy => exists_joins hbelow hxy⟩
  case appends =>
    rintro before ts after rfl
    have hrest : (edits {} before).StaysBelow (.append seq ts :: after) := hbelow.rest
    rw [edits_append]
    exact append_puts_behind hrest.head
  case shifts =>
    rintro before p0 p1 delta after rfl p
    let e : Edit := .shift seq p0 p1 delta
    have hsplit : before ++ e :: after = (before ++ [e]) ++ after := by simp
    have hdone : StaysBelow {} (before ++ [e]) := by
      apply hbelow.of_prefix
      rw [hsplit]
      exact List.prefix_append _ after
    have hafter : (edits {} (before ++ [e])).StaysBelow after := by
      apply StaysBelow.rest
      rwa [← hsplit]
    have hstep : edits {} (before ++ [e]) = (edits {} before).shift seq p0 p1 delta := by
      rw [edits_append]
      rfl
    have hl : l = (edits {} (before ++ [e])).edits after := by rw [← edits_append, ← hsplit]
    dsimp only
    rw [← row_shift, ← hstep, hl]
    exact ⟨rfl, sublist_row_edits hafter (hdone.byPosition ByPosition.empty) (.refl _)⟩

/-- Two pairs of cells meet and one of the pairs moves on, before the other is deleted. -/
def twoPairs : List Edit :=
  [.append 1 [10, 11, 12, 13], .shift 1 0 (some 2) 2, .shift 1 2 (some 3) (-2), .append 1 [20],
    .remove (some 1) 3 (some 4)]

theorem edits_keep_stored_order_two_pairs :
    StaysBelow {} twoPairs ∧
      (edits {} twoPairs).cells 1 = [⟨0, 10⟩, ⟨0, 12⟩, ⟨4, 20⟩] ∧
      (edits {} twoPairs).tokens 1 = [10, 12, 20] ∧
      ∃ before p0 p1 delta after, twoPairs = before ++ .shift 1 p0 p1 delta :: after ∧
        ∃ a b a' b', Joins (edits {} before) 1 (.shift 1 p0 p1 delta) a b a' b' ∧
          Edit.fates 1 after a' = some ⟨0, 10⟩ ∧ Edit.fates 1 after b' = some ⟨0, 12⟩ := by
  have hbelow : StaysBelow {} twoPairs := staysBelow_iff.2 (by cbv)
  have hrow : (edits {} twoPairs).row 1 0 = [⟨0, 10⟩, ⟨0, 12⟩] := by cbv
  obtain ⟨-, htokens, -, -, hmet⟩ := edits_keep_stored_order hbelow 1
  refine ⟨hbelow, by cbv, ?_, hmet 0 _ _ ?_⟩
  · rw [htokens]
    cbv
  · rw [hrow]

end Ledger

end ChatInference
