import ChatInference.Decode.Logits
import Mathlib.Data.List.Perm.Basic

/-!
The penalties of a window see how often each token occurs in it, and nothing of the order: not that of the
window, nor that in which the table of counts is walked. Each entry of such a table has a token of its own,
so each score is changed at most once, by itself, and the additions need no law. Tokens past the vocabulary
have no score to change.
-/

namespace ChatInference.Logits

variable {ls : Logits} {s : Sampling} {w w' : List Nat} {table : List (Nat × Nat)}

theorem nodup_eraseDups (ts : List Nat) : ts.eraseDups.Nodup := by
  match ts with
  | [] => exact List.nodup_nil
  | t :: ts =>
    rw [List.eraseDups_cons, List.nodup_cons, List.mem_eraseDups, List.mem_filter]
    refine ⟨fun h => ?_, nodup_eraseDups _⟩
    rw [beq_self_eq_true] at h
    exact Bool.noConfusion h.2
termination_by ts.length
decreasing_by
  exact Nat.lt_succ_of_le (List.length_filter_le _ ts)

/-- Changes of single scores, no token twice: every score is changed by itself. -/
theorem foldl_modify {ts : List Nat} (hts : ts.Nodup) (change : Nat → Float32 → Float32)
    (ls : Logits) :
    ts.foldl (fun ls t => ls.modify t (change t)) ls =
      ls.mapIdx fun t x => if t ∈ ts then change t x else x := by
  induction ts generalizing ls with
  | nil =>
    apply List.ext_getElem?
    intro i
    rw [List.getElem?_mapIdx]
    simp only [List.foldl_nil, List.not_mem_nil, if_false, Option.map_id']
  | cons t ts ih =>
    obtain ⟨hnew, hts⟩ := List.nodup_cons.1 hts
    rw [List.foldl_cons, ih hts]
    apply List.ext_getElem?
    intro i
    rw [List.getElem?_mapIdx, List.getElem?_mapIdx, List.getElem?_modify, Option.map_eq_map,
      Option.map_map]
    congr 1
    funext x
    by_cases hi : t = i
    · -- the changes that come later leave the score of the first alone
      subst hi
      rw [Function.comp_apply, if_pos rfl, if_neg hnew, if_pos List.mem_cons_self]
    · have hmem : i ∈ t :: ts ↔ i ∈ ts := by
        rw [List.mem_cons]
        exact or_iff_right (Ne.symm hi)
      simp only [Function.comp_apply, if_neg hi, hmem]

/-- The scores with the counts of a window as a table gives them, one after the other. -/
def shapeWalking (ls : Logits) (s : Sampling) (table : List (Nat × Nat)) : Logits :=
  let ls := ls.addBias s.logitBias
  let ls := if hasPenalty s then ls.penalize s table else ls
  if 0.0 < s.minP && s.minP < 1.0 then ls.cut s else ls

theorem shape_eq_shapeWalking (ls : Logits) (s : Sampling) (w : List Nat) :
    ls.shape s w = ls.shapeWalking s (counts w) :=
  rfl

/-- What the counts of a window do to scores, in whatever order they come: each token of the window has
its score lowered once, by the penalty for all the times it occurs. -/
theorem penalize_of_perm (h : table.Perm (counts w)) (ls : Logits) (s : Sampling) :
    ls.penalize s table = ls.mapIdx fun t x => if t ∈ w then x - penalty s (w.count t) else x := by
  -- an entry is known from its token, and no two entries share one
  have hkeys : (table.map (·.1)).Perm w.eraseDups := by
    have hmap := h.map (·.1)
    rw [counts, List.map_map] at hmap
    exact hmap.trans (List.Perm.of_eq (List.map_id _))
  have hmem (t : Nat) : t ∈ table.map (·.1) ↔ t ∈ w := by
    rw [hkeys.mem_iff, List.mem_eraseDups]
  have htable : table = (table.map (·.1)).map fun t => (t, w.count t) := by
    rw [List.map_map]
    refine (List.map_congr_left fun e he => ?_).trans (List.map_id table) |>.symm
    obtain ⟨t, -, rfl⟩ := List.mem_map.1 (h.mem_iff.1 he)
    rfl
  calc ls.penalize s table
      = ls.penalize s ((table.map (·.1)).map fun t => (t, w.count t)) := congrArg _ htable
    _ = (table.map (·.1)).foldl (fun ls t => ls.modify t (· - penalty s (w.count t))) ls := by
        rw [penalize, List.foldl_map]
    _ = _ := by
        rw [foldl_modify (hkeys.nodup_iff.2 (nodup_eraseDups w))]
        simp only [hmem]

theorem length_foldl {α : Type} {step : Logits → α → Logits}
    (h : ∀ ls a, (step ls a).length = ls.length) (ls : Logits) (as : List α) :
    (as.foldl step ls).length = ls.length := by
  induction as generalizing ls with
  | nil => rfl
  | cons a as ih => rw [List.foldl_cons, ih, h]

theorem length_addBias (ls : Logits) (biases : List (Nat × Float32)) :
    (ls.addBias biases).length = ls.length := by
  refine length_foldl (fun ls b => ?_) ls biases
  rw [List.length_modify]

theorem length_penalize (ls : Logits) (s : Sampling) (table : List (Nat × Nat)) :
    (ls.penalize s table).length = ls.length := by
  refine length_foldl (fun ls e => ?_) ls table
  rw [List.length_modify]

theorem addBias_filter (ls : Logits) (biases : List (Nat × Float32)) :
    ls.addBias (biases.filter (·.1 < ls.length)) = ls.addBias biases := by
  unfold addBias
  induction biases generalizing ls with
  | nil => rfl
  | cons b biases ih =>
    -- a bias changes no length, so those that come later are sifted as the first is
    have hrest := ih (ls.modify b.1 (· + b.2))
    rw [List.length_modify] at hrest
    by_cases hb : b.1 < ls.length
    · rw [List.filter_cons, if_pos (decide_eq_true hb), List.foldl_cons, List.foldl_cons, hrest]
    · have hsame : ls.modify b.1 (· + b.2) = ls := List.modify_eq_self (Nat.le_of_not_lt hb)
      rw [List.filter_cons, if_neg (by simpa using hb), List.foldl_cons, hsame, ih]

/-- Only the tokens of the vocabulary have a score that a window could lower. -/
theorem penalize_filter (ls : Logits) (s : Sampling) (w : List Nat) :
    ls.penalize s (counts (w.filter (· < ls.length))) = ls.penalize s (counts w) := by
  rw [penalize_of_perm (List.Perm.refl _), penalize_of_perm (List.Perm.refl _),
    List.mapIdx_eq_mapIdx_iff]
  intro t ht
  have hin : decide (t < ls.length) = true := decide_eq_true ht
  have hmem : t ∈ w.filter (· < ls.length) ↔ t ∈ w := by
    rw [List.mem_filter]
    exact and_iff_left hin
  have hcount : (w.filter (· < ls.length)).count t = w.count t := List.count_filter hin
  simp only [hmem, hcount]

theorem length_cut (ls : Logits) (s : Sampling) : (ls.cut s).length = ls.length := by
  rw [cut]
  split
  · rw [List.length_map]
  · rfl

theorem length_shape (ls : Logits) (s : Sampling) (w : List Nat) :
    (ls.shape s w).length = ls.length := by
  have hpenalized : (if hasPenalty s then (ls.addBias s.logitBias).penalize s (counts w)
      else ls.addBias s.logitBias).length = ls.length := by
    split
    · rw [length_penalize, length_addBias]
    · rw [length_addBias]
  rw [shape]
  split
  · rw [length_cut, hpenalized]
  · rw [hpenalized]

/-- What the biases leave is all that a table sees of the scores, and that is one score for each token. -/
theorem shapeWalking_congr {table' : List (Nat × Nat)}
    (h : ∀ ls' : Logits, ls'.length = ls.length → ls'.penalize s table = ls'.penalize s table') :
    ls.shapeWalking s table = ls.shapeWalking s table' := by
  rw [shapeWalking, shapeWalking, h _ (length_addBias ls s.logitBias)]

/-- Windows that differ in their order only make the same of all scores, in whatever order the tables of
their counts are walked. No score is added for a token past the vocabulary, and such tokens may as well be
left out of the window and of the biases. -/
theorem shape_eq_of_perm {table' : List (Nat × Nat)} (hw : w.Perm w') (ht : table.Perm (counts w))
    (ht' : table'.Perm (counts w')) (ls : Logits) (s : Sampling) :
    ls.shapeWalking s table = ls.shapeWalking s table' ∧
      ls.shapeWalking s table = ls.shape s w ∧
      (ls.shape s w).length = ls.length ∧
      ls.shape { s with logitBias := s.logitBias.filter (·.1 < ls.length) }
        (w.filter (· < ls.length)) = ls.shape s w := by
  refine ⟨?walks, ?walk, length_shape ls s w, ?vocabulary⟩
  case walks =>
    apply shapeWalking_congr
    intro ls' _
    rw [penalize_of_perm ht, penalize_of_perm ht']
    simp only [hw.mem_iff, hw.count_eq]
  case walk =>
    rw [shape_eq_shapeWalking]
    apply shapeWalking_congr
    intro ls' _
    rw [penalize_of_perm ht, penalize_of_perm (List.Perm.refl _)]
  case vocabulary =>
    -- first the biases, then the window, whose penalties see as many scores as there were
    have hbias : ls.shape { s with logitBias := s.logitBias.filter (·.1 < ls.length) }
        (w.filter (· < ls.length)) = ls.shape s (w.filter (· < ls.length)) := by
      rw [shape, shape, addBias_filter]
      rfl
    rw [hbias, shape_eq_shapeWalking, shape_eq_shapeWalking]
    apply shapeWalking_congr
    intro ls' hlength
    rw [← hlength, penalize_filter]

/-- One token three times and one past the end of a vocabulary of three, in two orders. -/
theorem shape_eq_of_perm_three :
    let s : Sampling := { frequencyPenalty := 0.5, presencePenalty := 1.0, logitBias := [(2, 1.5), (7, 4.0)] }
    let ls : Logits := [1.0, 2.0, 3.0]
    [1, 1, 2, 9, 1].Perm [9, 1, 2, 1, 1] ∧
      ls.shapeWalking s [(2, 1), (9, 1), (1, 3)] = ls.shapeWalking s [(1, 3), (2, 1), (9, 1)] ∧
      ls.shapeWalking s [(2, 1), (9, 1), (1, 3)] = ls.shape s [1, 1, 2, 9, 1] ∧
      (ls.shape s [1, 1, 2, 9, 1]).length = 3 ∧
      ls.shape { s with logitBias := [(2, 1.5)] } [1, 1, 2, 1] = ls.shape s [1, 1, 2, 9, 1] := by
  have hw : [1, 1, 2, 9, 1].Perm [9, 1, 2, 1, 1] := by decide
  have ht : [(2, 1), (9, 1), (1, 3)].Perm (counts [1, 1, 2, 9, 1]) := by decide
  have ht' : [(1, 3), (2, 1), (9, 1)].Perm (counts [9, 1, 2, 1, 1]) := by decide
  exact ⟨hw, shape_eq_of_perm hw ht ht' [1.0, 2.0, 3.0]
    { frequencyPenalty := 0.5, presencePenalty := 1.0, logitBias := [(2, 1.5), (7, 4.0)] }⟩

end ChatInference.Logits
