import ChatInference.Proofs.Cache.Upkeep

/-!
What comes back of a trimmed tail. A sequence holds some of the tokens it has ingested, in their order.
A removal that reaches its end lowers the length ingested by as many tokens as it took, and the next
turn feeds as many again from the end of what was ingested. These are the tokens that were trimmed as
long as none was discarded among them before.
-/

namespace ChatInference

/-- What stands before the end of a part of a list stands before the same end of the list. -/
theorem sublist_take_of_append {xs ys zs : List Nat} (h : (xs ++ ys).Sublist zs) :
    xs.Sublist (zs.take (zs.length - ys.length)) := by
  obtain ⟨us, vs, rfl, hus, hvs⟩ := List.append_sublist_iff.1 h
  have hlen := hvs.length_le
  rw [List.length_append]
  have hprefix : us.Sublist ((us ++ vs).take (us.length + vs.length - ys.length)) := by
    rw [List.take_append, List.take_of_length_le (by omega)]
    exact List.sublist_append_left us _
  exact hus.trans hprefix

/-- Renderings of which one extends the other begin alike. -/
theorem take_eq_take_of_related {xs ys : List Nat} (h : xs <+: ys ∨ ys <+: xs) {n : Nat}
    (hx : n ≤ xs.length) (hy : n ≤ ys.length) : xs.take n = ys.take n := by
  rcases h with ⟨more, rfl⟩ | ⟨more, rfl⟩
  · rw [List.take_append_of_le_length hx]
  · rw [List.take_append_of_le_length hy]

/-- A removal that reaches past the last cell leaves those before its start. -/
theorem Ledger.filter_prefix {cells : List Cell} {p0 : Nat} {p1 : Option Nat} (h : Ascending cells)
    (hend : ∀ c ∈ cells, c.pos < Position.rangeEnd p1) :
    (cells.filter fun c => !decide (Position.InRange p0 p1 c.pos)) <+: cells := by
  induction cells with
  | nil => exact List.prefix_rfl
  | cons c cells ih =>
    obtain ⟨hc, hcells⟩ := List.pairwise_cons.1 h
    rw [List.forall_mem_cons] at hend
    by_cases hstart : p0 ≤ c.pos
    · -- all that follow stand at higher positions, and so in the range too
      have hnone : ((c :: cells).filter fun c => !decide (Position.InRange p0 p1 c.pos)) = [] := by
        apply List.filter_eq_nil_iff.2
        intro d hd
        have hin : Position.InRange p0 p1 d.pos := by
          rcases List.mem_cons.1 hd with rfl | hd
          · exact ⟨hstart, hend.1⟩
          · exact ⟨Nat.le_of_lt (Nat.lt_of_le_of_lt hstart (hc d hd)), hend.2 d hd⟩
        rw [decide_eq_true hin]
        exact Bool.false_ne_true
      rw [hnone]
      exact List.nil_prefix
    · have hout : ¬Position.InRange p0 p1 c.pos := fun hin => hstart hin.1
      rw [List.filter_cons_of_pos (by rw [decide_eq_false hout]; rfl)]
      exact (List.prefix_cons_inj c).2 (ih hcells hend.2)

namespace StagingCache

variable {c : StagingCache} {seq : SeqId}

/-- A removal that reaches the tail takes the last tokens of a sequence. -/
theorem tokens_remove_prefix (h : c.ledger.InOrder) {p1 : Option Nat}
    (htail : c.reachesTail seq p1 = true) (rm : Option SeqId) (p0 : Nat) :
    (c.ledger.remove rm p0 p1).tokens seq <+: c.ledger.tokens seq := by
  refine List.IsPrefix.map _ ?_
  rw [Ledger.cells_remove]
  split
  case isFalse => exact List.prefix_rfl
  case isTrue =>
    refine Ledger.filter_prefix (h.ascending seq) fun x hx => ?_
    have hlt := Ledger.pos_lt_nextPos hx
    have hend := (reachesTail_iff (Nat.zero_lt_of_lt hlt) (h.fits seq) p1).1 htail
    exact Nat.lt_of_lt_of_le hlt hend

theorem seen_remove (c : StagingCache) (rm : Option SeqId) (p0 : Nat) (p1 : Option Nat)
    (seq : SeqId) :
    (c.remove rm p0 p1).seen seq =
      if rm = none ∨ rm = some seq then
        if (c.ledger.remove rm p0 p1).length seq = 0 then 0
        else if c.reachesTail seq p1 = true then
          c.seen seq - (c.ledger.length seq - (c.ledger.remove rm p0 p1).length seq)
        else c.seen seq
      else c.seen seq := by
  unfold seen
  rw [ingested_remove]
  split
  case isFalse => rfl
  case isTrue =>
    cases c.ingested.get? seq with
    | none => simp
    | some n =>
      rw [Option.bind_some]
      unfold seenAfter
      dsimp only
      simp only [beq_iff_eq]
      split
      · rfl
      · split <;> rfl

/-- As many tokens as a sequence loses at its end, it has ingested its rendering less far. -/
theorem remove_of_tail (h : c.ledger.InOrder) {rm : Option SeqId} (hrm : rm = none ∨ rm = some seq)
    {p0 : Nat} {p1 : Option Nat} (htail : c.reachesTail seq p1 = true)
    (hleft : (c.ledger.remove rm p0 p1).length seq ≠ 0) :
    ∃ trimmed, (c.remove rm p0 p1).ledger.tokens seq ++ trimmed = c.ledger.tokens seq ∧
      (c.remove rm p0 p1).seen seq = c.seen seq - trimmed.length := by
  obtain ⟨trimmed, htrimmed⟩ := tokens_remove_prefix h htail rm p0
  have hlost : c.ledger.length seq =
      (c.ledger.remove rm p0 p1).length seq + trimmed.length := by
    unfold Ledger.tokens at htrimmed
    have hlen := congrArg List.length htrimmed
    rw [List.length_append, List.length_map, List.length_map] at hlen
    exact hlen.symm
  refine ⟨trimmed, htrimmed, ?_⟩
  rw [seen_remove, if_pos hrm, if_neg hleft, if_pos htail, hlost, Nat.add_sub_cancel_left]

theorem seen_remove_le (c : StagingCache) (rm : Option SeqId) (p0 : Nat) (p1 : Option Nat)
    (seq : SeqId) : (c.remove rm p0 p1).seen seq ≤ c.seen seq := by
  rw [seen_remove]
  split
  case isFalse => exact Nat.le_refl _
  case isTrue =>
    split
    · exact Nat.zero_le _
    · split <;> omega

/-- A removal empties a sequence, or trims it and lowers what it has ingested by as much, or lets it
keep that. -/
theorem remove_cases (h : c.ledger.InOrder) (rm : Option SeqId) (p0 : Nat) (p1 : Option Nat)
    (seq : SeqId) :
    (c.remove rm p0 p1).ledger.tokens seq = [] ∨
      (∃ trimmed, (c.remove rm p0 p1).ledger.tokens seq ++ trimmed = c.ledger.tokens seq ∧
        (c.remove rm p0 p1).seen seq = c.seen seq - trimmed.length) ∨
      (c.remove rm p0 p1).seen seq = c.seen seq := by
  have hseen := seen_remove c rm p0 p1 seq
  by_cases hrm : rm = none ∨ rm = some seq
  · by_cases hleft : (c.ledger.remove rm p0 p1).length seq = 0
    · exact .inl (List.map_eq_nil_iff.2 (List.eq_nil_of_length_eq_zero hleft))
    · by_cases htail : c.reachesTail seq p1 = true
      · exact .inr (.inl (remove_of_tail h hrm htail hleft))
      · rw [if_pos hrm, if_neg hleft, if_neg htail] at hseen
        exact .inr (.inr hseen)
  · rw [if_neg hrm] at hseen
    exact .inr (.inr hseen)

theorem ingested_stage (c : StagingCache) (seq : SeqId) (full : List Nat) (s : SeqId) :
    (c.stage seq full).2.ingested.get? s =
      if s = seq then some full.length else c.ingested.get? s :=
  Keyed.get?_set _ _ _ _

theorem cells_stage_of_ne (c : StagingCache) (full : List Nat) {s : SeqId} (h : s ≠ seq) :
    (c.stage seq full).2.ledger.cells s = c.ledger.cells s := by
  cases hover : c.startsOver seq full.length with
  | true => rw [stage_of_startsOver hover, Ledger.cells_replace, if_neg h]
  | false => rw [stage_of_not_startsOver hover, Ledger.cells_append, if_neg h]

theorem inOrder_stage (h : c.ledger.InOrder) {full : List Nat}
    (hfits : (c.stage seq full).2.ledger.nextPos seq < Position.limit) :
    (c.stage seq full).2.ledger.InOrder := by
  cases hover : c.startsOver seq full.length with
  | true =>
    rw [stage_of_startsOver hover] at hfits ⊢
    exact Ledger.inOrder_replace h seq full hfits
  | false =>
    rw [stage_of_not_startsOver hover] at hfits ⊢
    exact Ledger.inOrder_append h seq _ hfits

/-- A cache, and the rendering that each sequence was last staged with. -/
structure Transcript where
  cache : StagingCache
  rendering : SeqId → List Nat := fun _ => []

namespace Transcript

def fresh (nCtx : Nat) : Transcript := ⟨{ nCtx }, fun _ => []⟩

def staged (t : Transcript) (seq : SeqId) (full : List Nat) : Transcript :=
  ⟨(t.cache.stage seq full).2, Function.update t.rendering seq full⟩

/-- What a sequence has ingested of its rendering. -/
def ingested (t : Transcript) (seq : SeqId) : List Nat := (t.rendering seq).take (t.cache.seen seq)

/-- A rendering that extends the last one, or is part of it. Positions are words. -/
structure Continues (t : Transcript) (seq : SeqId) (full : List Nat) : Prop where
  related : t.rendering seq <+: full ∨ full <+: t.rendering seq
  fits : (t.staged seq full).cache.ledger.nextPos seq < Position.limit

inductive Step (t : Transcript) : Transcript → Prop where
  | stage {seq : SeqId} {full : List Nat} (h : t.Continues seq full) : Step t (t.staged seq full)
  | remove (rm : Option SeqId) (p0 : Nat) (p1 : Option Nat) :
      Step t { t with cache := t.cache.remove rm p0 p1 }
  | contextShift (m : Memory) (seq : SeqId) :
      Step t { t with cache := (m.contextShift t.cache seq).2.2 }

/-- Any steps, one after the other. -/
abbrev Run : Transcript → Transcript → Prop := Relation.ReflTransGen Step

/-- Of what it has ingested, a sequence holds some tokens in the order they had. -/
structure Aligned (t : Transcript) : Prop where
  inOrder : t.cache.ledger.InOrder
  seen_le : ∀ seq, t.cache.seen seq ≤ (t.rendering seq).length
  tokens : ∀ seq, (t.cache.ledger.tokens seq).Sublist (t.ingested seq)

variable {t t' : Transcript} {full : List Nat}

theorem Aligned.length_ingested (h : t.Aligned) (seq : SeqId) :
    (t.ingested seq).length = t.cache.seen seq :=
  List.length_take_of_le (h.seen_le seq)

theorem aligned_fresh (nCtx : Nat) : Aligned (.fresh nCtx) :=
  ⟨Ledger.inOrder_empty, fun _ => Nat.le_refl 0, fun _ => List.nil_sublist _⟩

/-- A turn feeds tokens of its rendering in the order they have there. -/
theorem Aligned.prompt_sublist (h : t.Aligned) (hnext : t.Continues seq full) :
    (t.cache.stage seq full).1.1.Sublist full := by
  rw [stage_prompt]
  split
  case isTrue => exact List.Sublist.refl full
  case isFalse hover =>
    -- nothing but what was not ingested before is added
    have hle : t.cache.seen seq ≤ full.length := by
      by_contra hlt
      exact hover (startsOver_iff.2 (.inr (Nat.lt_of_not_le hlt)))
    have hbegin := take_eq_take_of_related hnext.related (h.seen_le seq) hle
    have htokens := h.tokens seq
    unfold ingested at htokens
    rw [hbegin] at htokens
    have hall := htokens.append (List.Sublist.refl (full.drop (t.cache.seen seq)))
    rwa [List.take_append_drop] at hall

theorem aligned_staged (h : t.Aligned) (hnext : t.Continues seq full) :
    (t.staged seq full).Aligned := by
  have hseen (s : SeqId) : (t.staged seq full).cache.seen s =
      if s = seq then full.length else t.cache.seen s := by
    change ((t.cache.stage seq full).2.ingested.get? s).getD 0 = _
    rw [ingested_stage]
    split <;> rfl
  have hown : (t.staged seq full).rendering seq = full := Function.update_self _ _ _
  have hothers : ∀ s, s ≠ seq → (t.staged seq full).rendering s = t.rendering s :=
    fun s hs => Function.update_of_ne hs _ _
  refine ⟨inOrder_stage h.inOrder hnext.fits, fun s => ?_, fun s => ?_⟩
  · rw [hseen]
    by_cases hs : s = seq
    · rw [if_pos hs, hs]
      exact Nat.le_of_eq (congrArg List.length hown.symm)
    · rw [if_neg hs, hothers s hs]
      exact h.seen_le s
  · unfold ingested
    rw [hseen]
    by_cases hs : s = seq
    · rw [if_pos hs, hs, hown, List.take_length]
      exact h.prompt_sublist hnext
    · rw [if_neg hs, hothers s hs]
      have hcells : (t.staged seq full).cache.ledger.tokens s = t.cache.ledger.tokens s :=
        congrArg (List.map Cell.token) (cells_stage_of_ne t.cache full hs)
      rw [hcells]
      exact h.tokens s

/-- Deletions that leave what was ingested as it is. -/
theorem Aligned.thinned (h : t.Aligned) {c : StagingCache}
    (hthin : Ledger.Thinned t.cache.ledger c.ledger) (hsame : c.ingested = t.cache.ingested) :
    Aligned { t with cache := c } := by
  have hseen (s : SeqId) : c.seen s = t.cache.seen s := by
    unfold seen
    rw [hsame]
  refine ⟨hthin.inOrder, fun s => ?_, fun s => (hthin.tokens s).trans ?_⟩
  · exact Nat.le_trans (Nat.le_of_eq (hseen s)) (h.seen_le s)
  · unfold ingested
    dsimp only
    rw [hseen]
    exact h.tokens s

theorem aligned_remove (h : t.Aligned) (rm : Option SeqId) (p0 : Nat) (p1 : Option Nat) :
    Aligned { t with cache := t.cache.remove rm p0 p1 } := by
  have hthin := Ledger.thinned_remove h.inOrder rm p0 p1
  refine ⟨hthin.inOrder, fun s => ?_, fun s => ?_⟩
  · exact Nat.le_trans (seen_remove_le t.cache rm p0 p1 s) (h.seen_le s)
  · have hsub := h.tokens s
    change ((t.cache.remove rm p0 p1).ledger.tokens s).Sublist
      ((t.rendering s).take ((t.cache.remove rm p0 p1).seen s))
    rcases remove_cases h.inOrder rm p0 p1 s with hnil | ⟨trimmed, htrimmed, hless⟩ | hsame
    · rw [hnil]
      exact List.nil_sublist _
    · rw [← htrimmed] at hsub
      have hbefore := sublist_take_of_append hsub
      rw [h.length_ingested, ingested, List.take_take, Nat.min_eq_left (Nat.sub_le _ _)] at hbefore
      rwa [hless]
    · rw [hsame]
      exact (hthin.tokens s).trans hsub

theorem aligned_contextShift (h : t.Aligned) (m : Memory) (seq : SeqId) :
    Aligned { t with cache := (m.contextShift t.cache seq).2.2 } := by
  rcases m.contextShift_cache t.cache seq with hkept | ⟨plan, hplan, hshift⟩
  · rw [hkept]
    exact h
  · have hremoved := aligned_remove h (some seq) plan.keep (some plan.cut)
    have hshift : (m.contextShift t.cache seq).2.2 =
        (t.cache.remove (some seq) plan.keep (some plan.cut)).shift seq plan.cut (some plan.past)
          (Memory.leftBy plan.discard) := hshift
    rw [Memory.nPast_eq] at hplan
    rw [hshift]
    exact hremoved.thinned (Ledger.thinned_shiftPlan h.inOrder hplan) rfl

theorem aligned_step (h : t.Aligned) (hstep : t.Step t') : t'.Aligned := by
  cases hstep with
  | stage hnext => exact aligned_staged h hnext
  | remove rm p0 p1 => exact aligned_remove h rm p0 p1
  | contextShift m seq => exact aligned_contextShift h m seq

theorem aligned_run (h : t.Aligned) (hrun : t.Run t') : t'.Aligned := by
  induction hrun with
  | refl => exact h
  | tail _ hstep ih => exact aligned_step ih hstep

/-- After any run of turns, removals and context shifts, let a removal reach the tail of a sequence
and leave some of its cells. Staging what the sequence had ingested again puts as many tokens as were
trimmed behind those left, and takes them from the end of what was ingested. The sequence is as before
the removal exactly when the trimmed tokens stood there. -/
theorem trimmed_tail_comes_back_iff {nCtx : Nat} (hrun : Run (.fresh nCtx) t) {p0 : Nat}
    {p1 : Option Nat} (htail : t.cache.reachesTail seq p1 = true)
    (hleft : (t.cache.remove (some seq) p0 p1).ledger.length seq ≠ 0) :
    let after := t.cache.remove (some seq) p0 p1
    let again := (after.stage seq (t.ingested seq)).1.1
    (t.ingested seq).length = t.cache.seen seq ∧
      ∃ trimmed back, after.ledger.tokens seq ++ trimmed = t.cache.ledger.tokens seq ∧
        again = after.ledger.tokens seq ++ back ∧ back.length = trimmed.length ∧
        back <:+ t.ingested seq ∧
        (again = t.cache.ledger.tokens seq ↔ trimmed <:+ t.ingested seq) := by
  intro after again
  have h : t.Aligned := aligned_run (aligned_fresh nCtx) hrun
  have hlen := h.length_ingested seq
  obtain ⟨trimmed, htrimmed, hless⟩ := remove_of_tail h.inOrder (.inr rfl) htail hleft
  have hroom : trimmed.length ≤ (t.ingested seq).length := by
    have hsub := (h.tokens seq).length_le
    rw [← htrimmed, List.length_append] at hsub
    omega
  let back := (t.ingested seq).drop ((t.ingested seq).length - trimmed.length)
  -- some cells are left, and the rendering is no shorter than what is still ingested of it
  have hover : after.startsOver seq (t.ingested seq).length = false := by
    apply Bool.eq_false_iff.2
    intro hover
    rcases startsOver_iff.1 hover with hnil | hlt
    · exact hleft (congrArg List.length hnil)
    · rw [hless] at hlt
      omega
  have hagain : again = after.ledger.tokens seq ++ back := by
    dsimp only [again, back]
    rw [stage_prompt, hover, if_neg Bool.false_ne_true, hless, hlen]
  have hback : back.length = trimmed.length := by
    dsimp only [back]
    rw [List.length_drop]
    omega
  have hsuffix : back <:+ t.ingested seq := List.drop_suffix _ _
  refine ⟨hlen, trimmed, back, htrimmed, hagain, hback, hsuffix, ?_⟩
  rw [hagain, ← htrimmed, List.append_cancel_left_eq]
  constructor
  · intro heq
    rwa [← heq]
  · intro hend
    -- a list has only one end of each length
    exact (List.suffix_of_suffix_length_le hsuffix hend (Nat.le_of_eq hback)).eq_of_length hback

/-- With a token of the middle gone, a trim of the last two brings them back. -/
theorem trimmed_tail_comes_back_behind_gap :
    ∃ t : Transcript, Run (.fresh 8) t ∧ t.ingested 1 = [1, 2, 3, 4, 5] ∧
      t.cache.ledger.tokens 1 = [1, 3, 4, 5] ∧ t.cache.reachesTail 1 none = true ∧
      (t.cache.remove (some 1) 3 none).ledger.tokens 1 = [1, 3] ∧
      ((t.cache.remove (some 1) 3 none).stage 1 (t.ingested 1)).1.1 =
        t.cache.ledger.tokens 1 := by
  let t₁ := (fresh 8).staged 1 [1, 2, 3, 4, 5]
  let t₂ : Transcript := { t₁ with cache := t₁.cache.remove (some 1) 1 (some 2) }
  have h₁ : (fresh 8).Step t₁ := .stage ⟨.inl List.nil_prefix, by decide⟩
  have h₂ : t₁.Step t₂ := .remove (some 1) 1 (some 2)
  have hrun : Run (fresh 8) t₂ := (Relation.ReflTransGen.single h₁).tail h₂
  have hleft : (t₂.cache.remove (some 1) 3 none).ledger.tokens 1 = [1, 3] := by decide
  have htokens : t₂.cache.ledger.tokens 1 = [1, 3, 4, 5] := by decide
  have htail : t₂.cache.reachesTail 1 none = true := by decide
  have hsome : (t₂.cache.remove (some 1) 3 none).ledger.length 1 ≠ 0 := by decide
  obtain ⟨-, trimmed, -, htrimmed, -, -, -, hiff⟩ := trimmed_tail_comes_back_iff hrun htail hsome
  refine ⟨t₂, hrun, by decide, htokens, htail, hleft, hiff.2 ?_⟩
  rw [hleft, htokens] at htrimmed
  have hlast : trimmed = [4, 5] := List.append_cancel_left htrimmed
  rw [hlast]
  decide

/-- A trim that spans a token discarded before brings that one back, and loses the one before it. -/
theorem trimmed_span_brings_back_others :
    ∃ t : Transcript, Run (.fresh 8) t ∧ t.ingested 1 = [1, 2, 3, 4, 5] ∧
      t.cache.ledger.tokens 1 = [1, 2, 3, 5] ∧ t.cache.reachesTail 1 none = true ∧
      (t.cache.remove (some 1) 2 none).ledger.tokens 1 = [1, 2] ∧
      ((t.cache.remove (some 1) 2 none).stage 1 (t.ingested 1)).1.1 = [1, 2, 4, 5] ∧
      ((t.cache.remove (some 1) 2 none).stage 1 (t.ingested 1)).1.1 ≠ t.cache.ledger.tokens 1 := by
  let t₁ := (fresh 8).staged 1 [1, 2, 3, 4, 5]
  let t₂ : Transcript := { t₁ with cache := t₁.cache.remove (some 1) 3 (some 4) }
  have h₁ : (fresh 8).Step t₁ := .stage ⟨.inl List.nil_prefix, by decide⟩
  have h₂ : t₁.Step t₂ := .remove (some 1) 3 (some 4)
  have hrun : Run (fresh 8) t₂ := (Relation.ReflTransGen.single h₁).tail h₂
  exact ⟨t₂, hrun, by decide, by decide, by decide, by decide, by decide, by decide⟩

end Transcript

end StagingCache

end ChatInference
