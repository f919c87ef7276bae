import ChatInference.Proofs.Cache.Projection
import ChatInference.Proofs.Decode.Feeding
import ChatInference.Proofs.Decode.Stops

/-!
Replies of the engine. An answer is the reply of a turn to a prompt that is there and fits the context,
so what holds of such turns holds of answers: no stop text is left in them, and they are the same
whatever part of the prompt is fed in the first pass.
-/

namespace ChatInference

namespace ModelFile

/-- A token without a row fails a pass, wherever in it it stands. -/
theorem feed_cons (f : ModelFile) (t u : Nat) (ts : List Nat) :
    f.feed (t :: u :: ts) =
      match f.feed [t] with
      | .ok _ => f.feed (u :: ts)
      | .error e => .error e := by
  by_cases hrow : f.rows ≤ t <;> simp [feed, List.getLast?_cons, hrow]

end ModelFile

namespace LoadedModel

variable (model : LoadedModel) (s : Sampling) (chance : Nat → Float32)

theorem text_nil : (model.decoder s chance).text [] = .ok "" := rfl

/-- A pass counts for no more than its tokens, whatever the positions. -/
theorem feedEach_eq_feed (t : Nat) (ts : List Nat) (pos : Nat) :
    (match model.file.feed [t] with
      | .ok scores => (model.decoder s chance).feedEach () scores pos ts
      | .error e => (.error e, ())) = (model.file.feed (t :: ts), ()) := by
  induction ts generalizing t pos with
  | nil =>
    cases model.file.feed [t] with
    | error e => rfl
    | ok scores => rfl
  | cons u ts ih =>
    rw [ModelFile.feed_cons]
    cases model.file.feed [t] with
    | error e => rfl
    | ok scores =>
      have hrest := ih u (pos + 1)
      dsimp only
      rw [← hrest, Decoder.feedEach]
      dsimp only [decoder]
      cases model.file.feed [u] <;> rfl

/-- Model files take tokens in one pass as they take them singly. -/
theorem decoder_passesAgree : (model.decoder s chance).PassesAgree () := by
  intro t ts
  calc (model.decoder s chance).feed () (t :: ts) 0
    _ = (model.file.feed (t :: ts), ()) := rfl
    _ = _ := (model.feedEach_eq_feed s chance t ts 1).symm
    _ = (model.decoder s chance).feedSingly () t ts := by
      rw [Decoder.feedSingly]
      dsimp only [decoder]
      cases model.file.feed [t] <;> rfl

end LoadedModel

/-- What is staged for a rendering is never nothing. -/
theorem StagingCache.stage_prompt_ne_nil (c : StagingCache) (seq : SeqId) {full : List Nat}
    (hfull : full ≠ []) : (c.stage seq full).1.1 ≠ [] := by
  rw [stage_prompt]
  split
  case isTrue => exact hfull
  case isFalse hover =>
    -- the sequence has cells already
    have hcells : c.ledger.cells seq ≠ [] := fun hnil => hover (startsOver_iff.2 (.inl hnil))
    intro hnil
    exact hcells (List.map_eq_nil_iff.1 (List.append_eq_nil_iff.1 hnil).1)

namespace LocalEngine

variable {e e' : LocalEngine} {r : Request} {g : Generation}

/-- An answer is the reply of a turn, to a prompt that is there and fits the context. -/
theorem exists_turn_of_generate (h : e.generate r = (.ok g, e')) :
    ∃ model slots reply, e.loaded = some model ∧ e.slots = some slots ∧
      let prompt := e.prompt r.seq (model.tokensOf r.messages)
      prompt ≠ [] ∧ prompt.length < slots.nCtx ∧
        (model.decoder r.sampling (e.chance r.sampling.seed)).turn
          (limits slots r model.template.family) () prompt = (.ok reply, ()) ∧
        g = reply.generation prompt := by
  unfold generate complete at h
  split at h
  case h_2 => cases h
  case h_1 model slots hmodel hslots =>
    dsimp only at h
    split at h
    case isTrue => cases h
    case isFalse hempty =>
      have hfull : model.tokensOf r.messages ≠ [] := fun hnil => hempty (List.isEmpty_iff.2 hnil)
      split at h
      case isTrue => cases h
      case isFalse hfits =>
        split at h
        case h_2 => cases h
        case h_1 reply hturn =>
          cases h
          exact ⟨model, slots, reply, hmodel, hslots, e.cache.stage_prompt_ne_nil r.seq hfull,
            Nat.lt_of_not_le hfits, Prod.ext hturn rfl, rfl⟩

/-- No text at which a request wants its answer to stop occurs in the answer. -/
theorem not_infix_of_generate (h : e.generate r = (.ok g, e')) {p : String} (hp : p ∈ r.stop)
    (hne : p ≠ "") : ¬p.toList <:+: g.text.toList := by
  obtain ⟨model, slots, reply, -, -, -, -, hturn, rfl⟩ := exists_turn_of_generate h
  apply Decoder.no_stop_of_turn (model.text_nil _ _) hturn _ hne
  exact List.mem_append_left _ hp

/-- How much of a prompt is fed in the first pass changes neither the answer nor the engine. -/
theorem generate_batch {slots : Slots} (hslots : e.slots = some slots) (batch : Nat) :
    ({ e with slots := some { slots with batch } } : LocalEngine).generate r =
      ((e.generate r).1, { (e.generate r).2 with slots := some { slots with batch } }) := by
  obtain ⟨disk, performance, cache, loaded, _, chance⟩ := e
  cases hslots
  cases loaded with
  | none => rfl
  | some model =>
    let decoder := model.decoder r.sampling (chance r.sampling.seed)
    let l := limits slots r model.template.family
    have hturn (prompt : List Nat) : decoder.turn
        (limits { slots with batch } r model.template.family) () prompt = decoder.turn l () prompt :=
      Decoder.turn_batch (model.decoder_passesAgree _ _) l batch prompt
    unfold generate complete
    dsimp only
    rw [hturn]
    -- the outcomes are the same one by one
    split
    case isTrue => rfl
    case isFalse =>
      split
      case isTrue => rfl
      case isFalse =>
        cases (decoder.turn l () (cache.stage r.seq (model.tokensOf r.messages)).1.1).1 with
        | ok reply => rfl
        | error detail => rfl

end LocalEngine

end ChatInference
