import ChatInference.Proofs.Decode.Course

/-!
A turn ends, and stays within its limits. Every draft that it goes on from has room for another token,
in the context and in the number of tokens asked for; so the pass that ends the turn takes what is left
of one or the other at most, and the reason it gives says which.
-/

namespace ChatInference.Decoder

variable {μ α : Type} {d : Decoder μ α} {l : TurnLimits} {m : μ} {prompt : List Nat} {s : Draft μ α}

/-- A draft that may go on: the context and the number of tokens asked for have room for another one,
and none so far ends a reply, unless such tokens are ignored. -/
structure Draft.Within (d : Decoder μ α) (l : TurnLimits) (prompt : List Nat) (s : Draft μ α) :
    Prop where
  room : prompt.length + s.tokens.length < l.nCtx
  asked : 0 < l.maxTokens → s.tokens.length < l.maxTokens
  unended : l.ignoreEos = false → ∀ t ∈ s.tokens, d.isTerminal t = false

/-- A token that is added ends no reply either. -/
theorem Adds.unended {next : Nat} {text : String} (h : d.Adds l prompt s next text)
    (hs : s.Within d l prompt) :
    l.ignoreEos = false → ∀ t ∈ s.tokens ++ [next], d.isTerminal t = false := by
  intro hheeded t ht
  rcases List.mem_append.1 ht with hold | hnew
  · exact hs.unended hheeded t hold
  · rw [List.mem_singleton.1 hnew]
    exact h.kept.resolve_left (by rw [hheeded]; exact Bool.false_ne_true)

theorem within_reached (hfits : prompt.length < l.nCtx) (h : d.Reached l m prompt s) :
    s.Within d l prompt := by
  refine Reached.rec_becomes (P := fun s => s.Within d l prompt) ?_ ?_ h
  · intro scores m' _
    exact ⟨hfits, fun hasked => hasked, fun _ => List.forall_mem_nil _⟩
  · intro s s' hs hbecomes
    cases hbecomes with
    | goesOn hadds hstop hlimit hroom hfeed =>
      refine ⟨?_, ?_, hadds.unended hs⟩
      · rw [List.length_append]
        exact hroom
      · intro hasked
        -- the number asked for is not reached yet
        have hmore : ¬l.maxTokens ≤ ((s.tokens.length + 1 : Nat) : Int) :=
          fun hle => hlimit ⟨hasked, hle⟩
        rw [List.length_append, List.length_singleton]
        omega

/-- A token more than a draft that may go on takes one position of the context, and one of the tokens
asked for. -/
theorem Draft.Within.length_le (hs : s.Within d l prompt) (next : Nat) :
    prompt.length + (s.tokens ++ [next]).length ≤ l.nCtx ∧
      (0 < l.maxTokens → ((s.tokens ++ [next]).length : Int) ≤ l.maxTokens) := by
  have hroom := hs.room
  have hasked := hs.asked
  rw [List.length_append, List.length_singleton]
  constructor
  · omega
  · intro h
    have := hasked h
    omega

/-- A turn whose prompt is shorter than the context ends, with the one outcome that its passes come
to, after no more passes than the prompt leaves positions: each but the last adds a token. A reply
takes no more of the context than there is, has no more tokens than are asked for and none that ends a
reply where these are heeded; and it gives for its end a number of tokens asked for, a context or an
end of sequence only where it was that. -/
theorem turn_ends_within_limits (d : Decoder μ α) (l : TurnLimits) (m : μ) {prompt : List Nat}
    (hfits : prompt.length < l.nCtx) :
    (∀ out, d.Ends l m prompt out ↔ d.turn l m prompt = out) ∧
      (∀ s, d.Reached l m prompt s → prompt.length + s.tokens.length < l.nCtx) ∧
      ∀ r m', d.turn l m prompt = (.ok r, m') →
        let g := r.generation prompt
        g.promptTokens + g.generatedTokens ≤ l.nCtx ∧
          (0 < l.maxTokens → g.generatedTokens ≤ l.maxTokens) ∧
          (l.ignoreEos = false → ∀ t ∈ r.tokens, d.isTerminal t = false) ∧
          (g.stopReason = .maxTokens → g.generatedTokens = l.maxTokens) ∧
          (g.stopReason = .contextFull → g.promptTokens + g.generatedTokens = l.nCtx) ∧
          (g.stopReason = .endOfSequence → ∃ s next, d.Reached l m prompt s ∧ s.tokens = r.tokens ∧
            d.sample s.tokens.length s.scores (prompt ++ s.tokens) = .ok next ∧
            d.isTerminal next = true) := by
  refine ⟨fun out => ends_iff, fun s hs => (within_reached hfits hs).room, ?_⟩
  intro r m' h g
  obtain ⟨s, hs, hbecomes⟩ := exists_last_pass h
  have hwithin := within_reached hfits hs
  cases hbecomes with
  | @endOfSequence next hsampled hheeded hterminal =>
    -- the reply is the draft as it stands
    refine ⟨Nat.le_of_lt hwithin.room, fun hasked => Int.le_of_lt (hwithin.asked hasked),
      hwithin.unended, nofun, nofun, fun _ => ⟨s, next, hs, rfl, hsampled, hterminal⟩⟩
  | @stopSequence next n text hadds hstop =>
    obtain ⟨hcontext, hasked⟩ := hwithin.length_le next
    exact ⟨hcontext, hasked, hadds.unended hwithin, nofun, nofun, nofun⟩
  | @maxTokens next text hadds hstop hlimit =>
    obtain ⟨hcontext, hasked⟩ := hwithin.length_le next
    refine ⟨hcontext, hasked, hadds.unended hwithin, fun _ => ?_, nofun, nofun⟩
    apply Int.le_antisymm (hasked hlimit.1)
    rw [List.length_append]
    exact hlimit.2
  | @contextFull next text hadds hstop hlimit hfull =>
    obtain ⟨hcontext, hasked⟩ := hwithin.length_le next
    refine ⟨hcontext, hasked, hadds.unended hwithin, nofun, fun _ => ?_, nofun⟩
    apply Nat.le_antisymm hcontext
    rw [List.length_append]
    exact hfull

/-- Letters as tokens, and a model that goes on with the next letter. It remembers how many tokens it was
fed. -/
def alphabet : Decoder Nat Nat where
  feed n tokens _ :=
    (match tokens.getLast? with
      | some t => .ok t
      | none => .error "no tokens", n + tokens.length)
  sample _ last _ := .ok (last + 1)
  text tokens := .ok (String.ofList (tokens.map fun t => Char.ofNat ('a'.toNat + t)))
  isTerminal t := t == 25

/-- Nothing is asked for and nothing ends the reply but the context, which it fills. -/
theorem turn_ends_within_limits_full :
    let l : TurnLimits := { nCtx := 5, batch := 8, maxTokens := 0, stop := [], ignoreEos := false }
    ∃ r, alphabet.turn l 0 [0, 1] = (.ok r, 4) ∧ alphabet.Ends l 0 [0, 1] (.ok r, 4) ∧
      r.text = "cde" ∧ r.stopReason = .contextFull ∧
      (r.generation [0, 1]).promptTokens + (r.generation [0, 1]).generatedTokens = 5 ∧
      ∀ t ∈ r.tokens, alphabet.isTerminal t = false := by
  intro l
  have hturn : alphabet.turn l 0 [0, 1] = (.ok ⟨"cde", [2, 3, 4], .contextFull⟩, 4) := by rfl
  have hfits : ([0, 1] : List Nat).length < l.nCtx := by decide
  obtain ⟨hends, -, hreply⟩ := turn_ends_within_limits alphabet l 0 hfits
  obtain ⟨-, -, hunended, -, hfull, -⟩ := hreply _ _ hturn
  exact ⟨_, hturn, (hends _).2 hturn, rfl, rfl, hfull rfl, hunended rfl⟩

end ChatInference.Decoder
