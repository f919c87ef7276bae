import ChatInference.Proofs.Cache.Cells
import ChatInference.Proofs.Decode.Limits

/-!
What a model is fed in a turn. With its calls written down beside what it remembers, they are seen to
feed the prompt and then the tokens of the reply, each once and at the next position; only the first
call may hold several. So where one pass over several tokens does what feeding them one at a time does,
the length of the first pass has no part in the turn.
-/

namespace ChatInference

/-- Tokens that a model is fed at once, at the positions from `pos` on. -/
structure Call where
  tokens : List Nat
  pos : Nat
  deriving DecidableEq

/-- The tokens of a call at their positions. -/
def Call.cells (c : Call) : List Cell := Ledger.cellsFrom c.pos c.tokens

/-- Calls that feed a row of tokens from the first position on, after the first call one at a time. -/
structure InRow (calls : List Call) (ts : List Nat) : Prop where
  cells : calls.flatMap Call.cells = Ledger.cellsFrom 0 ts
  singles : ∃ first rest, calls = first :: rest ∧ first.pos = 0 ∧ ∀ c ∈ rest, c.tokens.length = 1

theorem inRow_first (ts : List Nat) : InRow [⟨ts, 0⟩] ts := by
  refine ⟨?_, ⟨ts, 0⟩, [], rfl, rfl, List.forall_mem_nil _⟩
  rw [List.flatMap_singleton]
  rfl

/-- One token more, fed at the position after the row, is in the row. -/
theorem InRow.snoc {calls : List Call} {ts : List Nat} (h : InRow calls ts) (t : Nat) :
    InRow (calls ++ [⟨[t], ts.length⟩]) (ts ++ [t]) := by
  obtain ⟨first, rest, hcalls, hpos, hrest⟩ := h.singles
  refine ⟨?_, first, rest ++ [⟨[t], ts.length⟩], ?_, hpos, ?_⟩
  · rw [List.flatMap_append, h.cells, List.flatMap_singleton, Ledger.cellsFrom_append, Nat.zero_add]
    rfl
  · rw [hcalls, List.cons_append]
  · intro c hc
    rcases List.mem_append.1 hc with hold | hnew
    · exact hrest c hold
    · rw [List.mem_singleton.1 hnew]
      rfl

/-- The tokens of a reply that were fed back to the model: the last one is not, unless it was the end
of the sequence that came next, which is no part of the reply. -/
def Reply.fedBack (r : Reply) : List Nat :=
  if r.stopReason = .endOfSequence then r.tokens else r.tokens.dropLast

/-- The token that ended a reply was not fed. -/
theorem Reply.fedBack_of_snoc {text : String} {tokens : List Nat} {next : Nat} {reason : StopReason}
    (h : reason ≠ .endOfSequence) :
    (⟨text, tokens ++ [next], reason⟩ : Reply).fedBack = tokens := by
  rw [fedBack, if_neg h]
  exact List.dropLast_concat

namespace Decoder

variable {μ α : Type}

/-- The decoder that also remembers the calls made to its model. -/
def recording (d : Decoder μ α) : Decoder (μ × List Call) α where
  feed s tokens pos :=
    ((d.feed s.1 tokens pos).1, (d.feed s.1 tokens pos).2, s.2 ++ [⟨tokens, pos⟩])
  sample := d.sample
  text := d.text
  isTerminal := d.isTerminal

/-- What comes of feeding, without the calls. -/
def unrecorded {β : Type} (out : β × μ × List Call) : β × μ := (out.1, out.2.1)

/-- Feeds tokens one at a time from the first position on. -/
def feedSingly (d : Decoder μ α) (m : μ) (t : Nat) (ts : List Nat) : Except String α × μ :=
  match d.feed m [t] 0 with
  | (.ok scores, m) => d.feedEach m scores 1 ts
  | (.error e, m) => (.error e, m)

/-- With this memory, one pass over tokens from the first position on does what feeding them one at a
time does. -/
def PassesAgree (d : Decoder μ α) (m : μ) : Prop :=
  ∀ t ts, d.feed m (t :: ts) 0 = d.feedSingly m t ts

variable {d : Decoder μ α} {l : TurnLimits} {m : μ} {prompt : List Nat}

section Recording

variable (d l prompt) (s : μ × List Call)

theorem feed_recording (tokens : List Nat) (pos : Nat) :
    d.recording.feed s tokens pos =
      ((d.feed s.1 tokens pos).1, (d.feed s.1 tokens pos).2, s.2 ++ [⟨tokens, pos⟩]) := rfl

theorem recording_feedEach (scores : α) (pos : Nat) (ts : List Nat) :
    unrecorded (d.recording.feedEach s scores pos ts) = d.feedEach s.1 scores pos ts := by
  induction ts generalizing s scores pos with
  | nil => rfl
  | cons t ts ih =>
    cases hfeed : d.feed s.1 [t] pos with
    | mk fed m =>
      cases fed with
      | error e =>
        simp only [feedEach, feed_recording, hfeed]
        rfl
      | ok scores =>
        simp only [feedEach, feed_recording, hfeed]
        exact ih (m, _) scores (pos + 1)

theorem recording_prefill (batch : Nat) :
    unrecorded (d.recording.prefill s batch prompt) = d.prefill s.1 batch prompt := by
  let head := max 1 (min batch prompt.length)
  cases hfeed : d.feed s.1 (prompt.take head) 0 with
  | mk fed m =>
    cases fed with
    | error e =>
      simp only [prefill, feed_recording, head, hfeed]
      rfl
    | ok scores =>
      simp only [prefill, feed_recording, head, hfeed]
      exact recording_feedEach d (m, _) scores _ _

/-- A draft without the calls. -/
def Draft.unrecorded (s : Draft (μ × List Call) α) : Draft μ α :=
  ⟨s.memory.1, s.scores, s.text, s.tokens⟩

theorem recording_pass (s : Draft (μ × List Call) α) :
    Sum.map unrecorded Draft.unrecorded (d.recording.pass l prompt s) =
      d.pass l prompt s.unrecorded := by
  have hsame : d.recording.step l prompt s.scores s.text s.tokens =
      d.step l prompt s.scores s.text s.tokens := rfl
  unfold pass
  rw [hsame]
  dsimp only [Draft.unrecorded]
  cases d.step l prompt s.scores s.text s.tokens with
  | error e => rfl
  | ok st =>
    cases st with
    | ended r => rfl
    | goesOn text tokens next =>
      dsimp only
      split
      · rfl
      · rw [feed_recording]
        cases d.feed s.memory.1 [next] (prompt.length + tokens.length - 1) with
        | mk fed m => cases fed <;> rfl

variable {d l prompt s}

theorem reached_recording {t : Draft (μ × List Call) α} (h : d.recording.Reached l s prompt t) :
    d.Reached l s.1 prompt t.unrecorded := by
  induction h with
  | prompt h =>
    have hprompt := recording_prefill d prompt s l.batch
    rw [h] at hprompt
    exact .prompt hprompt.symm
  | @pass t t' _ h ih =>
    have hpass := recording_pass d l prompt t
    rw [h] at hpass
    exact .pass ih hpass.symm

theorem ends_recording {out : Except String Reply × μ × List Call}
    (h : d.recording.Ends l s prompt out) : d.Ends l s.1 prompt (unrecorded out) := by
  cases h with
  | prompt h =>
    have hprompt := recording_prefill d prompt s l.batch
    rw [h] at hprompt
    exact .prompt hprompt.symm
  | @pass t _ ht h =>
    have hpass := recording_pass d l prompt t
    rw [h] at hpass
    exact .pass (reached_recording ht) hpass.symm

/-- To remember the calls changes nothing. -/
theorem recording_turn (d : Decoder μ α) (l : TurnLimits) (s : μ × List Call) (prompt : List Nat) :
    unrecorded (d.recording.turn l s prompt) = d.turn l s.1 prompt := by
  have hends : d.recording.Ends l s prompt (d.recording.turn l s prompt) := ends_iff.2 rfl
  exact (ends_iff.1 (ends_recording hends)).symm

end Recording

section Calls

/-- All calls so far feed a row of tokens, or they fail within it. -/
def Fed (out : Except String α × μ × List Call) (ts : List Nat) : Prop :=
  (∃ fed, fed <+: ts ∧ InRow out.2.2 fed) ∧ ∀ scores, out.1 = .ok scores → InRow out.2.2 ts

variable {s : μ × List Call}

/-- Whatever comes of feeding a token, it is in the row. -/
theorem inRow_of_feed {s' : μ × List Call} {ts : List Nat} {t : Nat} {fed : Except String α}
    (h : InRow s.2 ts) (hfeed : d.recording.feed s [t] ts.length = (fed, s')) :
    InRow s'.2 (ts ++ [t]) := by
  rw [feed_recording] at hfeed
  cases hfeed
  exact h.snoc t

theorem fed_feedEach {us : List Nat} (h : InRow s.2 us) (scores : α) (ts : List Nat) :
    Fed (d.recording.feedEach s scores us.length ts) (us ++ ts) := by
  -- over the tokens left, with those that were fed as the row so far
  induction ts generalizing s us scores with
  | nil =>
    rw [List.append_nil]
    exact ⟨⟨us, List.prefix_rfl, h⟩, fun _ _ => h⟩
  | cons t ts ih =>
    have hrow : InRow (s.2 ++ [⟨[t], us.length⟩]) (us ++ [t]) := h.snoc t
    rw [List.append_cons]
    cases hfeed : d.feed s.1 [t] us.length with
    | mk fed m =>
      cases fed with
      | error e =>
        simp only [feedEach, feed_recording, hfeed]
        exact ⟨⟨us ++ [t], List.prefix_append _ _, hrow⟩, nofun⟩
      | ok scores =>
        simp only [feedEach, feed_recording, hfeed]
        have hrest := ih (s := (m, s.2 ++ [⟨[t], us.length⟩])) hrow scores
        rw [List.length_append] at hrest
        exact hrest

/-- The first pass takes a part of the prompt that ends where the tokens fed singly begin. -/
theorem prefill_eq (d : Decoder μ α) (m : μ) (batch : Nat) (t : Nat) (ts : List Nat) :
    ∃ n ≤ ts.length, d.prefill m batch (t :: ts) =
      match d.feed m (t :: ts.take n) 0 with
      | (.ok scores, m) => d.feedEach m scores (n + 1) (ts.drop n)
      | (.error e, m) => (.error e, m) := by
  obtain ⟨n, hle, hhead⟩ :
      ∃ n ≤ ts.length, max 1 (min batch (t :: ts).length) = n + 1 := by
    refine ⟨max 1 (min batch (t :: ts).length) - 1, ?_, ?_⟩ <;> rw [List.length_cons] <;> omega
  refine ⟨n, hle, ?_⟩
  rw [prefill, hhead]
  rfl

theorem fed_prefill (d : Decoder μ α) (m : μ) (batch : Nat) (prompt : List Nat) :
    Fed (d.recording.prefill (m, []) batch prompt) prompt := by
  cases prompt with
  | nil =>
    -- a call without tokens
    have hprefill : d.recording.prefill (m, []) batch [] =
        ((d.feed m [] 0).1, (d.feed m [] 0).2, [⟨[], 0⟩]) := by
      simp only [prefill, feed_recording, List.take_nil, List.drop_nil, feedEach]
      split <;> simp_all
    rw [hprefill]
    exact ⟨⟨[], List.prefix_rfl, inRow_first []⟩, fun _ _ => inRow_first []⟩
  | cons t ts =>
    obtain ⟨n, hn, hprefill⟩ := d.recording.prefill_eq (m, []) batch t ts
    have hrow : InRow [⟨t :: ts.take n, 0⟩] (t :: ts.take n) := inRow_first _
    have hlen : (t :: ts.take n).length = n + 1 := by
      rw [List.length_cons, List.length_take_of_le hn]
    have hall : t :: ts.take n ++ ts.drop n = t :: ts := by
      rw [List.cons_append, List.take_append_drop]
    rw [hprefill, feed_recording, ← hall]
    cases hfeed : d.feed m (t :: ts.take n) 0 with
    | mk fed m' =>
      cases fed with
      | error e => exact ⟨⟨_, List.prefix_append _ _, hrow⟩, nofun⟩
      | ok scores =>
        have hrest := fed_feedEach (d := d) (s := (m', [⟨t :: ts.take n, 0⟩])) hrow scores (ts.drop n)
        rw [hlen] at hrest
        exact hrest

/-- The calls so far fed the prompt and the tokens of the draft. -/
theorem inRow_reached {s : Draft (μ × List Call) α} (h : d.recording.Reached l (m, []) prompt s) :
    InRow s.memory.2 (prompt ++ s.tokens) := by
  refine Reached.rec_becomes (P := fun s => InRow s.memory.2 (prompt ++ s.tokens)) ?_ ?_ h
  · intro scores m' hprefill
    have hfed := (fed_prefill d m l.batch prompt).2
    rw [hprefill] at hfed
    rw [List.append_nil]
    exact hfed scores rfl
  · intro s s' hs hbecomes
    cases hbecomes with
    | goesOn hadds hstop hlimit hroom hfeed =>
      rw [← List.length_append] at hfeed
      rw [← List.append_assoc]
      exact inRow_of_feed hs hfeed

/-- What is fed in a turn: some of the prompt, or all of it with the tokens of a draft that the turn
comes to, and with the one that was added to it last if the model failed on it. -/
inductive Feeds (d : Decoder μ α) (l : TurnLimits) (m : μ) (prompt : List Nat) : List Nat → Prop
  | prompt {fed : List Nat} (h : fed <+: prompt) : Feeds d l m prompt fed
  | draft {s : Draft μ α} (h : d.Reached l m prompt s) : Feeds d l m prompt (prompt ++ s.tokens)
  | next {s : Draft μ α} {next : Nat} {text : String} (h : d.Reached l m prompt s)
      (hadds : d.Adds l prompt s next text) : Feeds d l m prompt (prompt ++ (s.tokens ++ [next]))

/-- What the calls of a turn have fed when it ends: tokens in a row, no more than the context has
positions, and for a reply the prompt and what was fed back of it. -/
structure FedAtEnd (d : Decoder μ α) (l : TurnLimits) (m : μ) (prompt : List Nat)
    (out : Except String Reply × μ × List Call) (fed : List Nat) : Prop where
  feeds : d.Feeds l m prompt fed
  row : InRow out.2.2 fed
  fits : prompt.length < l.nCtx → fed.length ≤ l.nCtx
  answered : ∀ r, out.1 = .ok r → fed = prompt ++ r.fedBack

/-- A pass that feeds nothing leaves what was fed for the draft. -/
theorem fedAtEnd_of_draft {s : Draft (μ × List Call) α} (hs : d.recording.Reached l (m, []) prompt s)
    {result : Except String Reply} (hresult : ∀ r, result = .ok r → r.fedBack = s.tokens) :
    d.FedAtEnd l m prompt (result, s.memory) (prompt ++ s.tokens) where
  feeds := .draft (reached_recording hs)
  row := inRow_reached hs
  fits hfits := by
    rw [List.length_append]
    exact Nat.le_of_lt (within_reached hfits hs).room
  answered r hr := by rw [hresult r hr]

theorem exists_fedAtEnd {out : Except String Reply × μ × List Call}
    (h : d.recording.Ends l (m, []) prompt out) : ∃ fed, d.FedAtEnd l m prompt out fed := by
  cases h with
  | prompt hprefill =>
    obtain ⟨⟨fed, hprefix, hrow⟩, -⟩ := fed_prefill d m l.batch prompt
    rw [hprefill] at hrow
    refine ⟨fed, .prompt hprefix, hrow, fun hfits => ?_, nofun⟩
    exact Nat.le_trans hprefix.length_le (Nat.le_of_lt hfits)
  | @pass s _ hs hpass =>
    have hbecomes := d.recording.pass_becomes l prompt s
    rw [hpass] at hbecomes
    cases hbecomes with
    | unsampled => exact ⟨_, fedAtEnd_of_draft hs nofun⟩
    | untold => exact ⟨_, fedAtEnd_of_draft hs nofun⟩
    | endOfSequence => exact ⟨_, fedAtEnd_of_draft hs fun | _, rfl => rfl⟩
    | stopSequence => exact ⟨_, fedAtEnd_of_draft hs fun | _, rfl => Reply.fedBack_of_snoc nofun⟩
    | maxTokens => exact ⟨_, fedAtEnd_of_draft hs fun | _, rfl => Reply.fedBack_of_snoc nofun⟩
    | contextFull => exact ⟨_, fedAtEnd_of_draft hs fun | _, rfl => Reply.fedBack_of_snoc nofun⟩
    | @unfed next text e m' hadds hroom hfeed =>
      refine ⟨prompt ++ (s.tokens ++ [next]), ?_, ?_, fun _ => ?_, nofun⟩
      · exact .next (reached_recording hs) ⟨hadds.sampled, hadds.kept, hadds.told⟩
      · rw [← List.length_append] at hfeed
        rw [← List.append_assoc]
        exact inRow_of_feed (inRow_reached hs) hfeed
      · rw [List.length_append, List.length_append]
        exact Nat.le_of_lt hroom

end Calls

section Batch

theorem feedEach_append (d : Decoder μ α) (m : μ) (scores : α) (pos : Nat) (ts us : List Nat) :
    d.feedEach m scores pos (ts ++ us) =
      match d.feedEach m scores pos ts with
      | (.ok scores, m) => d.feedEach m scores (pos + ts.length) us
      | (.error e, m) => (.error e, m) := by
  induction ts generalizing m scores pos with
  | nil => rfl
  | cons t ts ih =>
    rw [List.cons_append, feedEach, feedEach]
    cases d.feed m [t] pos with
    | mk fed m =>
      cases fed with
      | error e => rfl
      | ok scores =>
        dsimp only
        rw [ih, List.length_cons, Nat.add_right_comm, Nat.add_assoc]

/-- Where passes agree, a prompt is fed as it is singly, however long the first pass is. -/
theorem prefill_eq_feedSingly (h : d.PassesAgree m) (batch t : Nat) (ts : List Nat) :
    d.prefill m batch (t :: ts) = d.feedSingly m t ts := by
  obtain ⟨n, hn, hprefill⟩ := d.prefill_eq m batch t ts
  have hsplit : ts.take n ++ ts.drop n = ts := List.take_append_drop n ts
  have hlen : 1 + (ts.take n).length = n + 1 := by
    rw [List.length_take_of_le hn, Nat.add_comm]
  calc d.prefill m batch (t :: ts)
    _ = match d.feedSingly m t (ts.take n) with
        | (.ok scores, m) => d.feedEach m scores (n + 1) (ts.drop n)
        | (.error e, m) => (.error e, m) := by rw [hprefill, h t (ts.take n)]
    _ = d.feedSingly m t (ts.take n ++ ts.drop n) := by
        unfold feedSingly
        cases d.feed m [t] 0 with
        | mk fed m =>
          cases fed with
          | error e => rfl
          | ok scores =>
            dsimp only
            rw [feedEach_append, hlen]
    _ = d.feedSingly m t ts := by rw [hsplit]

theorem prefill_batch (h : d.PassesAgree m) (batch batch' : Nat) (prompt : List Nat) :
    d.prefill m batch prompt = d.prefill m batch' prompt := by
  cases prompt with
  | nil => simp only [prefill, List.take_nil, List.drop_nil, feedEach]
  | cons t ts => rw [prefill_eq_feedSingly h, prefill_eq_feedSingly h]

/-- Only the prompt is fed in batches. -/
theorem reached_batch {batch : Nat} {s : Draft μ α}
    (hprompt : d.prefill m batch prompt = d.prefill m l.batch prompt)
    (h : d.Reached l m prompt s) : d.Reached { l with batch } m prompt s := by
  induction h with
  | prompt h => exact .prompt (hprompt.trans h)
  | pass _ h ih => exact .pass ih h

theorem turn_batch (h : d.PassesAgree m) (l : TurnLimits) (batch : Nat) (prompt : List Nat) :
    d.turn { l with batch } m prompt = d.turn l m prompt := by
  have hprompt : d.prefill m batch prompt = d.prefill m l.batch prompt :=
    prefill_batch h batch l.batch prompt
  have hends : d.Ends l m prompt (d.turn l m prompt) := ends_iff.2 rfl
  apply ends_iff.1
  generalize d.turn l m prompt = out at hends
  cases hends with
  | prompt hfails => exact .prompt (hprompt.trans hfails)
  | pass hs hpass => exact .pass (reached_batch hprompt hs) hpass

end Batch

/-- In a turn a model is fed the prompt and then the tokens of the reply, each once and at the next
position, from the first one on and within the context; only the first call may hold several tokens.
So where one pass over tokens does what feeding them singly does, the length of that pass changes
nothing. -/
theorem turn_feeds_in_row (d : Decoder μ α) (l : TurnLimits) (m : μ) (prompt : List Nat) :
    let out := d.recording.turn l (m, []) prompt
    unrecorded out = d.turn l m prompt ∧
      (∃ fed, d.Feeds l m prompt fed ∧ InRow out.2.2 fed ∧
        (prompt.length < l.nCtx → ∀ c ∈ out.2.2.flatMap Call.cells, c.pos < l.nCtx) ∧
        ∀ r, out.1 = .ok r → fed = prompt ++ r.fedBack) ∧
      (d.PassesAgree m → ∀ batch, d.turn { l with batch } m prompt = d.turn l m prompt) := by
  intro out
  obtain ⟨fed, hfed⟩ : ∃ fed, d.FedAtEnd l m prompt out fed := exists_fedAtEnd (ends_iff.2 rfl)
  refine ⟨recording_turn d l (m, []) prompt, ⟨fed, hfed.feeds, hfed.row, ?_, hfed.answered⟩, ?_⟩
  · intro hfits c hc
    rw [hfed.row.cells] at hc
    calc c.pos
      _ < 0 + fed.length := (Ledger.pos_of_mem_cellsFrom hc).2
      _ = fed.length := Nat.zero_add _
      _ ≤ l.nCtx := hfed.fits hfits
  · exact fun hagree batch => turn_batch hagree l batch prompt

theorem alphabet_feedEach (n last pos : Nat) (ts : List Nat) :
    alphabet.feedEach n last pos ts = (.ok (ts.getLastD last), n + ts.length) := by
  induction ts generalizing n last pos with
  | nil => rfl
  | cons t ts ih =>
    have hfeed : alphabet.feed n [t] pos = (.ok t, n + 1) := rfl
    rw [feedEach, hfeed]
    dsimp only
    rw [ih, List.length_cons, Nat.add_assoc, Nat.add_comm 1, List.getLastD_cons]

theorem alphabet_passesAgree (n : Nat) : alphabet.PassesAgree n := by
  intro t ts
  have hfeed : alphabet.feed n [t] 0 = (.ok t, n + 1) := rfl
  have hpass : alphabet.feed n (t :: ts) 0 = (.ok (ts.getLastD t), n + (t :: ts).length) := by
    simp only [alphabet, List.getLast?_cons, List.getLastD_eq_getLast?]
  rw [feedSingly, hfeed]
  dsimp only
  rw [alphabet_feedEach, hpass, List.length_cons, Nat.add_assoc, Nat.add_comm 1]

/-- Three letters in passes of two, and the replies to them when more are allowed. -/
theorem turn_feeds_in_row_letters :
    let l : TurnLimits := { nCtx := 6, batch := 2, maxTokens := 0, stop := [], ignoreEos := false }
    let out := alphabet.recording.turn l (0, []) [0, 1, 2]
    out = (.ok ⟨"def", [3, 4, 5], .contextFull⟩, 5, [⟨[0, 1], 0⟩, ⟨[2], 2⟩, ⟨[3], 3⟩, ⟨[4], 4⟩]) ∧
      InRow out.2.2 ([0, 1, 2] ++ [3, 4]) ∧ (∀ c ∈ out.2.2.flatMap Call.cells, c.pos < 6) ∧
      ∀ batch, alphabet.turn { l with batch } 0 [0, 1, 2] = alphabet.turn l 0 [0, 1, 2] := by
  intro l out
  have hout : out = (.ok ⟨"def", [3, 4, 5], .contextFull⟩, 5,
      [⟨[0, 1], 0⟩, ⟨[2], 2⟩, ⟨[3], 3⟩, ⟨[4], 4⟩]) := by rfl
  obtain ⟨-, ⟨fed, -, hrow, hpos, hreply⟩, hbatch⟩ := turn_feeds_in_row alphabet l 0 [0, 1, 2]
  refine ⟨hout, ?_, hpos (by decide), hbatch (alphabet_passesAgree 0)⟩
  have hanswer : out.1 = .ok ⟨"def", [3, 4, 5], .contextFull⟩ := by rw [hout]
  have hfed : fed = [0, 1, 2] ++ [3, 4] := hreply _ hanswer
  rw [← hfed]
  exact hrow

end Decoder

end ChatInference
