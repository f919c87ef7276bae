import ChatInference.Decode.Turn
import Mathlib.Data.List.Basic

/-!
The course of a turn, pass by pass. A pass chooses one token more for the reply under way; the turn ends
with it, or the token is fed back. How many passes there may be is said nowhere here: a pass looks only
at the positions that prompt and reply take. The turn ends as such passes end, and in no other way.
-/

namespace ChatInference

/-- Whether so many tokens are all that are asked for. -/
def TurnLimits.Reached (l : TurnLimits) (n : Nat) : Prop := 0 < l.maxTokens ∧ l.maxTokens ≤ n

instance (l : TurnLimits) (n : Nat) : Decidable (l.Reached n) :=
  inferInstanceAs (Decidable (0 < l.maxTokens ∧ l.maxTokens ≤ n))

namespace Decoder

/-- A reply under way: what the model remembers and what it says of the next token, with the tokens
chosen so far and their text. -/
structure Draft (μ α : Type) where
  memory : μ
  scores : α
  text : String
  tokens : List Nat

variable {μ α : Type}

/-- What one token more makes of a draft: the end of the turn, or the next draft. -/
def pass (d : Decoder μ α) (l : TurnLimits) (prompt : List Nat) (s : Draft μ α) :
    (Except String Reply × μ) ⊕ Draft μ α :=
  match d.step l prompt s.scores s.text s.tokens with
  | .error e => .inl (.error e, s.memory)
  | .ok (.ended r) => .inl (.ok r, s.memory)
  | .ok (.goesOn text tokens next) =>
    if l.nCtx ≤ prompt.length + tokens.length then .inl (.ok ⟨text, tokens, .contextFull⟩, s.memory)
    else
      match d.feed s.memory [next] (prompt.length + tokens.length - 1) with
      | (.ok scores, m) => .inr ⟨m, scores, text, tokens⟩
      | (.error e, m) => .inl (.error e, m)

/-- The drafts that a turn comes to: the empty one after the prompt, and what passes make of it. -/
inductive Reached (d : Decoder μ α) (l : TurnLimits) (m : μ) (prompt : List Nat) : Draft μ α → Prop
  | prompt {scores : α} {m' : μ} (h : d.prefill m l.batch prompt = (.ok scores, m')) :
      Reached d l m prompt ⟨m', scores, "", []⟩
  | pass {s s' : Draft μ α} (hs : Reached d l m prompt s) (h : d.pass l prompt s = .inr s') :
      Reached d l m prompt s'

/-- How a turn may end: where the prompt cannot be fed, or with a pass over a draft. -/
inductive Ends (d : Decoder μ α) (l : TurnLimits) (m : μ) (prompt : List Nat) :
    Except String Reply × μ → Prop
  | prompt {e : String} {m' : μ} (h : d.prefill m l.batch prompt = (.error e, m')) :
      Ends d l m prompt (.error e, m')
  | pass {s : Draft μ α} {out : Except String Reply × μ} (hs : d.Reached l m prompt s)
      (h : d.pass l prompt s = .inl out) : Ends d l m prompt out

/-- A token that is added to a draft, with the text it gives. -/
structure Adds (d : Decoder μ α) (l : TurnLimits) (prompt : List Nat) (s : Draft μ α) (next : Nat)
    (text : String) : Prop where
  sampled : d.sample s.tokens.length s.scores (prompt ++ s.tokens) = .ok next
  kept : l.ignoreEos = true ∨ d.isTerminal next = false
  told : d.text (s.tokens ++ [next]) = .ok text

/-- All that can become of a draft in a pass. -/
inductive Becomes (d : Decoder μ α) (l : TurnLimits) (prompt : List Nat) (s : Draft μ α) :
    (Except String Reply × μ) ⊕ Draft μ α → Prop
  | unsampled {e : String} (h : d.sample s.tokens.length s.scores (prompt ++ s.tokens) = .error e) :
      Becomes d l prompt s (.inl (.error e, s.memory))
  | endOfSequence {next : Nat}
      (hsampled : d.sample s.tokens.length s.scores (prompt ++ s.tokens) = .ok next)
      (hheeded : l.ignoreEos = false) (hterminal : d.isTerminal next = true) :
      Becomes d l prompt s (.inl (.ok ⟨s.text, s.tokens, .endOfSequence⟩, s.memory))
  | untold {next : Nat} {e : String}
      (hsampled : d.sample s.tokens.length s.scores (prompt ++ s.tokens) = .ok next)
      (h : d.text (s.tokens ++ [next]) = .error e) :
      Becomes d l prompt s (.inl (.error e, s.memory))
  | stopSequence {next n : Nat} {text : String} (hadds : d.Adds l prompt s next text)
      (hstop : Text.findFirst? l.stop text.toList = some n) :
      Becomes d l prompt s (.inl (.ok ⟨String.ofList (text.toList.take n), s.tokens ++ [next],
        .stopSequence⟩, s.memory))
  | maxTokens {next : Nat} {text : String} (hadds : d.Adds l prompt s next text)
      (hstop : Text.findFirst? l.stop text.toList = none) (hlimit : l.Reached (s.tokens.length + 1)) :
      Becomes d l prompt s (.inl (.ok ⟨text, s.tokens ++ [next], .maxTokens⟩, s.memory))
  | contextFull {next : Nat} {text : String} (hadds : d.Adds l prompt s next text)
      (hstop : Text.findFirst? l.stop text.toList = none)
      (hlimit : ¬l.Reached (s.tokens.length + 1))
      (hfull : l.nCtx ≤ prompt.length + (s.tokens.length + 1)) :
      Becomes d l prompt s (.inl (.ok ⟨text, s.tokens ++ [next], .contextFull⟩, s.memory))
  | unfed {next : Nat} {text e : String} {m : μ} (hadds : d.Adds l prompt s next text)
      (hroom : prompt.length + (s.tokens.length + 1) < l.nCtx)
      (hfeed : d.feed s.memory [next] (prompt.length + s.tokens.length) = (.error e, m)) :
      Becomes d l prompt s (.inl (.error e, m))
  | goesOn {next : Nat} {text : String} {scores : α} {m : μ} (hadds : d.Adds l prompt s next text)
      (hstop : Text.findFirst? l.stop text.toList = none)
      (hlimit : ¬l.Reached (s.tokens.length + 1))
      (hroom : prompt.length + (s.tokens.length + 1) < l.nCtx)
      (hfeed : d.feed s.memory [next] (prompt.length + s.tokens.length) = (.ok scores, m)) :
      Becomes d l prompt s (.inr ⟨m, scores, text, s.tokens ++ [next]⟩)

variable {d : Decoder μ α} {l : TurnLimits} {m : μ} {prompt : List Nat} {s : Draft μ α}
  {next : Nat} {text e : String}

theorem step_of_unsampled (h : d.sample s.tokens.length s.scores (prompt ++ s.tokens) = .error e) :
    d.step l prompt s.scores s.text s.tokens = .error e := by
  simp only [step, h, bind, Except.bind]

theorem step_of_terminal (h : d.sample s.tokens.length s.scores (prompt ++ s.tokens) = .ok next)
    (hheeded : l.ignoreEos = false) (hterminal : d.isTerminal next = true) :
    d.step l prompt s.scores s.text s.tokens = .ok (.ended ⟨s.text, s.tokens, .endOfSequence⟩) := by
  simp only [step, h, hheeded, hterminal, bind, Except.bind, Bool.not_false, Bool.true_and, if_true,
    pure, Except.pure]

theorem not_heeded_of_kept (h : l.ignoreEos = true ∨ d.isTerminal next = false) :
    (!l.ignoreEos && d.isTerminal next) = false := by
  rcases h with h | h
  · rw [h, Bool.not_true, Bool.false_and]
  · rw [h, Bool.and_false]

theorem step_of_untold (h : d.sample s.tokens.length s.scores (prompt ++ s.tokens) = .ok next)
    (hkept : l.ignoreEos = true ∨ d.isTerminal next = false)
    (htold : d.text (s.tokens ++ [next]) = .error e) :
    d.step l prompt s.scores s.text s.tokens = .error e := by
  simp only [step, h, htold, not_heeded_of_kept hkept, bind, Except.bind, Bool.false_eq_true, if_false]

/-- A token that is added ends the reply at a stop text or at the number of tokens asked for. -/
theorem step_of_adds (h : d.Adds l prompt s next text) :
    d.step l prompt s.scores s.text s.tokens =
      .ok (match Text.findFirst? l.stop text.toList with
        | some n =>
          .ended ⟨String.ofList (text.toList.take n), s.tokens ++ [next], .stopSequence⟩
        | none =>
          if l.Reached (s.tokens.length + 1) then .ended ⟨text, s.tokens ++ [next], .maxTokens⟩
          else .goesOn text (s.tokens ++ [next]) next) := by
  have hlen : (s.tokens ++ [next]).length = s.tokens.length + 1 := List.length_append
  cases hstop : Text.findFirst? l.stop text.toList with
  | some n =>
    simp only [step, h.sampled, h.told, not_heeded_of_kept h.kept, hstop, bind, Except.bind,
      Bool.false_eq_true, if_false, pure, Except.pure]
  | none =>
    simp only [step, h.sampled, h.told, not_heeded_of_kept h.kept, hstop, hlen, bind, Except.bind,
      Bool.false_eq_true, if_false, pure, Except.pure]
    change (if l.Reached (s.tokens.length + 1) then _ else _) = _
    split <;> rfl

theorem becomes_of_adds (hadds : d.Adds l prompt s next text) :
    d.Becomes l prompt s (d.pass l prompt s) := by
  rw [pass, step_of_adds hadds]
  cases hstop : Text.findFirst? l.stop text.toList with
  | some n => exact .stopSequence hadds hstop
  | none =>
    dsimp only
    by_cases hlimit : l.Reached (s.tokens.length + 1)
    · rw [if_pos hlimit]
      exact .maxTokens hadds hstop hlimit
    · rw [if_neg hlimit]
      dsimp only
      rw [List.length_append, List.length_singleton]
      by_cases hfull : l.nCtx ≤ prompt.length + (s.tokens.length + 1)
      · rw [if_pos hfull]
        exact .contextFull hadds hstop hlimit hfull
      · -- the token is fed at the position after prompt and draft
        have hroom := Nat.lt_of_not_le hfull
        rw [if_neg hfull, show prompt.length + (s.tokens.length + 1) - 1 =
          prompt.length + s.tokens.length by omega]
        split
        case h_1 scores m' hfeed => exact .goesOn hadds hstop hlimit hroom hfeed
        case h_2 e m' hfeed => exact .unfed hadds hroom hfeed

theorem pass_becomes (d : Decoder μ α) (l : TurnLimits) (prompt : List Nat) (s : Draft μ α) :
    d.Becomes l prompt s (d.pass l prompt s) := by
  cases hsampled : d.sample s.tokens.length s.scores (prompt ++ s.tokens) with
  | error e =>
    rw [pass, step_of_unsampled hsampled]
    exact .unsampled hsampled
  | ok next =>
    by_cases hends : l.ignoreEos = false ∧ d.isTerminal next = true
    · rw [pass, step_of_terminal hsampled hends.1 hends.2]
      exact .endOfSequence hsampled hends.1 hends.2
    · have hkept : l.ignoreEos = true ∨ d.isTerminal next = false := by
        rw [not_and_or, Bool.not_eq_false, Bool.not_eq_true] at hends
        exact hends
      cases htold : d.text (s.tokens ++ [next]) with
      | error e =>
        rw [pass, step_of_untold hsampled hkept htold]
        exact .untold hsampled htold
      | ok text => exact becomes_of_adds ⟨hsampled, hkept, htold⟩

theorem tokens_of_step {tokens : List Nat}
    (h : d.step l prompt s.scores s.text s.tokens = .ok (.goesOn text tokens next)) :
    tokens = s.tokens ++ [next] := by
  unfold step at h
  simp only [bind, Except.bind, pure, Except.pure] at h
  grind

/-- The room that the context has left for a draft. -/
def Draft.room (l : TurnLimits) (prompt : List Nat) (s : Draft μ α) : Nat :=
  l.nCtx - 1 - (prompt.length + s.tokens.length)

/-- A reply that counts its room down is made pass by pass. -/
theorem reply_eq (d : Decoder μ α) (l : TurnLimits) (prompt : List Nat) (s : Draft μ α) :
    d.reply l prompt (s.room l prompt) s.memory s.scores s.text s.tokens =
      match d.pass l prompt s with
      | .inl out => out
      | .inr s' => d.reply l prompt (s'.room l prompt) s'.memory s'.scores s'.text s'.tokens := by
  rw [reply.eq_def]
  cases hstep : d.step l prompt s.scores s.text s.tokens with
  | error e => simp only [pass, hstep]
  | ok st =>
    cases st with
    | ended r => simp only [pass, hstep]
    | goesOn text tokens next =>
      have hlen : tokens.length = s.tokens.length + 1 := by
        rw [tokens_of_step hstep, List.length_append, List.length_singleton]
      -- there is no room left exactly when prompt and draft take the whole context
      by_cases hfull : l.nCtx ≤ prompt.length + tokens.length
      · have hroom : s.room l prompt = 0 := by
          unfold Draft.room
          omega
        simp only [pass, hstep, hroom, if_pos hfull]
      · have hroom : s.room l prompt = l.nCtx - 1 - (prompt.length + tokens.length) + 1 := by
          unfold Draft.room
          omega
        simp only [pass, hstep, hroom, if_neg hfull]
        cases hfeed : d.feed s.memory [next] (prompt.length + tokens.length - 1) with
        | mk fed m =>
          cases fed with
          | error e => rfl
          | ok scores => rfl

theorem turn_of_prompt {scores : α} {m' : μ} (h : d.prefill m l.batch prompt = (.ok scores, m')) :
    d.turn l m prompt =
      d.reply l prompt (Draft.room l prompt (⟨m', scores, "", []⟩ : Draft μ α)) m' scores "" [] := by
  rw [turn, h]
  rfl

/-- Whichever draft a turn has come to, it ends as the reply does that goes on from there. -/
theorem turn_of_reached (h : d.Reached l m prompt s) :
    d.turn l m prompt =
      d.reply l prompt (s.room l prompt) s.memory s.scores s.text s.tokens := by
  induction h with
  | prompt h => exact turn_of_prompt h
  | pass _ h ih => rw [ih, reply_eq, h]

/-- Each pass that goes on leaves less room, so that one of them ends the turn. -/
theorem ends_of_reached {s : Draft μ α} (h : d.Reached l m prompt s) :
    d.Ends l m prompt (d.reply l prompt (s.room l prompt) s.memory s.scores s.text s.tokens) := by
  rw [reply_eq]
  cases hpass : d.pass l prompt s with
  | inl out => exact .pass h hpass
  | inr s' =>
    have hless : s'.room l prompt < s.room l prompt := by
      have hbecomes := d.pass_becomes l prompt s
      rw [hpass] at hbecomes
      cases hbecomes with
      | goesOn hadds hstop hlimit hroom hfeed =>
        simp only [Draft.room, List.length_append, List.length_singleton]
        omega
    exact ends_of_reached (.pass h hpass)
termination_by s.room l prompt

/-- A turn ends with its outcome, and with no other. -/
theorem ends_iff {out : Except String Reply × μ} :
    d.Ends l m prompt out ↔ d.turn l m prompt = out := by
  constructor
  · intro h
    cases h with
    | prompt h => rw [turn, h]
    | pass hs h => rw [turn_of_reached hs, reply_eq, h]
  · rintro rfl
    cases hprompt : d.prefill m l.batch prompt with
    | mk fed m' =>
      cases fed with
      | error e =>
        rw [turn, hprompt]
        exact .prompt hprompt
      | ok scores =>
        rw [turn_of_prompt hprompt]
        exact ends_of_reached (.prompt hprompt)

/-- A turn that is answered ends with a pass over a draft that it came to. -/
theorem exists_last_pass {r : Reply} {m' : μ} (h : d.turn l m prompt = (.ok r, m')) :
    ∃ s, d.Reached l m prompt s ∧ d.Becomes l prompt s (.inl (.ok r, m')) := by
  have hends : d.Ends l m prompt (.ok r, m') := ends_iff.2 h
  cases hends with
  | @pass s _ hs hpass =>
    refine ⟨s, hs, ?_⟩
    rw [← hpass]
    exact d.pass_becomes l prompt s

/-- What the empty draft has, and every pass that goes on keeps, each draft has that a turn comes
to. -/
theorem Reached.rec_becomes {P : Draft μ α → Prop}
    (hprompt : ∀ scores m', d.prefill m l.batch prompt = (.ok scores, m') → P ⟨m', scores, "", []⟩)
    (hpass : ∀ s s', P s → d.Becomes l prompt s (.inr s') → P s')
    (h : d.Reached l m prompt s) : P s := by
  induction h with
  | prompt h => exact hprompt _ _ h
  | @pass s s' _ h ih =>
    have hbecomes := d.pass_becomes l prompt s
    rw [h] at hbecomes
    exact hpass s s' ih hbecomes

end Decoder

end ChatInference
