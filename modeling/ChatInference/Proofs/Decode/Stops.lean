import ChatInference.Engine.Local
import ChatInference.Proofs.Decode.Limits
import ChatInference.Proofs.Text.Search

/-!
Stop texts. The text of a draft is that of its tokens and has no stop text in it, or the turn would have
ended there. So the text of a reply is what its tokens say, whole, unless the last of them has brought a
stop text in; then it is cut before the first one, and none is left.
-/

namespace ChatInference

theorem PromptFamily.ne_empty_of_stopMarker (f : PromptFamily) :
    ∀ p ∈ f.stopMarkers, p ≠ "" := by
  cases f <;> decide

namespace Decoder

variable {μ α : Type} {d : Decoder μ α} {l : TurnLimits} {m m' : μ} {prompt : List Nat}
  {s : Draft μ α} {r : Reply}

/-- A draft says what its tokens say, and nothing in it stops the reply. -/
structure Draft.Unstopped (d : Decoder μ α) (l : TurnLimits) (s : Draft μ α) : Prop where
  told : d.text s.tokens = .ok s.text
  clear : Text.findFirst? l.stop s.text.toList = none

theorem unstopped_reached (hempty : d.text [] = .ok "") (h : d.Reached l m prompt s) :
    s.Unstopped d l := by
  refine Reached.rec_becomes (P := fun s => s.Unstopped d l) ?_ ?_ h
  · intro scores m' _
    refine ⟨hempty, Text.findFirst?_eq_none_iff.2 fun p _ hne hinfix => ?_⟩
    -- nothing but the empty text occurs in the empty one
    exact hne (String.toList_eq_nil_iff.1 (List.infix_nil.1 hinfix))
  · intro s s' _ hbecomes
    cases hbecomes with
    | goesOn hadds hstop hlimit hroom hfeed => exact ⟨hadds.told, hstop⟩

/-- The text of a reply is that of its tokens, up to the first stop text if there is one. -/
theorem text_of_turn (hempty : d.text [] = .ok "") (h : d.turn l m prompt = (.ok r, m')) :
    ∃ decoded, d.text r.tokens = .ok decoded ∧
      ((r.stopReason ≠ .stopSequence ∧ Text.findFirst? l.stop decoded.toList = none ∧
          r.text = decoded) ∨
        (r.stopReason = .stopSequence ∧ ∃ n, Text.findFirst? l.stop decoded.toList = some n ∧
          r.text.toList = decoded.toList.take n)) := by
  obtain ⟨s, hs, hbecomes⟩ := exists_last_pass h
  have hdraft := unstopped_reached hempty hs
  cases hbecomes with
  | endOfSequence hsampled hheeded hterminal =>
    exact ⟨s.text, hdraft.told, .inl ⟨nofun, hdraft.clear, rfl⟩⟩
  | @stopSequence next n text hadds hstop =>
    exact ⟨text, hadds.told, .inr ⟨rfl, n, hstop, String.toList_ofList⟩⟩
  | maxTokens hadds hstop hlimit => exact ⟨_, hadds.told, .inl ⟨nofun, hstop, rfl⟩⟩
  | contextFull hadds hstop hlimit hfull => exact ⟨_, hadds.told, .inl ⟨nofun, hstop, rfl⟩⟩

theorem no_stop_of_turn (hempty : d.text [] = .ok "") (h : d.turn l m prompt = (.ok r, m'))
    {p : String} (hp : p ∈ l.stop) (hne : p ≠ "") : ¬p.toList <:+: r.text.toList := by
  obtain ⟨decoded, -, ⟨-, hnone, htext⟩ | ⟨-, n, hfound, htext⟩⟩ := text_of_turn hempty h
  · rw [htext]
    exact Text.findFirst?_eq_none_iff.1 hnone p hp hne
  · rw [htext]
    exact Text.not_infix_take hfound hp hne

/-- Whatever a model says, no stop text of the request and no marker of the family occurs in the text
of a reply, which is the beginning of what its tokens say. It is all of it, unless a stop text ended
the reply; then it ends where the first one stands. -/
theorem reply_without_stops {slots : Slots} {request : Request} {family : PromptFamily}
    (hempty : d.text [] = .ok "")
    (h : d.turn (LocalEngine.limits slots request family) m prompt = (.ok r, m')) :
    (∀ p ∈ request.stop, p ≠ "" → ¬p.toList <:+: r.text.toList) ∧
      (∀ p ∈ family.stopMarkers, ¬p.toList <:+: r.text.toList) ∧
      ∃ decoded, d.text r.tokens = .ok decoded ∧ r.text.toList <+: decoded.toList ∧
        (r.text ≠ decoded ↔ r.stopReason = .stopSequence) ∧
        (r.stopReason = .stopSequence →
          (∃ p ∈ request.stop ++ family.stopMarkers, p ≠ "" ∧
            p.toList <+: decoded.toList.drop r.text.toList.length) ∧
          ∀ n, ∀ p ∈ request.stop ++ family.stopMarkers, p ≠ "" →
            p.toList <+: decoded.toList.drop n → r.text.toList.length ≤ n) := by
  refine ⟨fun p hp hne => ?_, fun p hp => ?_, ?_⟩
  · exact no_stop_of_turn hempty h (List.mem_append_left _ hp) hne
  · apply no_stop_of_turn hempty h (List.mem_append_right _ hp)
    exact family.ne_empty_of_stopMarker p hp
  · obtain ⟨decoded, htold, ⟨hreason, -, htext⟩ | ⟨hreason, n, hfound, htext⟩⟩ :=
      text_of_turn hempty h
    · refine ⟨decoded, htold, ?_, ?_, fun hstop => absurd hstop hreason⟩
      · rw [htext]
      · exact iff_of_false (fun hne => hne htext) hreason
    · have hinside := Text.lt_length_of_findFirst? hfound
      have hlen : r.text.toList.length = n := by
        rw [htext, List.length_take]
        omega
      refine ⟨decoded, htold, ?_, iff_of_true ?_ hreason, fun _ => ?_⟩
      · rw [htext]
        exact List.take_prefix n _
      · intro hwhole
        rw [hwhole] at hlen
        omega
      · rw [hlen]
        exact Text.findFirst?_some hfound

/-- Two stop texts come with the same letter, and the reply is cut before the one that begins first. -/
theorem reply_without_stops_overlapping :
    let request : Request := { (default : Request) with stop := ["f", "ef", ""] }
    let l := LocalEngine.limits ⟨16, 8⟩ request .qwen
    ∃ r, alphabet.turn l 0 [0, 1] = (.ok r, 5) ∧ r.text = "cd" ∧ r.tokens = [2, 3, 4, 5] ∧
      alphabet.text r.tokens = .ok "cdef" ∧ r.stopReason = .stopSequence ∧
      (∀ p ∈ request.stop, p ≠ "" → ¬p.toList <:+: r.text.toList) ∧
      ∀ p ∈ PromptFamily.qwen.stopMarkers, ¬p.toList <:+: r.text.toList := by
  intro request l
  have hturn : alphabet.turn l 0 [0, 1] = (.ok ⟨"cd", [2, 3, 4, 5], .stopSequence⟩, 5) := by rfl
  have h := reply_without_stops (d := alphabet) rfl hturn
  exact ⟨_, hturn, rfl, rfl, rfl, rfl, h.1, h.2.1⟩

end Decoder

end ChatInference
