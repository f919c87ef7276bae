import ChatInference.Proofs.Session.Overlap
import ChatInference.Proofs.Session.Tally

/-!
What the history of a session tells: the exchanges it has had, each a prompt and a reply, and the prompt
of the turn that is under way. A turn that begins where none is under way, and ends where it began, keeps
it so, answered or not; one that ends in a session it did not begin in does not, unless it has nothing to
say.
-/

namespace ChatInference

/-- A turn that is under way, and the session it was begun in. -/
structure Pending where
  asked : Asked
  prompt : String

/-- An answered turn. -/
structure Exchange where
  asked : Asked
  prompt : String
  reply : String

/-- What a history with these exchanges is. -/
def transcript (xs : List Exchange) : List Message :=
  xs.flatMap fun x => [⟨.user, x.prompt⟩, ⟨.assistant, x.reply⟩]

/-- What a turn adds to the exchanges; a failed one adds nothing. -/
def Pending.answered (a : Pending) (reply : Option String) : List Exchange :=
  (reply.map fun text => ⟨a.asked, a.prompt, text⟩).toList

/-- The exchanges of one session, that of an id and a creation. -/
def exchangesOf (log : List Exchange) (id : SessionId) (creation : Nat) : List Exchange :=
  log.filter fun x => x.asked.id = id ∧ x.asked.creation = creation

theorem transcript_append (xs ys : List Exchange) :
    transcript (xs ++ ys) = transcript xs ++ transcript ys := List.flatMap_append

theorem exchangesOf_append (log : List Exchange) (a : Pending) (reply : Option String) (id : SessionId)
    (creation : Nat) :
    exchangesOf (log ++ a.answered reply) id creation = exchangesOf log id creation ++
      if a.asked.id = id ∧ a.asked.creation = creation then a.answered reply else [] := by
  unfold exchangesOf Pending.answered
  rw [List.filter_append]
  cases reply with
  | none => simp
  | some text => by_cases h : a.asked.id = id ∧ a.asked.creation = creation <;> simp [h]

/-- A history with these exchanges and, where a turn is under way, its prompt. -/
structure Session.Stands (s : Session) (xs : List Exchange) (prompt : Option String) : Prop where
  history : s.history = transcript xs ++ (prompt.map (⟨.user, ·⟩)).toList
  turns : s.turns = xs.length
  state : s.state = if prompt.isSome then .running else .ready

namespace Session.Stands

variable {s : Session} {xs : List Exchange} {prompt : Option String} {now nPast : Nat}

theorem begin (h : s.Stands xs none) (now : Nat) (text : String) :
    (s.begin now text).Stands xs (some text) := by
  refine ⟨?_, h.turns, rfl⟩
  have hhistory := h.history
  simp only [Option.map_none, Option.toList_none, List.append_nil] at hhistory
  change s.history ++ [⟨.user, text⟩] = _
  rw [hhistory]
  rfl

/-- An exchange ends with a reply, so that there is nothing to drop. -/
theorem dropUnanswered_transcript (xs : List Exchange) :
    Session.dropUnanswered (transcript xs) = transcript xs := by
  unfold Session.dropUnanswered
  rcases List.eq_nil_or_concat xs with rfl | ⟨xs, x, rfl⟩
  · rfl
  · have hlast : (transcript (xs ++ [x])).getLast? = some ⟨.assistant, x.reply⟩ := by
      rw [transcript_append]
      simp [transcript]
    rw [List.concat_eq_append, hlast]
    rfl

/-- The prompt that a failed turn leaves is dropped. -/
theorem dropUnanswered_prompt (xs : List Exchange) (text : String) :
    Session.dropUnanswered (transcript xs ++ [⟨.user, text⟩]) = transcript xs := by
  unfold Session.dropUnanswered
  rw [List.getLast?_concat]
  exact List.dropLast_concat

/-- The turn that is under way ends, answered or not. -/
theorem finish {a : Pending} (h : s.Stands xs (some a.prompt)) (now : Nat) (reply : Option String)
    (nPast : Nat) : (s.finish now reply nPast).Stands (xs ++ a.answered reply) none := by
  have hhistory : s.history = transcript xs ++ [⟨.user, a.prompt⟩] := h.history
  cases reply with
  | some text =>
    refine ⟨?_, ?_, rfl⟩
    · change s.history ++ [⟨.assistant, text⟩] = transcript (xs ++ a.answered (some text)) ++ []
      rw [hhistory, transcript_append, List.append_nil, List.append_assoc]
      rfl
    · change s.turns + 1 = _
      rw [h.turns, List.length_append]
      rfl
  | none =>
    have hxs : xs ++ a.answered none = xs := List.append_nil xs
    rw [hxs]
    refine ⟨?_, h.turns, rfl⟩
    change Session.dropUnanswered s.history = transcript xs ++ []
    rw [hhistory, dropUnanswered_prompt, List.append_nil]

/-- A turn that ends without a reply leaves a session that had none under way as it was. -/
theorem finish_failed (h : s.Stands xs none) (now nPast : Nat) :
    (s.finish now none nPast).Stands xs none := by
  have hhistory : s.history = transcript xs := by
    rw [h.history]
    exact List.append_nil _
  refine ⟨?_, h.turns, rfl⟩
  change Session.dropUnanswered s.history = transcript xs ++ []
  rw [hhistory, dropUnanswered_transcript, List.append_nil]

/-- One that ends with a reply does not. -/
theorem not_finish_answered (h : s.Stands xs none) (text : String) :
    ¬(s.finish now (some text) nPast).Stands xs none := by
  intro h'
  have hturns : s.turns + 1 = xs.length := h'.turns
  have hsame := h.turns
  omega

/-- Nor does any end leave a session as it was whose own turn is under way. -/
theorem not_finish_running {reply : Option String} {text : String} :
    ¬(s.finish now reply nPast).Stands xs (some text) := by
  intro h
  have hready := SessionTable.state_finish s now reply nPast
  rw [h.state] at hready
  cases hready

end Session.Stands

theorem SessionTable.beginTurn_eq {t t' : SessionTable} {k : SessionId} {now : Nat} {prompt : String}
    {u : Session} (h : t.beginTurn k now prompt = .ok (u, t')) :
    ∃ s, t.sessions.get? k = some s ∧ u = s.begin now prompt ∧
      t.update k (·.begin now prompt) = .ok t' := by
  have hupdate := update_of_beginTurn h
  obtain ⟨s, hs, -⟩ := update_eq hupdate
  refine ⟨s, hs, ?_, hupdate⟩
  have hget := get?_update hupdate k
  rw [if_pos rfl, hs] at hget
  -- the session is read back from the table
  unfold beginTurn at h
  rw [hupdate] at h
  change (t'.get k).bind (fun s => .ok (s, t')) = _ at h
  unfold get at h
  rw [hget] at h
  cases h
  rfl

end ChatInference
