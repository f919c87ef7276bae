import ChatInference.Keyed.Lemmas
import ChatInference.Proofs.Service.Turns
import ChatInference.Service.Boundary

/-!
Collecting the reply of a task from outside. The service hands an outcome out before the call looks
at its buffer, so the first call that finds the reply is also the last: with a buffer too small for
it the reply is gone, and the size that the call reports is of no more use.
-/

namespace ChatInference

namespace Service

variable {σ : Type} {s : Service σ} {task : TaskId}

/-- The outcome of a task, if the task has one that nobody has collected. -/
def outcome? (s : Service σ) (task : TaskId) : Option Outcome :=
  (s.collectable.get? task).bind fun
    | .ready outcome => some outcome
    | .posted ticket => s.received ticket

theorem taskResult_of_outcome {outcome : Outcome} (h : s.outcome? task = some outcome) :
    s.taskResult task =
      (some <$> outcome, { s with collectable := s.collectable.erase task }) := by
  obtain ⟨c, hc, ho⟩ := Option.bind_eq_some_iff.1 h
  unfold taskResult
  rw [hc]
  cases c with
  | ready r =>
    cases ho
    rfl
  | posted ticket =>
    dsimp only at ho ⊢
    rw [ho]

/-- Nobody can collect what is not there. -/
theorem taskResult_of_missing (h : s.collectable.get? task = none) :
    s.taskResult task =
      (.error (.notFound s!"task {task}"), { s with collectable := s.collectable.erase task }) := by
  unfold taskResult
  rw [h]
  rfl

theorem collectable_foldl {α : Type} {f : Service σ → α → Service σ}
    (hf : ∀ s a, (f s a).collectable = s.collectable) (xs : List α) (s : Service σ) :
    (xs.foldl f s).collectable = s.collectable := by
  induction xs generalizing s with
  | nil => rfl
  | cons x xs ih => exact (ih (f s x)).trans (hf s x)

variable [InferenceEngine σ]

theorem collectable_workerStep (s : Service σ) (now : Nat) :
    (s.workerStep now).collectable = s.collectable := by
  unfold workerStep
  cases s.worker with
  | idle =>
    dsimp only
    split
    · split <;> rfl
    · rfl
  | waiting t =>
    dsimp only
    split
    · rfl
    · split <;> rfl
  | admitted t =>
    have ht := (undisturbed_startTurn s now t.session t.prompt t.overrides).collectable
    dsimp only
    split
    case h_1 e s' h =>
      rw [h] at ht
      exact ht
    case h_2 turn s' h =>
      rw [h] at ht
      exact ht
  | running t turn => exact (undisturbed_endTurn s now turn).collectable
  | «over» t r => rfl
  | uncounted t r => rfl
  | unsent t r => rfl
  | stopped => rfl

/-- The worker leaves it to the callers to collect. -/
theorem collectable_work (s : Service σ) (now : Nat) :
    (s.work now).collectable = s.collectable := by
  refine collectable_foldl (fun s i => ?_) _ s
  exact collectable_foldl (fun s _ => collectable_workerStep s (now + i)) _ s

end Service

namespace Boundary

variable {σ : Type} [InferenceEngine σ]

/-- A call for the reply of a task: when it comes, how long it waits, and where the reply is to go. -/
structure Collection where
  now : Nat
  wait : Int
  buffer : Buffer

/-- The service once a call has waited. -/
def Collection.awaited (c : Collection) (s : Service σ) : Service σ :=
  if c.wait < 0 then s.settle c.now else s

/-- What calls for one task, one after the other, are answered. -/
def collectAll (h : Handle σ) (task : TaskId) : List Collection → List Written
  | [] => []
  | c :: cs =>
    let r := taskResult h c.now task c.wait c.buffer true
    r.1 :: collectAll r.2.2 task cs

theorem collectable_awaited (c : Collection) (s : Service σ) :
    (c.awaited s).collectable = s.collectable := by
  unfold Collection.awaited Service.settle
  split
  · exact (Service.collectable_work _ _).trans (Service.collectable_work _ _)
  · rfl

variable {s : Service σ} {task : TaskId} {text : String} {c : Collection}

theorem taskResult_eq (s : Service σ) (task : TaskId) (c : Collection) :
    taskResult (some s) c.now task c.wait c.buffer true =
      match (c.awaited s).taskResult task with
      | (.ok (some text), s) => (write c.buffer text, some true, some s)
      | (.ok none, s) => (⟨.success, none, none⟩, some false, some s)
      | (.error e, s) => (failed e.status, some false, some s) :=
  rfl

theorem taskResult_of_reply (h : (c.awaited s).outcome? task = some (.ok text)) :
    taskResult (some s) c.now task c.wait c.buffer true =
      (write c.buffer text, some true,
        some { c.awaited s with collectable := (c.awaited s).collectable.erase task }) := by
  rw [taskResult_eq, Service.taskResult_of_outcome h]
  rfl

theorem taskResult_of_missing (h : s.collectable.get? task = none) :
    taskResult (some s) c.now task c.wait c.buffer true =
      (failed .notFound, some false,
        some { c.awaited s with collectable := (c.awaited s).collectable.erase task }) := by
  rw [← collectable_awaited c] at h
  rw [taskResult_eq, Service.taskResult_of_missing h]
  rfl

theorem collectAll_of_missing (cs : List Collection) (h : s.collectable.get? task = none) :
    collectAll (some s) task cs = cs.map fun _ => failed .notFound := by
  induction cs generalizing s with
  | nil => rfl
  | cons c cs ih =>
    unfold collectAll
    rw [taskResult_of_missing h, List.map_cons]
    exact congrArg _ (ih (Keyed.get?_erase_self _ _))

/-- The first call that finds the reply gets it, if its buffer holds it, and no call after it finds
anything. -/
theorem collectAll_of_reply (cs : List Collection)
    (h : (c.awaited s).outcome? task = some (.ok text)) :
    collectAll (some s) task (c :: cs) =
      write c.buffer text :: cs.map fun _ => failed .notFound := by
  unfold collectAll
  rw [taskResult_of_reply h]
  exact congrArg _ (collectAll_of_missing cs (Keyed.get?_erase_self _ _))

/-- The size that a call reports of a text: a word, and only where it is wanted. -/
def reported (b : Buffer) (text : String) : Option Nat :=
  if b.wantsSize = true ∧ needed text < UInt32.size then some (needed text) else none

theorem write_of_fits {b : Buffer} {text : String} {capacity : Nat}
    (hb : b.capacity = some capacity) (hword : capacity < UInt32.size)
    (h : needed text ≤ capacity) : write b text = ⟨.success, reported b text, some text⟩ := by
  have hsize : needed text < UInt32.size := Nat.lt_of_le_of_lt h hword
  unfold write reported
  dsimp only
  rw [if_neg (Nat.not_le_of_lt hsize), hb]
  dsimp only
  rw [if_neg (Nat.not_lt_of_le h)]
  simp only [hsize, and_true]

theorem write_of_not_fits {b : Buffer} {text : String} {capacity : Nat}
    (hb : b.capacity = some capacity) (h : capacity < needed text) :
    write b text = ⟨.tooLarge, reported b text, none⟩ := by
  unfold write reported
  dsimp only
  by_cases hsize : needed text < UInt32.size
  · rw [if_neg (Nat.not_le_of_lt hsize), hb]
    dsimp only
    rw [if_pos h]
    simp only [hsize, and_true]
  · rw [if_pos (Nat.le_of_not_lt hsize), if_neg fun hw => hsize hw.2]

/-- Of calls for a task whose outcome is a reply, however many and with whatever buffers, the first
gets the reply if its buffer holds it, and reports the size if it does not. All calls after it find
no task, also when the first was refused for its buffer and the others are given all the room that
was reported. Capacities are words. -/
theorem reply_is_for_the_first_call_alone {s : Service σ} {task : TaskId} {text : String}
    {c : Collection} {capacity : Nat} (hc : c.buffer.capacity = some capacity)
    (hword : capacity < UInt32.size) (h : (c.awaited s).outcome? task = some (.ok text))
    (cs : List Collection) :
    (needed text ≤ capacity →
        collectAll (some s) task (c :: cs) =
          ⟨.success, reported c.buffer text, some text⟩ :: cs.map fun _ => failed .notFound) ∧
      (capacity < needed text →
        collectAll (some s) task (c :: cs) =
          ⟨.tooLarge, reported c.buffer text, none⟩ :: cs.map fun _ => failed .notFound) := by
  rw [collectAll_of_reply cs h]
  constructor
  · intro hfits
    rw [write_of_fits hc hword hfits]
  · intro hsmall
    rw [write_of_not_fits hc hsmall]

/-- A service in which the fifth task has come to a reply. -/
def replied : Service LocalEngine := (Service.ofConfig {} {}).expect 5 (.ready (.ok "abc"))

theorem reply_is_for_the_first_call_alone_abc :
    let roomy : Collection := ⟨0, 0, { capacity := some 4 }⟩
    (roomy.awaited replied).outcome? 5 = some (.ok "abc") ∧
      collectAll (some replied) 5 [roomy, roomy] =
        [⟨.success, some 4, some "abc"⟩, failed .notFound] := by
  intro roomy
  have h : (roomy.awaited replied).outcome? 5 = some (.ok "abc") := rfl
  exact ⟨h, (reply_is_for_the_first_call_alone rfl (by decide) h [roomy]).1 (by decide)⟩

/-- A buffer one byte short, and then one of the size that was reported. -/
theorem reply_lost_in_a_small_buffer :
    let small : Collection := ⟨0, 0, { capacity := some 3 }⟩
    let roomy : Collection := ⟨0, 0, { capacity := some 4 }⟩
    (small.awaited replied).outcome? 5 = some (.ok "abc") ∧
      collectAll (some replied) 5 [small, roomy] =
        [⟨.tooLarge, some 4, none⟩, failed .notFound] := by
  intro small roomy
  exact ⟨rfl, rfl⟩

end Boundary

end ChatInference
