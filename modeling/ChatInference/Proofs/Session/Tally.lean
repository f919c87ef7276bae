import ChatInference.Proofs.Session.Numbering
import Mathlib.Logic.Function.Basic

/-!
Sessions by the number of their creation. An id may be given again, once the table has been cleared or
all others are used up; the number of a creation is not.
-/

namespace ChatInference

/-- How many sessions were created and how often the table was cleared. -/
structure Tally where
  created : Nat := 0
  clearings : Nat := 0
  /-- The creations before the last clearing. -/
  before : Nat := 0

namespace Tally

/-- The creations since the last clearing. -/
def since (y : Tally) : Nat := y.created - y.before

def create (y : Tally) : Tally := { y with created := y.created + 1 }

def clear (y : Tally) : Tally := ⟨y.created, y.clearings + 1, y.created⟩

end Tally

/-- The sessions that are open were created since the last clearing, and numbered in order of creation for
as long as there were numbers left. -/
structure Tally.Dates (y : Tally) (latest : SessionId → Nat) (t : SessionTable) : Prop where
  before : y.before ≤ y.created
  next : y.since + 1 < SessionTable.idLimit → t.nextId = y.since + 1
  latest : ∀ k, t.contains k = true → y.before < latest k ∧ latest k ≤ y.created ∧
    (y.since < SessionTable.idLimit → latest k = y.before + k)

/-- The session that a turn was asked for: its id, its creation, and the clearings before the check. -/
structure Asked where
  id : SessionId
  creation : Nat
  clearings : Nat
  deriving Inhabited

/-- What is known of a session that was open at some time. -/
structure Tally.Knows (y : Tally) (a : Asked) : Prop where
  clearings : a.clearings ≤ y.clearings
  creation : a.creation ≤ y.created
  earlier : a.clearings < y.clearings → a.creation ≤ y.before
  numbered : a.clearings = y.clearings → y.since < SessionTable.idLimit →
    a.creation = y.before + a.id

namespace Tally

variable {y : Tally} {latest : SessionId → Nat} {t t' : SessionTable} {a : Asked}

theorem dates_within (h : y.Dates latest t) (hw : t.Within t') : y.Dates latest t' :=
  ⟨h.before, fun hs => hw.nextId.trans (h.next hs), fun k hk => h.latest k (hw.used k hk)⟩

theorem since_create (h : y.before ≤ y.created) : y.create.since = y.since + 1 := by
  unfold since create
  dsimp only
  omega

/-- A creation is dated by its number, and takes the next id as long as there is one. -/
theorem dates_create {p : SessionPolicy} {now : Nat} {c : Created} (h : y.Dates latest t)
    (hc : t.create p now none = (.ok c, t')) :
    y.create.Dates (Function.update latest c.id (y.created + 1)) t' := by
  obtain ⟨hused, hnext⟩ := SessionTable.create_numbered hc
  have hbefore := h.before
  have hsince := since_create hbefore
  have hsum : y.since + y.before = y.created := Nat.sub_add_cancel hbefore
  -- in the first round no session has the number that comes next
  have hfree (hs : y.since + 1 < SessionTable.idLimit) :
      c.id = y.since + 1 ∧ t'.nextId = SessionTable.succId (y.since + 1) := by
    rw [← h.next hs]
    apply hnext
    apply Bool.eq_false_iff.2
    intro hin
    obtain ⟨-, hle, hnum⟩ := h.latest _ hin
    have heq := hnum (by omega)
    rw [h.next hs] at heq hle
    omega
  refine ⟨Nat.le_succ_of_le hbefore, fun hs => ?_, fun k hk => ?_⟩
  · rw [hsince] at hs ⊢
    rw [(hfree (by omega)).2]
    unfold SessionTable.succId
    rw [Nat.mod_eq_of_lt hs]
    exact Nat.max_eq_right (Nat.le_add_left 1 _)
  · rw [hsince]
    change y.before < _ ∧ _ ≤ y.created + 1 ∧ (_ → _ = y.before + k)
    by_cases hkc : k = c.id
    · rw [hkc, Function.update_self]
      refine ⟨by omega, Nat.le_refl _, fun hs => ?_⟩
      rw [(hfree hs).1]
      omega
    · rw [Function.update_of_ne hkc]
      obtain ⟨hlt, hle, hnum⟩ := h.latest k ((hused k hk).resolve_left hkc)
      exact ⟨hlt, Nat.le_succ_of_le hle, fun hs => hnum (by omega)⟩

theorem dates_clear (y : Tally) (latest : SessionId → Nat) : y.clear.Dates latest {} := by
  refine ⟨Nat.le_refl _, fun _ => ?_, fun k hk => ?_⟩
  · change 1 = y.created - y.created + 1
    rw [Nat.sub_self]
  · cases hk

theorem knows_create (h : y.Knows a) : y.create.Knows a := by
  refine ⟨h.clearings, Nat.le_succ_of_le h.creation, h.earlier, fun heq hs => h.numbered heq ?_⟩
  unfold since create at *
  dsimp only at hs
  omega

theorem knows_clear (h : y.Knows a) : y.clear.Knows a := by
  have hle := h.clearings
  refine ⟨Nat.le_succ_of_le hle, h.creation, fun _ => h.creation, fun heq _ => ?_⟩
  change a.clearings = y.clearings + 1 at heq
  omega

end Tally

end ChatInference
