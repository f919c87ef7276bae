import ChatInference.Proofs.Session.Numbering
import ChatInference.Proofs.Session.Overlap

/-!
In which order sessions have to go. Those idle for too long go first, and after them at most one more, where
a creation finds the table full without it; both by the time of their last activity, and by their ids
where that is the same. No two open sessions have one id, so this order leaves no choice, and the sessions may
be read from the table in any order.
-/

namespace ChatInference

/-- Used longer ago, or as long ago under a smaller id. -/
def Session.Older (a b : Session) : Prop :=
  a.lastActivity < b.lastActivity ∨ a.lastActivity = b.lastActivity ∧ a.id < b.id

instance (a b : Session) : Decidable (a.Older b) := inferInstanceAs (Decidable (_ ∨ _))

theorem Session.Older.asymm {a b : Session} (h : a.Older b) : ¬b.Older a := by
  unfold Session.Older SessionId at *
  omega

namespace SessionTable

/-- The sessions that `q` is true of, each once, the oldest first. -/
structure ByAge (q : Session → Prop) (ss : List Session) : Prop where
  ordered : ss.Pairwise Session.Older
  mem : ∀ s, s ∈ ss ↔ q s

variable {p : SessionPolicy} {t t' : SessionTable} {now : Nat}

/-- Sessions with different ids, put in order. -/
theorem exists_ordered {ss : List Session} (hids : (ss.map (·.id)).Nodup) :
    ∃ sorted : List Session, sorted.Perm ss ∧ sorted.Pairwise Session.Older ∧
      oldestFirst ss = sorted.map (·.id) := by
  let le (a b : Session) : Bool :=
    a.lastActivity < b.lastActivity || (a.lastActivity == b.lastActivity && a.id ≤ b.id)
  have hle (a b : Session) : le a b = true ↔
      a.lastActivity < b.lastActivity ∨
        a.lastActivity = b.lastActivity ∧ a.id ≤ b.id := by
    simp [le]
  have hperm : (ss.mergeSort le).Perm ss := List.mergeSort_perm ss le
  have hpairs : (ss.mergeSort le).Pairwise fun a b => le a b = true := by
    apply List.pairwise_mergeSort
    · intro a b c hab hbc
      rw [hle] at *
      unfold SessionId at *
      omega
    · intro a b
      rw [Bool.or_eq_true, hle, hle]
      unfold SessionId
      omega
  have hdiffer : (ss.mergeSort le).Pairwise fun a b => a.id ≠ b.id :=
    List.pairwise_map.1 ((hperm.map _).nodup_iff.2 hids)
  refine ⟨ss.mergeSort le, hperm, ?_, rfl⟩
  -- of two with one time, the ids are not the same
  apply (hpairs.and hdiffer).imp
  rintro a b ⟨hab, hne⟩
  rw [hle] at hab
  unfold Session.Older SessionId at *
  omega

/-- There is one order only. -/
theorem oldestFirst_eq {ss sorted : List Session} (hids : (ss.map (·.id)).Nodup)
    (hperm : sorted.Perm ss) (hordered : sorted.Pairwise Session.Older) :
    oldestFirst ss = sorted.map (·.id) := by
  obtain ⟨sorted', hperm', hordered', holdest⟩ := exists_ordered hids
  have heq : sorted' = sorted := by
    apply List.Perm.eq_of_pairwise _ hordered' hordered (hperm'.trans hperm.symm)
    intro a b _ _ hab hba
    exact absurd hba hab.asymm
  rw [holdest, heq]

/-- The order does not depend on how the sessions were read. -/
theorem oldestFirst_congr {ss ss' : List Session} (hids : (ss.map (·.id)).Nodup)
    (hperm : ss'.Perm ss) : oldestFirst ss' = oldestFirst ss := by
  obtain ⟨sorted, hsorted, hordered, holdest⟩ := exists_ordered hids
  rw [holdest]
  exact oldestFirst_eq ((hperm.map _).nodup_iff.2 hids) (hsorted.trans hperm.symm) hordered

/-- The first in order is older than any other. -/
theorem older_of_head {ss : List Session} {s s' : Session} (hordered : (s :: ss).Pairwise Session.Older)
    (hs' : s' ∈ s :: ss) (hne : s' ≠ s) : s.Older s' := by
  rcases List.mem_cons.1 hs' with heq | hrest
  · exact absurd heq hne
  · exact (List.pairwise_cons.1 hordered).1 s' hrest

theorem values_ids_nodup (h : t.Sound) : (t.sessions.values.map (·.id)).Nodup := by
  rw [values_map_id h]
  exact t.sessions.keys_nodup

theorem ids_nodup_of_sublist (h : t.Sound) {ss : List Session} (hs : ss.Sublist t.sessions.values) :
    (ss.map (·.id)).Nodup :=
  (values_ids_nodup h).sublist (hs.map _)

/-- Open, without a running turn, and idle for too long. -/
def Overdue (t : SessionTable) (p : SessionPolicy) (now : Nat) (s : Session) : Prop :=
  t.sessions.get? s.id = some s ∧ s.state = .ready ∧ p.idleTimeoutMs < s.idleFor now

/-- Open, without a running turn, and not idle for too long. -/
def Spare (t : SessionTable) (p : SessionPolicy) (now : Nat) (s : Session) : Prop :=
  t.sessions.get? s.id = some s ∧ s.state = .ready ∧ s.idleFor now ≤ p.idleTimeoutMs

/-- The idle sweep of sessions, in whatever order they are read. -/
def idleAmong (p : SessionPolicy) (now : Nat) (ss : List Session) : List SessionId :=
  oldestFirst ((ss.filter (·.state = .ready)).filter fun s => p.idleTimeoutMs < s.idleFor now)

/-- Who of the sessions has to go for one more, in whatever order they are read. -/
def roomAmong (p : SessionPolicy) (ss : List Session) : List SessionId :=
  if p.maxSessions ≤ ss.length then
    (oldestFirst (ss.filter (·.state = .ready))).take (ss.length - p.maxSessions + 1)
  else []

/-- The sweep takes the overdue sessions, in order. -/
theorem evictIdle_byAge (h : t.Sound) (hauto : p.autoCleanup = true) (now : Nat) :
    ∃ overdue, ByAge (t.Overdue p now) overdue ∧ (t.evictIdle p now).1 = overdue.map (·.id) := by
  have hsub : (t.idlers.filter fun s => p.idleTimeoutMs < s.idleFor now).Sublist t.sessions.values :=
    List.filter_sublist.trans List.filter_sublist
  obtain ⟨overdue, hperm, hordered, holdest⟩ := exists_ordered (ids_nodup_of_sublist h hsub)
  refine ⟨overdue, ⟨hordered, ?_⟩, ?_⟩
  · intro s
    rw [hperm.mem_iff, List.mem_filter, mem_idlers h, decide_eq_true_eq, and_assoc]
    exact Iff.rfl
  · unfold evictIdle
    rw [if_pos hauto]
    exact holdest

/-- A table within its limits that is full after the sweep was full before it, and nobody was overdue; one
session that goes is enough. -/
theorem evictOldest_byAge (h : WithinLimits p t) (hauto : p.autoCleanup = true)
    (hfull : p.maxSessions ≤ (t.evictIdle p now).2.size) :
    (t.evictIdle p now).1 = [] ∧
      ∃ spare, ByAge (t.Spare p now) spare ∧
        ((t.evictIdle p now).2.evictOldest p).1 = (spare.take 1).map (·.id) := by
  have hswept := evicted_evictIdle h.sound p now
  have hsize := hswept.size
  have hle := h.size
  have hnone : (t.evictIdle p now).1 = [] := List.eq_nil_of_length_eq_zero (by omega)
  have hsame : (t.evictIdle p now).2 = t := hswept.nothing hnone
  refine ⟨hnone, ?_⟩
  rw [hsame] at hfull ⊢
  have hsub : t.idlers.Sublist t.sessions.values := List.filter_sublist
  obtain ⟨spare, hperm, hordered, holdest⟩ := exists_ordered (ids_nodup_of_sublist h.sound hsub)
  refine ⟨spare, ⟨hordered, ?_⟩, ?_⟩
  · intro s
    rw [hperm.mem_iff, mem_idlers h.sound]
    constructor
    · rintro ⟨hs, hready⟩
      refine ⟨hs, hready, Nat.le_of_not_lt fun hidle => ?_⟩
      -- the sweep would have taken it
      have hgone := (mem_evictIdle h.sound).2 ⟨hauto, s, hs, hready, hidle⟩
      rw [hnone] at hgone
      cases hgone
    · rintro ⟨hs, hready, -⟩
      exact ⟨hs, hready⟩
  · have hone : t.size - p.maxSessions + 1 = 1 := by omega
    have hmany : (p.autoCleanup && p.maxSessions ≤ t.size) = true := by
      rw [hauto, Bool.true_and, decide_eq_true_eq]
      exact hfull
    unfold evictOldest
    rw [if_pos hmany]
    calc (oldestFirst t.idlers).take (t.size - p.maxSessions + 1)
        = (spare.map (·.id)).take 1 := by rw [hone, holdest]
      _ = (spare.take 1).map (·.id) := by rw [List.map_take]

/-- Where there is room after the sweep, nobody else has to go. -/
theorem evictOldest_spared (hroom : t.size < p.maxSessions) : (t.evictOldest p).1 = [] := by
  have hfew : ¬(p.autoCleanup && p.maxSessions ≤ t.size) = true := by
    rw [Bool.and_eq_true, decide_eq_true_eq]
    omega
  unfold evictOldest
  rw [if_neg hfew]

/-- Read in any order, the same sessions go. -/
theorem evictedFor_eq_among (h : t.Sound) (hauto : p.autoCleanup = true) {first second : List Session}
    (hfirst : first.Perm t.sessions.values)
    (hsecond : second.Perm (t.evictIdle p now).2.sessions.values) :
    t.evictedFor p now = idleAmong p now first ++ roomAmong p second := by
  have hswept : (t.evictIdle p now).2.Sound := (evicted_evictIdle h p now).sound
  have hidle : (t.evictIdle p now).1 = idleAmong p now first := by
    have hids := ids_nodup_of_sublist h
      ((List.filter_sublist (p := fun s => p.idleTimeoutMs < s.idleFor now)).trans
        (List.filter_sublist : t.idlers.Sublist _))
    calc (t.evictIdle p now).1
        = oldestFirst (t.idlers.filter fun s => p.idleTimeoutMs < s.idleFor now) := by
          unfold evictIdle
          rw [if_pos hauto]
      _ = idleAmong p now first :=
          (oldestFirst_congr hids ((hfirst.filter _).filter _)).symm
  have hroom : ((t.evictIdle p now).2.evictOldest p).1 = roomAmong p second := by
    have hids := ids_nodup_of_sublist hswept
      (List.filter_sublist : (t.evictIdle p now).2.idlers.Sublist _)
    have hlength : second.length = (t.evictIdle p now).2.size := by
      rw [hsecond.length_eq]
      exact List.length_map _
    unfold evictOldest roomAmong
    rw [hauto, Bool.true_and, hlength, oldestFirst_congr hids (hsecond.filter _)]
    by_cases hfull : p.maxSessions ≤ (t.evictIdle p now).2.size
    · rw [if_pos hfull, if_pos (decide_eq_true hfull)]
      rfl
    · rw [if_neg hfull, if_neg (by rwa [decide_eq_true_eq])]
  unfold evictedFor
  rw [hidle, hroom]

/-- A creation that succeeds has evicted the overdue, and one more where the table was full without
them. -/
theorem evictedFor_byAge (h : WithinLimits p t) (hauto : p.autoCleanup = true)
    (hroom : (t.searched p now).size < p.maxSessions) :
    ∃ overdue room, ByAge (t.Overdue p now) overdue ∧
      t.evictedFor p now = (overdue ++ room).map (·.id) ∧
      (t.size < p.maxSessions + overdue.length → room = []) ∧
      (p.maxSessions + overdue.length ≤ t.size → ∃ s, room = [s] ∧ t.Spare p now s ∧
        ∀ s', t.Spare p now s' → s' ≠ s → s.Older s') := by
  obtain ⟨overdue, hoverdue, hidle⟩ := evictIdle_byAge h.sound hauto now
  have hsize := (evicted_evictIdle h.sound p now).size
  have hsearched := size_searched h.sound p now
  rw [hidle, List.length_map] at hsize
  rw [List.length_append, hidle, List.length_map] at hsearched
  by_cases hfull : p.maxSessions ≤ (t.evictIdle p now).2.size
  · obtain ⟨-, spare, hspare, hold⟩ := evictOldest_byAge h hauto hfull
    -- the creation found room, so there was somebody to send away
    cases spare with
    | nil =>
      rw [hold] at hsearched
      change _ + (_ + 0) = _ at hsearched
      omega
    | cons s rest =>
      refine ⟨overdue, [s], hoverdue, ?_, fun hfew => by omega, fun _ => ⟨s, rfl, ?_, ?_⟩⟩
      · unfold evictedFor
        rw [hidle, hold, List.map_append]
        rfl
      · exact (hspare.mem s).1 List.mem_cons_self
      · intro s' hs' hne
        exact older_of_head hspare.ordered ((hspare.mem s').2 hs') hne
  · refine ⟨overdue, [], hoverdue, ?_, fun _ => rfl, fun hmany => by omega⟩
    unfold evictedFor
    rw [hidle, evictOldest_spared (Nat.lt_of_not_le hfull), List.append_nil, List.append_nil]

theorem get?_insert (t : SessionTable) (now : Nat) (requested : Option SessionId) (k : SessionId) :
    (t.insert now requested).2.sessions.get? k =
      if k = (t.insert now requested).1 then
        some { id := (t.insert now requested).1, createdAt := now, lastActivity := now }
      else t.sessions.get? k :=
  Keyed.get?_set t.sessions _ _ k

/-- What a creation that succeeds comes to. -/
theorem create_succeeds {requested : Option SessionId} {c : Created}
    (hc : t.create p now requested = (.ok c, t')) :
    (¬∃ id, requested = some id ∧ t.contains id = true) ∧
      (t.searched p now).size < p.maxSessions ∧
      c = ⟨((t.searched p now).insert now requested).1, t.evictedFor p now⟩ ∧
      t' = ((t.searched p now).insert now requested).2 := by
  rcases t.create_cases p now requested with ⟨-, e, he⟩ | ⟨hfree, ⟨-, e, he⟩ | ⟨hroom, hok⟩⟩
  · rw [he] at hc
    cases hc
  · rw [he] at hc
    cases hc
  · rw [hok] at hc
    obtain ⟨hcreated, htable⟩ := Prod.mk.inj hc
    exact ⟨hfree, hroom, (Except.ok.inj hcreated).symm, htable.symm⟩

/-- Who is not evicted is left in the table that the creation searches. -/
theorem contains_searched {id : SessionId} (hin : t.contains id = true)
    (hid : id ∉ t.evictedFor p now) : (t.searched p now).contains id = true := by
  unfold contains Keyed.contains at *
  rw [searched_eq, get?_removeAll, if_neg hid]
  exact hin

/-- A new session takes nobody's place. -/
theorem contains_insert_fst (h : t.Sound) (now : Nat) {requested : Option SessionId}
    (hrequested : ∀ id, requested = some id → t.contains id = false)
    (hnone : requested = none → ∃ id, InRange id ∧ t.contains id = false) :
    t.contains (t.insert now requested).1 = false := by
  cases requested with
  | none => exact searchId_free h.next (hnone rfl)
  | some id => exact hrequested id rfl

/-- The tables that calls come to, and changes of one session in between. -/
inductive Reached (p : SessionPolicy) : SessionTable → Prop where
  | empty : Reached p {}
  | call {t : SessionTable} (h : Reached p t) (c : Call) : Reached p (t.after p c)
  | touch {t t' : SessionTable} {id : SessionId} {now : Nat} (h : Reached p t)
      (ht : t.touch id now = .ok t') : Reached p t'
  | append {t t' : SessionTable} {id : SessionId} {now : Nat} {m : Message} (h : Reached p t)
      (ht : t.append id now m = .ok t') : Reached p t'
  | setPast {t t' : SessionTable} {id : SessionId} {nPast : Nat} (h : Reached p t)
      (ht : t.setPast id nPast = .ok t') : Reached p t'

theorem Reached.withinLimits (h : Reached p t) : WithinLimits p t := by
  -- over the calls; a change of one session keeps its id
  induction h with
  | empty => exact withinLimits_empty p
  | call _ c ih => exact withinLimits_after ih c
  | touch _ ht ih =>
    unfold SessionTable.touch at ht
    exact ih.of_sameIds (sameIds_update (by intro s; rfl) ht)
  | append _ ht ih =>
    unfold SessionTable.append at ht
    exact ih.of_sameIds (sameIds_update (by intro s; rfl) ht)
  | setPast _ ht ih =>
    unfold SessionTable.setPast at ht
    exact ih.of_sameIds (sameIds_update (by intro s; rfl) ht)

theorem Reached.afterAll (h : Reached p t) (calls : List Call) : Reached p (t.afterAll p calls) := by
  induction calls generalizing t with
  | nil => exact h
  | cons c calls ih => exact ih (h.call c)

/-- With evictions off nobody is ever evicted. With evictions on, a creation that succeeds reports the
overdue sessions, by age, and after them, only where the table would be full without them, the one that is
older than every other session that is ready; in whatever order the sessions are read. It never evicts one
with a running turn. The new session is in the table, in nobody's place, those evicted are not, and every
other one is as it was. -/
theorem creation_evicts_by_age (h : Reached p t) :
    (p.autoCleanup = false → ∀ call, evictedBy p t call = []) ∧
    ∀ now requested c t', t.create p now requested = (.ok c, t') →
      (p.autoCleanup = true →
        (∃ overdue room, ByAge (t.Overdue p now) overdue ∧
          c.evicted = (overdue ++ room).map (·.id) ∧
          (t.size < p.maxSessions + overdue.length → room = []) ∧
          (p.maxSessions + overdue.length ≤ t.size → ∃ s, room = [s] ∧ t.Spare p now s ∧
            ∀ s', t.Spare p now s' → s' ≠ s → s.Older s')) ∧
        ∀ first second, first.Perm t.sessions.values →
          second.Perm (t.evictIdle p now).2.sessions.values →
          c.evicted = idleAmong p now first ++ roomAmong p second) ∧
      (∀ id s, t.sessions.get? id = some s → s.state = .running → id ∉ c.evicted) ∧
      (∀ id, requested = some id → c.id = id) ∧
      ((requested = none → t.SearchEnds p now) → t.contains c.id = true → c.id ∈ c.evicted) ∧
      ∀ id, t'.sessions.get? id =
        if id = c.id then some { id := c.id, createdAt := now, lastActivity := now }
        else if id ∈ c.evicted then none else t.sessions.get? id := by
  have hlimits := h.withinLimits
  refine ⟨fun hoff call => ?_, fun now requested c t' hc => ?_⟩
  · apply List.eq_nil_iff_forall_not_mem.2
    intro id hid
    obtain ⟨hauto, -⟩ := ready_of_mem_evictedBy hlimits.sound hid
    rw [hoff] at hauto
    cases hauto
  obtain ⟨hunused, hroom, rfl, rfl⟩ := create_succeeds hc
  refine ⟨fun hauto => ⟨evictedFor_byAge hlimits hauto hroom, ?_⟩, ?_, ?_, ?_, ?_⟩
  · intro first second hfirst hsecond
    exact evictedFor_eq_among hlimits.sound hauto hfirst hsecond
  · intro id s hs hrunning hid
    obtain ⟨-, s', hs', hready⟩ := ready_of_mem_evictedFor hlimits.sound hid
    obtain rfl : s = s' := Option.some.inj (hs.symm.trans hs')
    exact absurd (hrunning.symm.trans hready) (by decide)
  · rintro id rfl
    rfl
  · intro hends hin
    have hrequested : ∀ id, requested = some id → (t.searched p now).contains id = false := by
      intro id hid
      apply Bool.eq_false_iff.2
      intro hused
      exact hunused ⟨id, hid, (within_searched t p now).used id hused⟩
    have hnone : requested = none →
        ∃ id, InRange id ∧ (t.searched p now).contains id = false :=
      fun hnone => (hends hnone).resolve_left (Nat.not_le_of_lt hroom)
    -- an id that was asked for, and one that the search found, are not in use
    have hnew := contains_insert_fst (hlimits.searched now).sound now hrequested hnone
    by_contra hkept
    exact Bool.false_ne_true (hnew.symm.trans (contains_searched hin hkept))
  · intro id
    rw [get?_insert, searched_eq, get?_removeAll]

/-- Two sessions of one age in a full table: the one with the smaller id goes, though the table be read from
its end. -/
theorem creation_evicts_by_age_tied :
    let p : SessionPolicy := ⟨3, 1000, true⟩
    let t := afterAll p {} [.create 0 none, .create 0 none, .create 500 none]
    Reached p t ∧ ∃ c t', t.create p 900 none = (.ok c, t') ∧ c.evicted = [1] := by
  intro p t
  have hreached : Reached p t :=
    Reached.empty.afterAll [.create 0 none, .create 0 none, .create 500 none]
  have hfull : t.size = p.maxSessions := by decide +kernel
  have hroom : (t.searched p 900).size < p.maxSessions := by
    apply Nat.lt_of_not_le
    intro hnone
    -- the session with the first id may be evicted
    obtain ⟨-, hnil⟩ := (searched_full_iff hreached.withinLimits 900).1 hnone
    rcases (evictedFor_eq_nil_iff hreached.withinLimits hfull 900).1 hnil with hoff | hrunning
    · cases hoff
    · cases hrunning 1 ⟨1, .ready, [], 0, 0, 0, 0⟩ (by decide +kernel)
  rcases t.create_cases p 900 none with ⟨⟨id, hid, -⟩, -⟩ | ⟨-, ⟨hnone, -⟩ | ⟨-, hok⟩⟩
  · cases hid
  · omega
  refine ⟨hreached, _, _, hok, ?_⟩
  obtain ⟨hauto, -⟩ := (creation_evicts_by_age hreached).2 900 none _ _ hok
  have hswept : (t.evictIdle p 900).2.sessions.values = t.sessions.values := by decide +kernel
  have hread := (hauto rfl).2 t.sessions.values t.sessions.values.reverse (List.Perm.refl _)
    (by rw [hswept]; exact List.reverse_perm _)
  have hready : (t.sessions.values.reverse.filter (·.state = .ready)) = t.sessions.values.reverse := by
    decide +kernel
  have hids : (t.sessions.values.reverse.map (·.id)).Nodup := by decide +kernel
  have hordered : t.sessions.values.Pairwise Session.Older := by decide +kernel
  rw [hread]
  unfold roomAmong
  rw [hready, oldestFirst_eq hids (List.reverse_perm _).symm hordered]
  decide +kernel

end SessionTable

end ChatInference
