import ChatInference.Proofs.Json.Singles
import ChatInference.Proofs.Model.Entries

/-!
Negative numbers among the overrides. A number below zero leaves its own parameter as it is. Where a
parameter has two keys, the key is chosen before the number is looked at, so that a number below zero
under the first key also puts aside what the second one says.
-/

namespace ChatInference

namespace Json

/-- Whether a value is a number below zero. -/
def isNegative : Json → Bool
  | int n => n < 0
  | float x => x < 0.0
  | _ => false

theorem isNegative_cases {v : Json} (h : v.isNegative = true) :
    (∃ n < 0, v = int n) ∨ ∃ x < 0.0, v = float x := by
  cases v with
  | int n => exact .inl ⟨n, of_decide_eq_true h, rfl⟩
  | float x => exact .inr ⟨x, of_decide_eq_true h, rfl⟩
  | null | bool | str | arr | obj => cases h

/-- An object without its numbers below zero. -/
def withoutNegatives (members : List (String × Json)) : List (String × Json) :=
  members.filter fun m => !m.2.isNegative

/-- No number below zero is so close to it that its single is zero. -/
def KeepSign (members : List (String × Json)) : Prop :=
  ∀ key x, (key, float x) ∈ members → x < 0.0 → doubleToSingle x < 0.0

namespace Entries

variable {α β : Type} {es : Entries} {kind : Json → Option α} {key first second : String}

/-- Whether a number below zero stands under a key. -/
def negative (es : Entries) (key : String) : Bool := (es key).any isNegative

/-- The entries that are no numbers below zero. -/
def others (es : Entries) : Entries := fun key => (es key).filter fun v => !v.isNegative

theorem exists_of_negative {v : α} (hneg : es.negative key = true)
    (hv : es.value key kind = some v) : ∃ w, es key = some w ∧ w.isNegative = true ∧ kind w = some v := by
  obtain ⟨w, hw, hkind⟩ := exists_of_value hv
  unfold negative at hneg
  rw [hw] at hneg
  exact ⟨w, hw, hneg, hkind⟩

theorem others_value :
    es.others.value key kind = if es.negative key then none else es.value key kind := by
  unfold others negative value
  dsimp only
  cases es key with
  | none => rfl
  | some w =>
    cases hneg : w.isNegative with
    | true => simp [Option.filter, hneg]
    | false => simp [Option.filter, hneg]

/-- Nothing changes for a kind that has no numbers. -/
theorem others_value_of_kind (hint : ∀ n, kind (int n) = none)
    (hfloat : ∀ x, kind (float x) = none) : es.others.value key kind = es.value key kind := by
  rw [others_value]
  split
  case isTrue hneg =>
    symm
    refine Option.eq_none_iff_forall_ne_some.2 fun v hv => ?_
    obtain ⟨w, -, hw, hkind⟩ := exists_of_negative hneg hv
    obtain ⟨n, -, rfl⟩ | ⟨x, -, rfl⟩ := isNegative_cases hw
    · rw [hint] at hkind
      cases hkind
    · rw [hfloat] at hkind
      cases hkind
  case isFalse => rfl

section Bound

variable [LE α]

/-- Numbers below zero are below the bound as well. -/
def Bounded (es : Entries) (kind : Json → Option α) (least : α) : Prop :=
  ∀ key v, es.negative key = true → es.value key kind = some v → ¬least ≤ v

/-- A number below zero stands under the first of two keys, and under the second a value that would be
taken if the first were absent. -/
structure Hides (es : Entries) (kind : Json → Option α) (least : α) (first second : String)
    (v : α) : Prop where
  below : es.negative first = true
  ofKind : (es.value first kind).isSome = true
  other : es.value second kind = some v
  taken : least ≤ v

variable [DecidableLE α] {least : α} (hbound : Bounded es kind least)
include hbound

theorem others_filter : (es.others.value key kind).filter (least ≤ ·) =
    (es.value key kind).filter (least ≤ ·) := by
  rw [others_value]
  split
  case isTrue hneg =>
    cases hv : es.value key kind with
    | none => rfl
    | some v => exact (Option.filter_some_neg (by simpa using hbound key v hneg hv)).symm
  case isFalse => rfl

/-- Two keys of one parameter give the same without the numbers below zero exactly where none of
these hides a value other than the present one. -/
theorem others_two_iff {current : α} :
    ((es.value first kind <|> es.value second kind).filter (least ≤ ·)).getD current =
        ((es.others.value first kind <|> es.others.value second kind).filter (least ≤ ·)).getD current ↔
      ∀ v, es.Hides kind least first second v → current = v := by
  have hsecond : (es.others.value second kind).filter (least ≤ ·) =
      (es.value second kind).filter (least ≤ ·) := others_filter hbound
  have hfirst : es.others.value first kind =
      if es.negative first then none else es.value first kind := others_value
  rw [hfirst]
  cases hneg : es.negative first with
  | false =>
    -- the first key is read as before, and hides nothing
    have hnone : ∀ v, es.Hides kind least first second v → current = v := fun v h =>
      absurd (hneg.symm.trans h.below) Bool.false_ne_true
    refine iff_of_true ?_ hnone
    cases hv : es.value first kind with
    | none => exact congrArg (·.getD current) hsecond.symm
    | some x => rfl
  | true =>
    -- the first key falls silent, and the second is asked instead
    change _ = ((es.others.value second kind).filter (least ≤ ·)).getD current ↔ _
    rw [hsecond]
    cases hv : es.value first kind with
    | none =>
      refine iff_of_true rfl fun v h => ?_
      have hsome := h.ofKind
      rw [hv] at hsome
      cases hsome
    | some x =>
      have hgone : (some x).filter (least ≤ ·) = none :=
        Option.filter_some_neg (by simpa using hbound first x hneg hv)
      change ((some x).filter (least ≤ ·)).getD current = _ ↔ _
      rw [hgone, Option.getD_none]
      constructor
      · intro heq v h
        have hkept : (some v).filter (least ≤ ·) = some v :=
          Option.filter_some_pos (decide_eq_true h.taken)
        rw [h.other, hkept] at heq
        exact heq
      · intro h
        cases hw : (es.value second kind).filter (least ≤ ·) with
        | none => rfl
        | some v =>
          obtain ⟨hother, htaken⟩ := Option.filter_eq_some_iff.1 hw
          exact h v ⟨hneg, by rw [hv]; rfl, hother, of_decide_eq_true htaken⟩

end Bound

end Entries

end Json

namespace Overrides

open Json

variable {members : List (String × Json)}

theorem setFloat_eq (current : Float32) (given : Option Float32) (least : Float32) :
    setFloat current given least = (given.filter (least ≤ ·)).getD current := by
  cases given with
  | none => rfl
  | some v =>
    unfold setFloat
    by_cases h : least ≤ v <;> simp [h, Option.filter]

theorem setInt_eq (current : Int) (given : Option Int) (least : Int) :
    setInt current given least = (given.filter (least ≤ ·)).getD current := by
  cases given with
  | none => rfl
  | some v =>
    unfold setInt
    by_cases h : least ≤ v <;> simp [h, Option.filter]

theorem setSeed_eq (current : Nat) (given : Option Int) :
    setSeed current given = setSeed current (given.filter (0 ≤ ·)) := by
  cases given with
  | none => rfl
  | some v =>
    unfold setSeed
    by_cases h : 0 ≤ v <;> simp [h, Option.filter]

/-- Every number below zero is refused by its parameter. -/
structure Refused (es : Entries) : Prop where
  single : es.Bounded single? 0.0
  topP : es.Bounded (fun v => (single? v).map repairTopP) 0.0
  repeatPenalty : es.Bounded (fun v => (single? v).map repairRepeatPenalty) 0.0
  dryBase : es.Bounded single? 1.0
  int : es.Bounded int32? 0
  positive : es.Bounded int32? 1
  seed : es.Bounded int64? 0

theorem repairTopP_of_negative {p : Float32} (h : p < 0.0) : repairTopP p = p := by
  unfold repairTopP
  rw [if_neg (not_zero_lt_single h)]

theorem repairRepeatPenalty_of_negative {r : Float32} (h : r < 0.0) : repairRepeatPenalty r = r := by
  unfold repairRepeatPenalty
  rw [decide_eq_false (not_zero_lt_single h), Bool.false_and]
  rfl

theorem bounded_intIn {es : Entries} {lo hi least : Int} (hleast : 0 ≤ least) :
    es.Bounded (intIn? lo hi) least := by
  intro key n hneg hn
  obtain ⟨w, -, hbelow, hkind⟩ := Entries.exists_of_negative hneg hn
  obtain ⟨m, hm, rfl⟩ | ⟨x, -, rfl⟩ := isNegative_cases hbelow
  · unfold intIn? at hkind
    obtain ⟨-, heq⟩ := Option.ite_none_right_eq_some.1 hkind
    cases heq
    omega
  · cases hkind

section Singles

variable (hsign : KeepSign members)
include hsign

theorem single_of_negative {key : String} {p : Float32}
    (hneg : Entries.negative (fun key => members.lookup key) key = true)
    (hp : Entries.value (fun key => members.lookup key) key single? = some p) : p < 0.0 := by
  obtain ⟨w, hw, hbelow, hkind⟩ := Entries.exists_of_negative hneg hp
  obtain ⟨n, hn, rfl⟩ | ⟨x, hx, rfl⟩ := isNegative_cases hbelow
  · cases hkind
    exact intToSingle_lt_zero hn
  · cases hkind
    exact hsign key x (mem_of_lookup hw) hx

/-- A repair that leaves numbers below zero alone does not help them over the bound. -/
theorem bounded_repaired {repair : Float32 → Float32} (hrepair : ∀ {p}, p < 0.0 → repair p = p) :
    Entries.Bounded (fun key => members.lookup key) (fun v => (single? v).map repair) 0.0 := by
  intro key q hneg hq
  rw [← Entries.map_value] at hq
  obtain ⟨p, hp, rfl⟩ := Option.map_eq_some_iff.1 hq
  have hbelow := single_of_negative hsign hneg hp
  rw [hrepair hbelow]
  exact not_le_single hbelow (.inl rfl)

theorem refused_of_keepSign : Refused fun key => members.lookup key where
  single _ _ hneg hp := not_le_single (single_of_negative hsign hneg hp) (.inl rfl)
  topP := bounded_repaired hsign repairTopP_of_negative
  repeatPenalty := bounded_repaired hsign repairRepeatPenalty_of_negative
  dryBase _ _ hneg hp := not_le_single (single_of_negative hsign hneg hp) (.inr rfl)
  int := bounded_intIn (by decide)
  positive := bounded_intIn (by decide)
  seed := bounded_intIn (by decide)

end Singles

section Others

variable {es : Entries} (hrefused : Refused es)
include hrefused

theorem setSeed_others (current : Nat) :
    setSeed current (es.others.value "seed" int64?) = setSeed current (es.value "seed" int64?) := by
  rw [setSeed_eq, Entries.others_filter hrefused.seed, ← setSeed_eq]

theorem apply_others_iff (base : ModelConfig) :
    (ofEntries es).repaired.apply base = (ofEntries es.others).repaired.apply base ↔
      (∀ v, es.Hides int32? 1 "max_tokens" "n_predict" v → base.model.predict = v) ∧
      (∀ v, es.Hides single? 0.0 "temp" "temperature" v → base.sampling.temperature = v) ∧
      (∀ v, es.Hides int32? 0 "repeat_last_n" "penalty_last_n" v →
        base.sampling.penaltyLastN = v) ∧
      (∀ v, es.Hides int32? 0 "logprobs" "n_probs" v → base.sampling.probs = v) := by
  have hgrammar : es.others.value "grammar" str? = es.value "grammar" str? :=
    Entries.others_value_of_kind (fun _ => rfl) fun _ => rfl
  have hstop : es.others.value "stop" ModelConfig.listOf? = es.value "stop" ModelConfig.listOf? :=
    Entries.others_value_of_kind (fun _ => rfl) fun _ => rfl
  have hignore : es.others.value "ignore_eos" bool? = es.value "ignore_eos" bool? :=
    Entries.others_value_of_kind (fun _ => rfl) fun _ => rfl
  simp only [apply, applySampling, repaired, ofEntries, ModelConfig.mk.injEq, ModelParams.mk.injEq,
    Sampling.mk.injEq, Stopping.mk.injEq, true_and, and_true, setFloat_eq, setInt_eq,
    Entries.map_value]
  -- the parameters with one key are as they were
  simp only [Entries.others_filter hrefused.single, Entries.others_filter hrefused.topP,
    Entries.others_filter hrefused.repeatPenalty, Entries.others_filter hrefused.dryBase,
    Entries.others_filter hrefused.int, setSeed_others hrefused,
    hgrammar, hstop, hignore, true_and, and_true]
  simp only [Entries.others_two_iff hrefused.single, Entries.others_two_iff hrefused.int,
    Entries.others_two_iff hrefused.positive]

end Others

/-- Let a text be read as an object none of whose numbers below zero is lost in rounding. Without these
numbers the parameters of a turn are the same exactly where none of them stands under the first key of
a parameter and hides what the second key says: the present value is then already the hidden one. -/
theorem negatives_say_nothing_iff {text : Option String} {members : List (String × Json)}
    (hread : (Text.supplied? text).bind Json.read? = some (.obj members))
    (hsign : KeepSign members) (base : ModelConfig) :
    let es : Entries := fun key => members.lookup key
    (parse text).apply base = (ofMembers (withoutNegatives members)).apply base ↔
      (∀ v, es.Hides int32? 1 "max_tokens" "n_predict" v → base.model.predict = v) ∧
      (∀ v, es.Hides single? 0.0 "temp" "temperature" v → base.sampling.temperature = v) ∧
      (∀ v, es.Hides int32? 0 "repeat_last_n" "penalty_last_n" v →
        base.sampling.penaltyLastN = v) ∧
      (∀ v, es.Hides int32? 0 "logprobs" "n_probs" v → base.sampling.probs = v) := by
  intro es
  have hkeys := nodup_of_supplied hread
  have hless : ((withoutNegatives members).map (·.1)).Nodup :=
    (List.filter_sublist.map _).nodup hkeys
  have hothers : (fun key => (withoutNegatives members).lookup key) = es.others :=
    funext (lookup_filter hkeys _)
  rw [parse_of_read hread, ofMembers_eq hkeys, ofMembers_eq hless, hothers]
  exact apply_others_iff (refused_of_keepSign hsign) base

/-- Two numbers below zero, and no value under the other key of either. -/
theorem negatives_say_nothing_iff_three :
    (parse (some "\x7b\"temp\":-0.5,\"top_k\":-3,\"n_predict\":10\x7d")).apply .initial =
      (ofMembers [("n_predict", .int 10)]).apply .initial := by
  have hread : (Text.supplied? (some
      "\x7b\"temp\":-0.5,\"top_k\":-3,\"n_predict\":10\x7d")).bind Json.read? =
        some (.obj [("temp", .float (-0.5)), ("top_k", .int (-3)), ("n_predict", .int 10)]) := rfl
  have hsign : KeepSign [("temp", .float (-0.5)), ("top_k", .int (-3)), ("n_predict", .int 10)] := by
    intro key x hmem hx
    simp only [List.mem_cons, Prod.mk.injEq, reduceCtorEq, and_false, or_false,
      float.injEq, List.not_mem_nil] at hmem
    rw [hmem.2]
    decide
  refine (negatives_say_nothing_iff hread hsign .initial).2 ⟨?_, ?_, ?_, ?_⟩
  all_goals
    intro v h
    cases h.below <;> cases h.other

/-- The first key says nothing, and the second is not asked. -/
theorem negative_hides_other_key :
    let text := some "\x7b\"max_tokens\":-1,\"n_predict\":10\x7d"
    let members := [("max_tokens", Json.int (-1)), ("n_predict", .int 10)]
    (Text.supplied? text).bind Json.read? = some (.obj members) ∧
      ((parse text).apply .initial).model.predict = 512 ∧
      ((ofMembers (withoutNegatives members)).apply .initial).model.predict = 10 :=
  ⟨rfl, rfl, rfl⟩

-- A number that a single rounds to minus zero is not below the bound, and is taken.
example : (-1e-50 : Float) < 0.0 ∧
    ((ofMembers [("temperature", .float (-1e-50))]).apply .initial).sampling.temperature = -0.0 :=
  ⟨by decide, rfl⟩

end Overrides

end ChatInference
