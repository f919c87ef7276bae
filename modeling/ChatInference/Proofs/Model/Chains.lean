import ChatInference.Proofs.Model.Acceptance
import Mathlib.Data.List.Induction

/-!
Texts merged one after the other. All that counts of them is what was given last for each parameter:
laid over the defaults and resolved once, it gives the same as the texts in turn. Hence a chain of
texts leads to no parameter that one text could not give, and a window follows the context exactly
where it was last given as automatic, or never.
-/

namespace ChatInference.ModelConfig

open Json

/-- The parameters as they stand before any text, and before they are resolved. -/
def defaults : ModelConfig := ⟨{}, {}, {}, {}⟩

/-- What some texts gave each parameter last. Texts that are refused give nothing. -/
def lastGiven (texts : List (Option String)) : Settings :=
  ⟨fun p => (texts.filterMap fun text => (given text).value p).getLast?⟩

theorem lastGiven_concat (texts : List (Option String)) (text : Option String) :
    lastGiven (texts ++ [text]) = (given text).orElse (lastGiven texts) := by
  refine congrArg Settings.mk ?_
  funext α p
  rw [List.filterMap_append, List.getLast?_append]
  unfold lastGiven
  cases h : (given text).value p with
  | none => simp [h]
  | some v => simp [h]

theorem given_pinning (text : Option String) : (given text).Pinning := by
  unfold given
  cases document? text with
  | some root => exact settings_pinning root
  | none => exact fun w h => by cases h

/-- A chain of texts is one text that gives what they gave last. -/
theorem merges_eq (texts : List (Option String)) :
    texts.foldl mergeOrKeep initial = (defaults.set (lastGiven texts)).resolve := by
  -- the last text is laid over a configuration that is resolved, which may as well be done after it
  induction texts using List.reverseRecOn with
  | nil =>
    have hnone : lastGiven [] = .none := rfl
    rw [hnone, set_none]
    rfl
  | append_singleton texts text ih =>
    calc (texts ++ [text]).foldl mergeOrKeep initial
        = (texts.foldl mergeOrKeep initial).mergeOrKeep text := by rw [List.foldl_concat]
      _ = ((texts.foldl mergeOrKeep initial).set (given text)).resolve :=
          mergeOrKeep_of_resolved (merges_resolved texts) text
      _ = ((defaults.set (lastGiven texts)).set (given text)).resolve := by
          rw [ih, resolve_set_resolve (given_pinning text)]
      _ = (defaults.set (lastGiven (texts ++ [text]))).resolve := by
          rw [set_set, lastGiven_concat]

/-! What a text can give. -/

section Given

variable {α : Type} {p : Parameter α} {text : Option String} {v : α}

theorem document?_of_given (h : (given text).value p = some v) :
    ∃ root, document? text = some root ∧ root.settings.value p = some v := by
  unfold given at h
  cases hroot : document? text with
  | none => rw [hroot] at h; cases h
  | some root => rw [hroot] at h; exact ⟨root, rfl, h⟩

/-- A value that is given was read under one of the spellings. -/
theorem exists_spelling_of_given (h : (given text).value p = some v) :
    ∃ s ∈ p.spellings, ∃ w, s.kind w = some v := by
  obtain ⟨root, -, hv⟩ := document?_of_given h
  obtain ⟨s, hs, hsv⟩ := List.exists_of_findSome?_eq_some hv
  obtain ⟨w, -, hw⟩ := Entries.exists_of_value hsv
  exact ⟨s, hs, w, hw⟩

/-- What holds of the default of a parameter, and of every value that a text can give it, holds after
every chain of texts. -/
theorem merges_get_of {P : α → Prop} (hp : p.isResolved = false) (hdefault : P (defaults.get p))
    (hgiven : ∀ text v, (given text).value p = some v → P v) (texts : List (Option String)) :
    P ((texts.foldl mergeOrKeep initial).get p) := by
  rw [merges_eq, get_resolve hp, get_set]
  cases hlast : (lastGiven texts).value p with
  | none => exact hdefault
  | some v =>
    obtain ⟨text, -, hv⟩ := List.mem_filterMap.1 (List.mem_of_getLast? hlast)
    exact hgiven text v hv

end Given

theorem sizeIn_mem {lo hi default n : Nat} (hlo : lo ≤ default) (hhi : default ≤ hi) {v : Json}
    (h : sizeIn lo hi default v = some n) : lo ≤ n ∧ n ≤ hi := by
  obtain ⟨m, -, rfl⟩ := Option.map_eq_some_iff.1 h
  exact Config.natIn_mem hlo hhi (some m)

theorem empty_not_mem_of_listOf? {v : Json} {texts : List String} (h : listOf? v = some texts) :
    "" ∉ texts := by
  obtain ⟨items, -, rfl⟩ := Option.map_eq_some_iff.1 h
  intro hmem
  obtain ⟨item, -, hitem⟩ := List.mem_filterMap.1 hmem
  split at hitem
  · split at hitem
    · cases hitem
    case isFalse hne =>
      cases hitem
      exact hne rfl
  · cases hitem

/-- The entries of a document that is accepted passed their checks. -/
theorem sound_of_document? {text : Option String} {root : Json} (h : document? text = some root) :
    (GivenSampling.ofEntries (Place.sampling.entries root)).Sound :=
  (Given.read_eq_ok (read_of_document? h).2).2.2

theorem breakers_of_given {text : Option String} {breakers : List String}
    (h : (given text).value .dryBreakers = some breakers) : breakers ≠ [] := by
  obtain ⟨root, hroot, hv⟩ := document?_of_given h
  have hsettings : root.settings.value .dryBreakers =
      (GivenSampling.ofEntries (Place.sampling.entries root)).dryBreakers := by
    simp [Json.settings, Parameter.spellings, findSome?_cons_eq_or, Spelling.value,
      GivenSampling.ofEntries]
  rintro rfl
  exact (sound_of_document? hroot).breakers (hsettings.symm.trans hv)

/-- Sizes, lists and the base of repetition as an engine takes them. -/
structure Valid (c : ModelConfig) : Prop where
  threads : 1 ≤ c.model.threads ∧ c.model.threads ≤ 1024
  batchSize : 1 ≤ c.model.batchSize
  breakers : c.sampling.dryBreakers ≠ []
  breakerTexts : "" ∉ c.sampling.dryBreakers
  stopTexts : "" ∉ c.stopping.stop
  dryBase : ¬c.sampling.dryBase < 1.0

theorem valid_merges (texts : List (Option String)) : Valid (texts.foldl mergeOrKeep initial) where
  threads := by
    refine merges_get_of (p := .threads) (P := fun n => 1 ≤ n ∧ n ≤ 1024) rfl (by decide) ?_ texts
    intro text n hn
    obtain ⟨s, hs, v, hv⟩ := exists_spelling_of_given hn
    cases List.mem_singleton.1 hs
    exact sizeIn_mem (by decide) (by decide) hv
  batchSize := by
    refine merges_get_of (p := .batchSize) (P := fun n => 1 ≤ n) rfl (by decide) ?_ texts
    intro text n hn
    obtain ⟨s, hs, v, hv⟩ := exists_spelling_of_given hn
    obtain ⟨key, -, rfl⟩ := List.mem_map.1 hs
    exact (sizeIn_mem (by decide) (by decide) hv).1
  breakers := by
    refine merges_get_of (p := .dryBreakers) (P := fun ts => ts ≠ []) rfl nofun ?_ texts
    exact fun text breakers => breakers_of_given
  breakerTexts := by
    refine merges_get_of (p := .dryBreakers) (P := fun ts => "" ∉ ts) rfl (by decide) ?_ texts
    intro text breakers hbreakers
    obtain ⟨s, hs, v, hv⟩ := exists_spelling_of_given hbreakers
    cases List.mem_singleton.1 hs
    exact empty_not_mem_of_listOf? hv
  stopTexts := by
    refine merges_get_of (p := .stop) (P := fun ts => "" ∉ ts) rfl nofun ?_ texts
    intro text stop hstop
    obtain ⟨s, hs, v, hv⟩ := exists_spelling_of_given hstop
    cases List.mem_singleton.1 hs
    exact empty_not_mem_of_listOf? hv
  dryBase := by
    rw [merges_eq]
    exact repairDryBase_not_lt _

/-! Windows. -/

/-- The length that some texts gave a window last, as it stands there. -/
def lastWindow (texts : List (Option String)) (w : Window) : Option Int :=
  (texts.filterMap fun text => (document? text).bind w.given).getLast?

theorem le_of_lastWindow {texts : List (Option String)} {w : Window} {n : Int}
    (h : lastWindow texts w = some n) : -1 ≤ n := by
  obtain ⟨text, -, htext⟩ := List.mem_filterMap.1 (List.mem_of_getLast? h)
  obtain ⟨root, hroot, hn⟩ := Option.bind_eq_some_iff.1 htext
  have hsound := sound_of_document? hroot
  cases w with
  | penalty =>
    refine hsound.penalty n (Eq.trans ?_ hn)
    simp [GivenSampling.ofEntries, Window.given, Window.keys, findSome?_cons_eq_or]
  | dryPenalty =>
    refine hsound.dryPenalty n (Eq.trans ?_ hn)
    simp [GivenSampling.ofEntries, Window.given, Window.keys, findSome?_cons_eq_or]

/-- What is given last is what was made of the length that was given last. -/
theorem getLast?_given {α : Type} {p : Parameter α} {w : Window} {use : Int → α}
    (huse : ∀ root : Json, root.settings.value p = (w.given root).map use)
    (texts : List (Option String)) :
    (lastGiven texts).value p = (lastWindow texts w).map use := by
  unfold lastGiven lastWindow
  dsimp only
  rw [← List.getLast?_map, List.map_filterMap]
  refine congrArg (fun f => (texts.filterMap f).getLast?) (funext fun text => ?_)
  unfold given
  cases document? text with
  | none => rfl
  | some root => exact huse root

/-- Let texts be merged one after the other, those that are refused left out. The configuration is
valid. A window that was last given a length keeps it, and one that was last given as `-1`, or never,
is as long as the context, and goes on without end while the context is unknown. -/
theorem merges_are_valid (texts : List (Option String)) :
    let c := texts.foldl mergeOrKeep initial
    let context : Int := if c.model.ctxSize = 0 then -1 else (min c.model.ctxSize 0x7fffffff : Nat)
    Valid c ∧ ∀ w : Window, match lastWindow texts w with
      | some n => -1 ≤ n ∧ c.get (.window w) = if n = -1 then context else min n 0x7fffffff
      | none => c.get (.window w) = context := by
  intro c context
  have hc : c = (defaults.set (lastGiven texts)).resolve := merges_eq texts
  refine ⟨valid_merges texts, fun w => ?_⟩
  have hcontext : (defaults.set (lastGiven texts)).model.window = context := by
    -- resolving leaves the size of the context as it is
    change _ = c.model.window
    rw [hc]
    rfl
  have hwindow : c.get (.window w) =
      if ((lastWindow texts w).map (· == -1)).getD true then context
      else ((lastWindow texts w).map clipWindow).getD (defaults.get (.window w)) := by
    rw [hc, get_resolve_window, get_set, get_set, hcontext,
      getLast?_given (settings_automatic w), getLast?_given (settings_window w)]
    cases w <;> rfl
  cases hn : lastWindow texts w with
  | none =>
    rw [hwindow, hn]
    rfl
  | some n =>
    refine ⟨le_of_lastWindow hn, ?_⟩
    rw [hwindow, hn]
    by_cases h : n = -1
    · simp [h]
    · simp [h, clipWindow, ModelParams.maxWindow]

-- The second text is refused, and the third gives a context that the first window does not follow.
example :
    let texts := [some "\x7b\"sampling\":\x7b\"penalty_last_n\":64\x7d\x7d",
      some "\x7b\"sampling\":\x7b\"dry_penalty_last_n\":32,\"penalty_last_n\":-5\x7d\x7d",
      some "\x7b\"ctx_size\":8192\x7d"]
    let c := texts.foldl mergeOrKeep initial
    lastWindow texts .penalty = some 64 ∧ lastWindow texts .dryPenalty = none ∧
      c.get (.window .penalty) = 64 ∧ c.get (.window .dryPenalty) = 8192 :=
  ⟨rfl, rfl, rfl, rfl⟩

end ChatInference.ModelConfig
