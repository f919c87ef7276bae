import ChatInference.Proofs.Model.Acceptance

/-!
What merging a text does to the parameters. Those it names take the values it gives, so that to merge it
again changes nothing more. Those it does not name are as before; a window that follows the context
goes with it.
-/

namespace ChatInference.ModelConfig

open Json

variable {base c : ModelConfig} {text : Option String} {root : Json}

/-- A text that is merged can be merged again, and changes nothing more, the windows that follow the
context included. -/
theorem merge_again (h : merge base text = .ok c) : merge c text = .ok c := by
  obtain ⟨hs, rfl⟩ | ⟨root, hroot, rfl⟩ := merge_cases h
  · exact h
  · rw [merge_of_document? hroot, resolve_set_resolve (settings_pinning root), set_set_self]

/-- A context that shrinks under one window that is pinned and one that is not, and a base of
repetition that is repaired. -/
theorem merge_again_repaired :
    let text := some ("\x7b\"model\":\x7b\"ctx_size\":1024\x7d,\"sampling\":\x7b\"repeat_last_n\":64," ++
      "\"dry_base\":0.5,\"grammar\":\"\"\x7d\x7d")
    let c := initial.mergeOrKeep text
    merge initial text = .ok c ∧ merge c text = .ok c ∧
      c.sampling.penaltyLastN = 64 ∧ c.sampling.dryPenaltyLastN = 1024 ∧ c.sampling.dryBase = 1.75 := by
  intro text c
  have h : merge initial text = .ok c := rfl
  exact ⟨h, merge_again h, rfl, rfl, rfl⟩

section NotNamed

variable {α : Type} {p : Parameter α} (hp : p.isNamed root = false)
include hp

theorem get_set_of_not_named : (base.set root.settings).get p = base.get p := by
  rw [get_set, settings_of_not_named hp]
  rfl

theorem get_merged_of_not_named (hbase : base.resolve = base) (hwindow : p.isWindow = false) :
    (base.set root.settings).resolve.get p = base.get p := by
  cases hres : p.isResolved with
  | false => rw [get_resolve hres, get_set_of_not_named hp]
  | true =>
    cases p with
    | window w => cases hwindow
    | dryBase =>
      -- the base of repetition was repaired before, and is not repaired again
      rw [get_resolve_dryBase, get_set_of_not_named hp, ← get_resolve_dryBase, hbase]
    | _ => cases hres

end NotNamed

theorem isNamed_automatic (w : Window) :
    (Parameter.automatic w).isNamed root = (Parameter.window w).isNamed root := by
  cases w <;> rfl

theorem get_merged_window_of_not_named {w : Window} (hw : (Parameter.window w).isNamed root = false) :
    (base.set root.settings).resolve.get (.window w) =
      if base.get (.automatic w) then (base.set root.settings).resolve.model.window
      else base.get (.window w) := by
  rw [get_resolve_window, get_set_of_not_named hw,
    get_set_of_not_named ((isNamed_automatic w).trans hw)]
  rfl

/-- Let texts be merged, and then one that is read as an object. What this one does not name stays as it
was; a window that it does not name stays as well, unless it follows the context, and then it is as
long as the new context. Without a new context it stays in any case. -/
theorem merge_changes_only_named (texts : List (Option String)) {members : List (String × Json)}
    (hread : (Text.supplied? text).bind Json.read? = some (.obj members))
    (hmerge : merge (texts.foldl mergeOrKeep initial) text = .ok c) :
    let base := texts.foldl mergeOrKeep initial
    (∀ {α : Type} (p : Parameter α), p.isNamed (.obj members) = false → p.isWindow = false →
      c.get p = base.get p) ∧
    ∀ w : Window, (Parameter.window w).isNamed (.obj members) = false →
      c.get (.window w) = (if base.get (.automatic w) then c.model.window else base.get (.window w)) ∧
      (Parameter.ctxSize.isNamed (.obj members) = false → c.get (.window w) = base.get (.window w)) := by
  intro base
  have hbase : base.resolve = base := merges_resolved texts
  obtain ⟨hs, -⟩ | ⟨root, hroot, rfl⟩ := merge_cases hmerge
  · rw [hs] at hread
    cases hread
  have hsame : root = .obj members :=
    Option.some.inj ((read_of_document? hroot).1.symm.trans hread)
  subst hsame
  refine ⟨fun p hp hwindow => get_merged_of_not_named hp hbase hwindow, fun w hw => ?_⟩
  have hlength : (base.set (Json.obj members).settings).resolve.get (.window w) = _ :=
    get_merged_window_of_not_named hw
  refine ⟨hlength, fun hcontext => ?_⟩
  have hctx : (base.set (Json.obj members).settings).resolve.model.window = base.model.window :=
    window_congr (get_set_of_not_named (p := .ctxSize) hcontext)
  rw [hlength, hctx, ← get_resolve_window, hbase]

/-- A window that was pinned stays, the other one goes with the context, and what no spelling names is
as it was. -/
theorem merge_changes_only_named_shrunk :
    let texts := [some "\x7b\"ctx_size\":4096,\"sampling\":\x7b\"penalty_last_n\":64,\"top_k\":7\x7d\x7d"]
    let text := some "\x7b\"model\":\x7b\"n_ctx\":1024\x7d,\"temp\":0.5,\"top_k\":9,\"threads\":2\x7d"
    let base := texts.foldl mergeOrKeep initial
    let c := base.mergeOrKeep text
    merge base text = .ok c ∧ c.get .topK = base.get .topK ∧ c.get .threads = base.get .threads ∧
      c.get (.window .penalty) = base.get (.window .penalty) ∧
      c.get (.window .dryPenalty) = c.model.window ∧ c.model.window = 1024 := by
  intro texts text base c
  have hread : (Text.supplied? text).bind Json.read? = some (.obj [("model", .obj [("n_ctx", .int 1024)]),
    ("temp", .float 0.5), ("top_k", .int 9), ("threads", .int 2)]) := rfl
  have hmerge : merge base text = .ok c := rfl
  obtain ⟨hkept, hwindow⟩ := merge_changes_only_named texts hread hmerge
  exact ⟨hmerge, hkept .topK rfl rfl, hkept .threads rfl rfl, (hwindow .penalty rfl).1,
    (hwindow .dryPenalty rfl).1, rfl⟩

end ChatInference.ModelConfig
