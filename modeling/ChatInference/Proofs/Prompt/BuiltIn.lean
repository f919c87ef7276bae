import ChatInference.Prompt.Chat
import Mathlib

/-!
The built-in prompts as the templates they are written in. What a family's template prints of a
conversation is the prompt that the family gives it; and a conversation that goes on from a reply has
a prompt that goes on from the prompt of the reply, with the reply's own text.
-/

namespace ChatInference

namespace Template

/-- The text of some nodes, whatever becomes of the names. -/
def printed (ns : List Node) (env : Scope) : Option String := (runAll ns env).map (·.1)

theorem printed_nil (env : Scope) : printed [] env = some "" := rfl

/-- The first node prints, and the others with the names as it leaves them. -/
theorem printed_cons (n : Node) (ns : List Node) (env : Scope) :
    printed (n :: ns) env =
      (Node.run n env).bind fun r => (printed ns r.2).map (r.1 ++ ·) := by
  unfold printed
  rw [runAll]
  cases Node.run n env with
  | none => rfl
  | some r =>
    change ((runAll ns r.2).bind fun q => some (r.1 ++ q.1, q.2)).map (·.1) = _
    rw [Option.bind_some]
    cases runAll ns r.2 with
    | none => rfl
    | some q => rfl

theorem printed_text (s : String) (ns : List Node) (env : Scope) :
    printed (.text s :: ns) env = (printed ns env).map (s ++ ·) := by
  rw [printed_cons, Node.run, Option.bind_some]

theorem printed_output {e : Expr} {v : Value} {env : Scope} (h : Expr.eval env e = some v)
    (ns : List Node) : printed (.output e :: ns) env = (printed ns env).map (v.print ++ ·) := by
  rw [printed_cons, Node.run, h, Option.map_some, Option.bind_some]

theorem printed_cond {e : Expr} {v : Value} {env : Scope} (h : Expr.eval env e = some v)
    (yes no : List Node) :
    printed [.cond e yes no] env = printed (if v.isTrue then yes else no) env := by
  have hrun : Node.run (.cond e yes no) env = runAll (if v.isTrue then yes else no) env := by
    rw [Node.run, h]
    change (if v.isTrue = true then _ else _) = _
    split <;> rfl
  rw [printed_cons, hrun]
  unfold printed
  cases runAll (if v.isTrue then yes else no) env with
  | none => rfl
  | some r =>
    rw [Option.bind_some, runAll, Option.map_some, Option.map_some, Option.map_some,
      String.append_empty]

/-- A loop without a condition leaves no item out. -/
theorem select_none (env : Scope) (name : String) (items : List Value) :
    select env name none items = some items := by
  induction items with
  | nil => rfl
  | cons v vs ih =>
    unfold select
    rw [ih]
    rfl

/-- Rounds that each print a text print one after the other. -/
theorem rounds_eq {α : Type} {print : Nat → Value → Option String} {value : α → Value}
    {text : α → String} (h : ∀ i a, print i (value a) = some (text a)) (i : Nat) (as : List α) :
    rounds print i (as.map value) = some (String.join (as.map text)) := by
  induction as generalizing i with
  | nil => rfl
  | cons a as ih =>
    rw [List.map_cons, List.map_cons, rounds, h, ih, String.join_cons]
    rfl

theorem printed_loop {α : Type} {name : String} {source : Expr} {body : List Node} {env : Scope}
    {value : α → Value} {text : α → String} {as : List α}
    (hsource : Expr.eval env source = some (.list (as.map value)))
    (hbody : ∀ loop a, printed body (set (set env name (value a)) "loop" loop) = some (text a))
    (ns : List Node) :
    printed (.loop name source none body [] :: ns) env =
      (printed ns env).map (String.join (as.map text) ++ ·) := by
  have hrun : Node.run (.loop name source none body []) env =
      some (String.join (as.map text), env) := by
    rw [Node.run, hsource]
    change ((select env name none (as.map value)).bind fun items => _) = _
    rw [select_none, Option.bind_some]
    cases as with
    | nil => rfl
    | cons a as =>
      let n := ((a :: as).map value).length
      have hround (i : Nat) (b : α) :
          (fun i v => printed body (set (set env name v) "loop" (round i n))) i (value b) =
            some (text b) :=
        hbody (round i n) b
      change (rounds (fun i v => printed body (set (set env name v) "loop" (round i n))) 0
        ((a :: as).map value)).bind (fun s => some (s, env)) = _
      rw [rounds_eq hround, Option.bind_some]
  rw [printed_cons, hrun, Option.bind_some]

end Template

namespace PromptFamily

open Template

def role : Expr := .item (.var "m") (.literal (.str "role"))

def content : Expr := .item (.var "m") (.literal (.str "content"))

/-- What a template prints of each message. -/
def turnNodes : PromptFamily → List Node
  | llama =>
    [.text "<|start_header_id|>", .output role, .text "<|end_header_id|>\n\n", .output content,
      .text "<|eot_id|>"]
  | qwen => [.text "<|im_start|>", .output role, .text "\n", .output content, .text "<|im_end|>\n"]
  | mistral =>
    [.cond (.eq role (.literal (.str "assistant")))
      [.output content, .output (.var "eos_token")]
      [.text "[INST] ", .output content, .text " [/INST]"]]
  | unknown => [.text "[", .output role, .text "]\n", .output content, .text "\n"]

def openingNodes : PromptFamily → List Node
  | llama | mistral => [.output (.var "bos_token")]
  | qwen | unknown => []

def cueNodes (f : PromptFamily) : List Node :=
  match f with
  | llama | qwen | unknown => [.cond (.var "add_generation_prompt") [.text f.cue] []]
  | mistral => []

/-- The template of a family as a tree. -/
def tree (f : PromptFamily) : List Node :=
  f.openingNodes ++ .loop "m" (.var "messages") none f.turnNodes [] :: f.cueNodes

/-- What the tokens of an output mean that names a part of the message. -/
def part (name : String) : Segment := .output [.word "m", .mark ".", .word name]

def forTag : Segment := .tag [.word "for", .word "m", .word "in", .word "messages"]

def cueTag : Segment := .tag [.word "if", .word "add_generation_prompt"]

/-- The template of a family in its pieces. -/
def pieces : PromptFamily → List Segment
  | llama =>
    [.output [.word "bos_token"], forTag, .text "<|start_header_id|>", part "role",
      .text "<|end_header_id|>\n\n", part "content", .text "<|eot_id|>", .tag [.word "endfor"],
      cueTag, .text "<|start_header_id|>assistant<|end_header_id|>\n\n", .tag [.word "endif"]]
  | qwen =>
    [forTag, .text "<|im_start|>", part "role", .text "\n", part "content", .text "<|im_end|>\n",
      .tag [.word "endfor"], cueTag, .text "<|im_start|>assistant\n", .tag [.word "endif"]]
  | mistral =>
    [.output [.word "bos_token"], forTag,
      .tag [.word "if", .word "m", .mark ".", .word "role", .mark "==", .str "assistant"],
      part "content", .output [.word "eos_token"], .tag [.word "else"], .text "[INST] ",
      part "content", .text " [/INST]", .tag [.word "endif"], .tag [.word "endfor"]]
  | unknown =>
    [forTag, .text "[", part "role", .text "]\n", part "content", .text "\n", .tag [.word "endfor"],
      cueTag, .text "[assistant]\n", .tag [.word "endif"]]

theorem segments?_source (f : PromptFamily) : segments? f.source = some f.pieces := by
  -- a source is read character by character, and part by part that takes less
  cases f with
  | llama =>
    change segments? llamaSource = some llama.pieces
    unfold segments? llamaSource
    simp only [String.toList_append, -String.reduceAppend]
    cbv
  | qwen =>
    change segments? qwenSource = some qwen.pieces
    unfold segments? qwenSource
    simp only [String.toList_append, -String.reduceAppend]
    cbv
  | mistral =>
    change segments? mistralSource = some mistral.pieces
    unfold segments? mistralSource
    simp only [String.toList_append, -String.reduceAppend]
    cbv
  | unknown =>
    change segments? unknownSource = some unknown.pieces
    unfold segments? unknownSource
    simp only [String.toList_append, -String.reduceAppend]
    cbv

theorem parse?_source (f : PromptFamily) : parse? f.source = some f.tree := by
  unfold parse?
  rw [segments?_source]
  cases f <;> rfl

/-- What a turn is printed from: a message as the one at hand, the names of the conversation around
it, and the number of the round. -/
def turnScope (bos eos : String) (ms : List Message) (m : Message) (loop : Value) : Scope :=
  [("loop", loop), ("m", ChatTemplate.messageValue m),
    ("messages", .list (ms.map ChatTemplate.messageValue)), ("add_generation_prompt", .bool true),
    ("bos_token", .str bos), ("eos_token", .str eos)]

/-- Most families write the role and the content of a message between three texts. -/
theorem printed_framed (bos eos : String) (ms : List Message) (m : Message) (loop : Value)
    (start middle stop : String) :
    printed [.text start, .output role, .text middle, .output content, .text stop]
        (turnScope bos eos ms m loop) =
      some (start ++ m.role.name ++ middle ++ m.content ++ stop) := by
  have hrole : Expr.eval (turnScope bos eos ms m loop) role = some (.str m.role.name) := rfl
  have hcontent : Expr.eval (turnScope bos eos ms m loop) content = some (.str m.content) := rfl
  rw [printed_text, printed_output hrole, printed_text, printed_output hcontent, printed_text,
    printed_nil]
  simp only [Option.map_some, Value.print, String.append_assoc, String.append_empty]

theorem printed_turnNodes (f : PromptFamily) (bos eos : String) (ms : List Message) (m : Message)
    (loop : Value) :
    printed f.turnNodes (turnScope bos eos ms m loop) = some (f.turn eos m) := by
  cases f with
  | llama => exact printed_framed bos eos ms m loop _ _ _
  | qwen => exact printed_framed bos eos ms m loop _ _ _
  | mistral =>
    have hcontent : Expr.eval (turnScope bos eos ms m loop) content = some (.str m.content) := rfl
    have heos : Expr.eval (turnScope bos eos ms m loop) (.var "eos_token") = some (.str eos) := rfl
    have hassistant : Expr.eval (turnScope bos eos ms m loop)
        (.eq role (.literal (.str "assistant"))) =
          some (.bool (m.role.name == "assistant")) := rfl
    have htrue : (Value.bool (m.role.name == "assistant")).isTrue =
        decide (m.role = .assistant) := by
      cases m.role <;> rfl
    unfold turnNodes turn
    dsimp only
    rw [printed_cond hassistant, htrue]
    -- a reply stands with its end mark, and all else as an instruction
    by_cases h : m.role = .assistant
    · simp only [h, decide_true, if_true]
      rw [printed_output hcontent, printed_output heos, printed_nil]
      simp only [Option.map_some, Value.print, String.append_empty]
    · simp only [h, decide_false, Bool.false_eq_true, if_false]
      rw [printed_text, printed_output hcontent, printed_text, printed_nil]
      simp only [Option.map_some, Value.print, String.append_assoc, String.append_empty]
  | unknown => exact printed_framed bos eos ms m loop _ _ _

/-- What the template of a family prints of a conversation is the prompt of the family. -/
theorem printed_tree (f : PromptFamily) (bos eos : String) (ms : List Message) :
    printed f.tree (ChatTemplate.scope (.create f none bos eos) ms) = some (f.render bos eos ms) := by
  let env := ChatTemplate.scope (.create f none bos eos) ms
  have hmessages : Expr.eval env (.var "messages") =
      some (.list (ms.map ChatTemplate.messageValue)) := rfl
  have hbos : Expr.eval env (.var "bos_token") = some (.str bos) := rfl
  have hcue : Expr.eval env (.var "add_generation_prompt") = some (.bool true) := rfl
  have hbody (loop : Value) (m : Message) :
      printed f.turnNodes (set (set env "m" (ChatTemplate.messageValue m)) "loop" loop) =
        some (f.turn eos m) :=
    printed_turnNodes f bos eos ms m loop
  have hlast : printed f.cueNodes env = some f.cue := by
    have hasked : printed [.cond (.var "add_generation_prompt") [.text f.cue] []] env =
        some f.cue := by
      rw [printed_cond hcue]
      change printed [.text f.cue] env = _
      rw [printed_text, printed_nil, Option.map_some, String.append_empty]
    cases f with
    | mistral => rfl
    | llama => exact hasked
    | qwen => exact hasked
    | unknown => exact hasked
  have hloop : printed (.loop "m" (.var "messages") none f.turnNodes [] :: f.cueNodes) env =
      some (String.join (ms.map (f.turn eos)) ++ f.cue) := by
    rw [printed_loop hmessages hbody, hlast, Option.map_some]
  have hopened : printed f.tree env =
      some (f.opening bos ++ (String.join (ms.map (f.turn eos)) ++ f.cue)) := by
    unfold tree
    cases f with
    | llama => rw [openingNodes, List.singleton_append, printed_output hbos, hloop]; rfl
    | mistral => rw [openingNodes, List.singleton_append, printed_output hbos, hloop]; rfl
    | qwen => rw [openingNodes, List.nil_append, hloop, opening, String.empty_append]
    | unknown => rw [openingNodes, List.nil_append, hloop, opening, String.empty_append]
  unfold render
  rw [String.append_assoc]
  exact hopened

theorem render?_source (f : PromptFamily) (bos eos : String) (ms : List Message) :
    render? f.source (ChatTemplate.scope (.create f none bos eos) ms) =
      some (f.render bos eos ms) := by
  have hprinted := f.printed_tree bos eos ms
  unfold render?
  rw [parse?_source]
  exact hprinted

/-- The turn of a reply begins with what asks for the reply, and with its text. -/
theorem turn_reply (f : PromptFamily) (eos text : String) :
    ∃ rest, f.turn eos ⟨.assistant, text⟩ = f.cue ++ text ++ rest := by
  cases f with
  | llama =>
    have hcue : "<|start_header_id|>" ++ "assistant" ++ "<|end_header_id|>\n\n" = cue llama := by
      decide
    refine ⟨"<|eot_id|>", ?_⟩
    dsimp only [turn, Role.name]
    rw [hcue]
  | qwen =>
    have hcue : "<|im_start|>" ++ "assistant" ++ "\n" = cue qwen := by decide
    refine ⟨"<|im_end|>\n", ?_⟩
    dsimp only [turn, Role.name]
    rw [hcue]
  | mistral =>
    refine ⟨eos, ?_⟩
    dsimp only [turn, cue]
    rw [if_pos rfl, String.empty_append]
  | unknown =>
    have hcue : "[" ++ "assistant" ++ "]\n" = cue unknown := by decide
    refine ⟨"\n", ?_⟩
    dsimp only [turn, Role.name]
    rw [hcue]

theorem render_reply (f : PromptFamily) (bos eos : String) (ms : List Message) (text : String)
    (more : List Message) :
    ∃ rest, f.render bos eos (ms ++ ⟨.assistant, text⟩ :: more) =
      f.render bos eos ms ++ text ++ rest := by
  obtain ⟨mark, hturn⟩ := f.turn_reply eos text
  let said := String.join (ms.map (f.turn eos))
  let tail := String.join (more.map (f.turn eos)) ++ f.cue
  refine ⟨mark ++ tail, ?_⟩
  calc
    f.render bos eos (ms ++ ⟨.assistant, text⟩ :: more) =
        f.opening bos ++ (said ++ (f.cue ++ text ++ mark ++
          String.join (more.map (f.turn eos)))) ++ f.cue := by
      unfold render
      rw [List.map_append, List.map_cons, String.join_append, String.join_cons, hturn]
    _ = f.opening bos ++ said ++ f.cue ++ text ++ (mark ++ tail) := by
      simp only [String.append_assoc, tail]

end PromptFamily

namespace ChatTemplate

/-- Without a template of the model's own, the prompt of a conversation is what the built-in template
of the family prints. And once a reply has been given to it, the prompt of the conversation that
goes on, however it does, begins with that prompt and the text of the reply. -/
theorem prompt_goes_on_from_reply {t : ChatTemplate} (h : t.embedded = none)
    (ms : List Message) (reply : String) (more : List Message) :
    Template.render? t.family.source (t.scope ms) = some (t.render ms) ∧
      ∃ rest, t.render (ms ++ ⟨.assistant, reply⟩ :: more) = t.render ms ++ reply ++ rest := by
  have hrender (ms : List Message) : t.render ms = t.family.render t.bos t.eos ms := by
    unfold render
    rw [h]
    rfl
  constructor
  · rw [hrender]
    exact t.family.render?_source t.bos t.eos ms
  · rw [hrender, hrender]
    exact t.family.render_reply t.bos t.eos ms reply more

/-- The model's own template is blank, and the family marks no turn of its own for replies. -/
theorem prompt_goes_on_from_reply_blank :
    let t := ChatTemplate.create .mistral (some " \n") "<s>" "</s>"
    t.embedded = none ∧
      ∃ rest, t.render [⟨.user, "Hi"⟩, ⟨.assistant, "Hello"⟩, ⟨.user, "Bye"⟩] =
        "<s>[INST] Hi [/INST]" ++ "Hello" ++ rest := by
  intro t
  have h : t.embedded = none := by decide
  have hfirst : t.render [⟨.user, "Hi"⟩] = "<s>[INST] Hi [/INST]" := by decide
  obtain ⟨-, rest, hrest⟩ := prompt_goes_on_from_reply h [⟨.user, "Hi"⟩] "Hello" [⟨.user, "Bye"⟩]
  rw [hfirst] at hrest
  exact ⟨h, rest, hrest⟩

end ChatTemplate

end ChatInference
