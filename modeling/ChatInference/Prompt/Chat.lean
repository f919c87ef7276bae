import ChatInference.Prompt.Family
import ChatInference.Prompt.Template.Eval

/-!
The prompt of a conversation: by the template that the model brings, or by its family where there is
none or it fails.
-/

namespace ChatInference

structure ChatTemplate where
  family : PromptFamily
  embedded : Option String
  bos : String
  eos : String
  deriving DecidableEq, Inhabited

namespace ChatTemplate

/-- A blank template is none. -/
def create (family : PromptFamily) (embedded : Option String) (bos eos : String) : ChatTemplate :=
  { family, embedded := embedded.filter fun t => (Text.supplied? (some t)).isSome, bos, eos }

/-- A message as a template sees it, by its keys in order. -/
def messageValue (m : Message) : Template.Value :=
  .map [("content", .str m.content), ("role", .str m.role.name)]

def scope (t : ChatTemplate) (messages : List Message) : Template.Scope :=
  [("messages", .list (messages.map messageValue)), ("add_generation_prompt", .bool true),
    ("bos_token", .str t.bos), ("eos_token", .str t.eos)]

def render (t : ChatTemplate) (messages : List Message) : String :=
  match t.embedded.bind fun source => Template.render? source (t.scope messages) with
  | some prompt => prompt
  | none => t.family.render t.bos t.eos messages

end ChatTemplate

end ChatInference
