import ChatInference.Message
import ChatInference.Text.Path
import ChatInference.Text.Search

/-!
Families of models by the way they mark the turns of a conversation, and the prompt each is given
when its model brings no template.
-/

namespace ChatInference

inductive PromptFamily where
  | llama
  | qwen
  | mistral
  | unknown
  deriving DecidableEq, Inhabited

namespace PromptFamily

def name : PromptFamily → String
  | llama => "llama"
  | qwen => "qwen"
  | mistral => "mistral"
  | unknown => "unknown"

/-- The family as it stands in messages. -/
def title : PromptFamily → String
  | llama => "Llama"
  | qwen => "Qwen"
  | mistral => "Mistral"
  | unknown => "Unknown"

def ofName : String → PromptFamily
  | "llama" => llama
  | "qwen" => qwen
  | "mistral" => mistral
  | _ => unknown

/-- A file name that says Mistral counts most, then the stated architecture, then any other family
that the file name says. Only letters of the ASCII range have these names' letters as lower case. -/
def detect (architecture path : String) : PromptFamily :=
  let stem := ((Path.fileStem? path).getD "").toList.map Char.toLower
  let named (word : String) : Bool := Text.contains word.toList stem
  if named "mistral" || named "mixtral" then mistral
  else if architecture = "qwen2" || architecture = "qwen" then qwen
  else if architecture = "llama" then llama
  else if named "qwen" then qwen
  else if named "llama" then llama
  else unknown

/-- Marks of the end of a turn, which a reply is cut at. -/
def stopMarkers : PromptFamily → List String
  | llama => ["<|eot_id|>", "<|end_of_text|>"]
  | qwen => ["<|im_end|>", "<|endoftext|>"]
  | mistral => ["</s>"]
  | unknown => []

/-- What precedes all turns. -/
def opening (f : PromptFamily) (bos : String) : String :=
  match f with
  | llama | mistral => bos
  | qwen | unknown => ""

def turn (f : PromptFamily) (eos : String) (m : Message) : String :=
  match f with
  | llama =>
    "<|start_header_id|>" ++ m.role.name ++ "<|end_header_id|>\n\n" ++ m.content ++ "<|eot_id|>"
  | qwen => "<|im_start|>" ++ m.role.name ++ "\n" ++ m.content ++ "<|im_end|>\n"
  | mistral =>
    if m.role = .assistant then m.content ++ eos else "[INST] " ++ m.content ++ " [/INST]"
  | unknown => "[" ++ m.role.name ++ "]\n" ++ m.content ++ "\n"

/-- What asks for the next reply. -/
def cue : PromptFamily → String
  | llama => "<|start_header_id|>assistant<|end_header_id|>\n\n"
  | qwen => "<|im_start|>assistant\n"
  | mistral => ""
  | unknown => "[assistant]\n"

/-- The prompt of a conversation. -/
def render (f : PromptFamily) (bos eos : String) (messages : List Message) : String :=
  f.opening bos ++ String.join (messages.map (f.turn eos)) ++ f.cue

def llamaSource : String :=
  "\x7b\x7b bos_token \x7d\x7d" ++ "\x7b% for m in messages %\x7d" ++
    "<|start_header_id|>" ++ "\x7b\x7b m.role \x7d\x7d" ++ "<|end_header_id|>\n\n" ++
    "\x7b\x7b m.content \x7d\x7d" ++ "<|eot_id|>" ++ "\x7b% endfor %\x7d" ++
    "\x7b% if add_generation_prompt %\x7d" ++ "<|start_header_id|>assistant" ++
    "<|end_header_id|>\n\n" ++ "\x7b% endif %\x7d"

def qwenSource : String :=
  "\x7b% for m in messages %\x7d" ++ "<|im_start|>" ++ "\x7b\x7b m.role \x7d\x7d\n" ++
    "\x7b\x7b m.content \x7d\x7d" ++ "<|im_end|>\n" ++ "\x7b% endfor %\x7d" ++
    "\x7b% if add_generation_prompt %\x7d" ++ "<|im_start|>assistant\n" ++ "\x7b% endif %\x7d"

def mistralSource : String :=
  "\x7b\x7b bos_token \x7d\x7d" ++ "\x7b% for m in messages %\x7d" ++
    "\x7b% if m.role == 'assistant' %\x7d" ++ "\x7b\x7b m.content \x7d\x7d" ++
    "\x7b\x7b eos_token \x7d\x7d" ++ "\x7b% else %\x7d" ++ "[INST] \x7b\x7b m.content \x7d\x7d" ++
    " [/INST]" ++ "\x7b% endif %\x7d" ++ "\x7b% endfor %\x7d"

def unknownSource : String :=
  "\x7b% for m in messages %\x7d" ++ "[\x7b\x7b m.role \x7d\x7d]\n" ++
    "\x7b\x7b m.content \x7d\x7d\n" ++ "\x7b% endfor %\x7d" ++
    "\x7b% if add_generation_prompt %\x7d" ++ "[assistant]\n" ++ "\x7b% endif %\x7d"

/-- The template that the prompts of a family are written in. -/
def source : PromptFamily → String
  | llama => llamaSource
  | qwen => qwenSource
  | mistral => mistralSource
  | unknown => unknownSource

end PromptFamily

end ChatInference
