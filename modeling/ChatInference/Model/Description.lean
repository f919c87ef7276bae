import ChatInference.Json.Writer
import ChatInference.Text.Path
import ChatInference.Text.Search

/-! How a model is named and described, and what tells one file of it from another. -/

namespace ChatInference

/-- What an engine says of a model it has loaded. -/
structure ModelDescription where
  /-- Free text; its first word is the architecture. -/
  text : String
  vocabSize : Nat
  /-- Zero where the model does not state it. -/
  contextLength : Nat
  deriving DecidableEq, Inhabited

namespace ModelDescription

def architectureOf (text : String) : String := (Text.firstWord? text).getD "unknown"

def architecture (d : ModelDescription) : String := architectureOf d.text

def toJson (d : ModelDescription) : Json :=
  .obj [("description", .str d.text), ("architecture", .str d.architecture),
    ("vocab_size", .nat d.vocabSize), ("context_length", .nat d.contextLength)]

end ModelDescription

/-- The size of a file in bytes, and the second it was last changed. -/
structure FileStamp where
  size : Nat
  modified : Int
  deriving DecidableEq, Inhabited

/-- The name of a model by its path. -/
def modelName (path : String) : String := (Path.fileName? path).getD path

/-- A file that was changed before time began counts as changed at the beginning. -/
def fingerprint : Option FileStamp → String
  | some s => s!"size_{s.size}_mtime_{s.modified.toNat}"
  | none => "unknown"

end ChatInference
