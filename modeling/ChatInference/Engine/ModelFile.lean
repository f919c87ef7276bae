import ChatInference.Decode.Logits
import ChatInference.Disk
import ChatInference.Engine.Tokenizer
import ChatInference.Model.Description

/-!
Files of models and tokenizers. A model file holds metadata under keys and tensors under names. Its
weights have no layers: the last token alone gives every token its score.
-/

namespace ChatInference

inductive Metadatum where
  | text (s : String)
  | word32 (n : Nat)
  | word64 (n : Nat)
  | single (x : Float32)
  deriving Inhabited

/-- What kind of metadatum a key needs. -/
inductive MetadatumKind where
  | word32
  | single
  deriving DecidableEq, Inhabited

structure ModelFile where
  metadata : List (String × Metadatum)
  tensors : List String
  /-- How many tokens the tensors have a row for. -/
  rows : Nat
  /-- Scores other than zero: the last token, the next one, and the score of the next. -/
  weights : List (Nat × Nat × Float32)
  deriving Inhabited

namespace ModelFile

def text? (f : ModelFile) (key : String) : Option String :=
  match f.metadata.lookup key with
  | some (.text s) => some s
  | _ => none

/-- A number; one that fits no 32-bit word counts as the largest. -/
def number? (f : ModelFile) (key : String) : Option Nat :=
  match f.metadata.lookup key with
  | some (.word32 n) => some n
  | some (.word64 n) => some (min n (UInt32.size - 1))
  | _ => none

def architecture (f : ModelFile) : String := (f.text? "general.architecture").getD "unknown"

def contextLength (f : ModelFile) : Nat :=
  (f.number? (f.architecture ++ ".context_length")).getD 0

/-- The architecture, with the size and the kind of the weights where the file states them. -/
def description (f : ModelFile) : String :=
  let size := match f.text? "general.size_label" with
    | some label => " " ++ label
    | none => ""
  let kind := match f.number? "general.file_type" with
    | some n => s!" ftype{n}"
    | none => ""
  f.architecture ++ size ++ kind

def has (f : ModelFile) (key : String) (kind : MetadatumKind) : Bool :=
  match f.metadata.lookup key, kind with
  | some (.word32 _), .word32 | some (.single _), .single => true
  | _, _ => false

/-- What weights of an architecture cannot do without, if it is one that can be run. -/
def required? : String → Option (List (String × MetadatumKind))
  | "llama" => some [("attention.head_count", .word32), ("attention.head_count_kv", .word32),
      ("block_count", .word32), ("embedding_length", .word32), ("rope.dimension_count", .word32),
      ("attention.layer_norm_rms_epsilon", .single)]
  | "qwen2" => some [("attention.head_count", .word32), ("attention.head_count_kv", .word32),
      ("embedding_length", .word32), ("context_length", .word32), ("block_count", .word32),
      ("attention.layer_norm_rms_epsilon", .single)]
  | _ => none

def shardHint : String :=
  "qwen2 weights lack 'output_norm.weight'; the GGUF is probably one shard of a split export, " ++
    "merge it first"

/-- Why a model cannot be run, if it cannot. -/
def fault? (f : ModelFile) : Option String :=
  let lacks (tensor : String) : Bool := !f.tensors.contains tensor
  match required? f.architecture with
  | none => some s!"unsupported architecture '{f.architecture}'"
  | some keys =>
    match keys.find? fun k => !f.has (f.architecture ++ "." ++ k.1) k.2 with
    | some (key, _) => some s!"cannot find {f.architecture}.{key} in metadata"
    | none =>
      if lacks "token_embd.weight" then some "cannot find tensor token_embd.weight"
      else if lacks "output_norm.weight" then
        some (if f.architecture = "qwen2" then shardHint
          else "cannot find tensor output_norm.weight")
      else none

/-- The score of a token after itself in a model that reuses its input weights for its output. -/
def tiedScore : Float32 := 8.0

def weight (f : ModelFile) (last next : Nat) : Float32 :=
  match f.weights.reverse.find? fun w => w.1 == last && w.2.1 == next with
  | some w => w.2.2
  | none => 0.0

def scoresAfter (f : ModelFile) (last : Nat) : Logits :=
  (List.range f.rows).map fun next =>
    if f.tensors.contains "output.weight" then f.weight last next
    else if next = last then tiedScore else 0.0

/-- Feeds tokens to the model; each must have a row. -/
def feed (f : ModelFile) (tokens : List Nat) : Except String Logits :=
  match tokens.getLast?, tokens.find? (f.rows ≤ ·) with
  | none, _ => .error "no tokens to feed"
  | _, some t => .error s!"token {t} has no row"
  | some last, none => .ok (f.scoresAfter last)

end ModelFile

inductive FileContent where
  | model (m : ModelFile)
  | tokenizer (t : Tokenizer)
  /-- Neither of both. -/
  | other (text : String)
  deriving Inhabited

structure StoredFile where
  content : FileContent
  stamp : FileStamp
  deriving Inhabited

end ChatInference
