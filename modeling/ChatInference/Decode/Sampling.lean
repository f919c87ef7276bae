import ChatInference.Json.Writer
import ChatInference.Model.Config

/-! How the next token is chosen, as the sampling parameters ask. -/

namespace ChatInference

/-- From which tokens the next one is drawn. -/
inductive Choice where
  /-- The likeliest token. -/
  | argMax
  | all (temperature : Float)
  /-- The `k` likeliest. -/
  | topK (k : Nat) (temperature : Float)
  /-- The likeliest whose share first comes to `p`. -/
  | topP (p temperature : Float)
  | topKThenTopP (k : Nat) (p temperature : Float)
  deriving Inhabited

namespace Choice

def document (mode : String) (k : Option Nat) (p temperature : Option Float) : Json :=
  .obj [("mode", .str mode), ("k", Json.option Json.nat k), ("p", Json.option .float p),
    ("temperature", Json.option .float temperature)]

def toJson : Choice → Json
  | argMax => document "argmax" none none none
  | all temperature => document "all" none none temperature
  | topK k temperature => document "top_k" k none temperature
  | topP p temperature => document "top_p" none p temperature
  | topKThenTopP k p temperature => document "top_k_then_top_p" k p temperature

end Choice

namespace Sampling

/-- Without a temperature above zero nothing is drawn. -/
def choice (s : Sampling) : Choice :=
  let temperature := s.temperature.toFloat
  let k := if 0 < s.topK then some s.topK.toNat else none
  let p := if 0.0 < s.topP && s.topP < 1.0 then some s.topP.toFloat else none
  if temperature ≤ 0.0 then .argMax
  else match k, p with
    | some k, some p => .topKThenTopP k p temperature
    | some k, none => .topK k temperature
    | none, some p => .topP p temperature
    | none, none => .all temperature

/-- The parameters that are set and have no effect. -/
def ignored (s : Sampling) : List String :=
  let named (name : String) (on : Bool) : List String := if on then [name] else []
  named "mirostat" (s.mirostat != 0) ++ named "dry" (0.0 < s.dryMultiplier) ++
    named "typical_p" (s.typicalP < 1.0) ++ named "dynatemp" (0.0 < s.dynatempRange) ++
    named "grammar" s.grammar.isSome ++ named "n_probs" (0 < s.probs)

/-- The seed that asks for a fresh one. -/
def freshSeed : Nat := UInt32.size - 1

def fixedSeed? (s : Sampling) : Option Nat := if s.seed = freshSeed then none else some s.seed

/-- The tail of a history that penalties look at: all of it for a negative length. -/
def window (lastN : Int) (history : List Nat) : List Nat :=
  if lastN < 0 then history else history.drop (history.length - lastN.toNat)

end Sampling

end ChatInference
