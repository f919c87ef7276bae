import ChatInference.Decode.Sampling

/-!
The scores of the next token, one for each token of the vocabulary, and what the sampling parameters
make of them. A token past the vocabulary changes nothing.
-/

namespace ChatInference

abbrev Logits := List Float32

namespace Logits

def negInf : Float32 := -1.0 / 0.0

def addBias (ls : Logits) (biases : List (Nat × Float32)) : Logits :=
  biases.foldl (fun ls b => ls.modify b.1 (· + b.2)) ls

/-- The tokens of a window, each with how often it occurs. -/
def counts (window : List Nat) : List (Nat × Nat) :=
  window.eraseDups.map fun t => (t, window.count t)

def penalty (s : Sampling) (count : Nat) : Float32 :=
  count.toUInt32.toFloat32 * s.frequencyPenalty + s.presencePenalty

/-- Takes from each token in a table its penalty. -/
def penalize (ls : Logits) (s : Sampling) (table : List (Nat × Nat)) : Logits :=
  table.foldl (fun ls e => ls.modify e.1 (· - penalty s e.2)) ls

def hasPenalty (s : Sampling) : Bool := s.frequencyPenalty != 0.0 || s.presencePenalty != 0.0

/-- The largest score, past any that is not a number. -/
def max (ls : Logits) : Float32 := ls.foldl (fun m x => if m < x then x else m) negInf

/-- Removes the scores too far below the largest one, if enough others survive. -/
def cut (ls : Logits) (s : Sampling) : Logits :=
  let threshold := ls.max + s.minP.log
  let survivors := ls.filter (threshold ≤ ·)
  if (Max.max s.minKeep 1).toNat ≤ survivors.length then
    ls.map fun x => if x < threshold then negInf else x
  else ls

/-- Bias first, then penalties by count, then the cut of unlikely tokens. -/
def shape (ls : Logits) (s : Sampling) (window : List Nat) : Logits :=
  let ls := ls.addBias s.logitBias
  let ls := if hasPenalty s then ls.penalize s (counts window) else ls
  if 0.0 < s.minP && s.minP < 1.0 then ls.cut s else ls

/-- Makes a token of the window less likely, whatever the sign of its score. -/
def dampen (penalty x : Float32) : Float32 := if 0.0 ≤ x then x / penalty else x * penalty

/-- The difference from one below which a repeat penalty is none. -/
def tolerance : Float32 := 1.1920928955078125e-7

def dampenRepeats (ls : Logits) (s : Sampling) (window : List Nat) : Logits :=
  if tolerance < (s.repeatPenalty - 1.0).abs then
    window.eraseDups.foldl (fun ls t => ls.modify t (dampen s.repeatPenalty)) ls
  else ls

end Logits

end ChatInference
