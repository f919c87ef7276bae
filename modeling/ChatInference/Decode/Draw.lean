import ChatInference.Decode.Logits

/-!
The choice of one token by its score. What is left to chance is one number from zero up to one, which
the caller brings.
-/

namespace ChatInference

namespace Logits

/-- The lowest of the tokens with the largest score. -/
def argMax : Logits → Nat
  | [] => 0
  | x :: xs => go x 0 1 xs
where
  go (best : Float32) (at_ i : Nat) : Logits → Nat
    | [] => at_
    | x :: xs => if best < x then go x i (i + 1) xs else go best at_ (i + 1) xs

/-- The scores as shares of one, sharper the lower the temperature. -/
def shares (ls : Logits) (temperature : Float) : List Float32 :=
  let scale := (1.0 / temperature).toFloat32
  let ls : Logits := ls.map (· * scale)
  let es := ls.map fun x => (x - ls.max).exp
  let total := es.foldl (· + ·) 0.0
  es.map (· / total)

end Logits

namespace Draw

/-- Something drawn from, with its weight. -/
abbrev Weighted := Nat × Float32

def weights (ws : List Weighted) : List Float32 := ws.map (·.2)

def sum (xs : List Float32) : Float32 := xs.foldl (· + ·) 0.0

/-- The item in whose stretch of the whole a point lies; the last item takes what is left. -/
def locate (point : Float32) : Float32 → List Weighted → Option Nat
  | _, [] => none
  | _, [(t, _)] => some t
  | before, (t, w) :: ws =>
    if before + w ≤ point then locate point (before + w) ws else some t

def noWeight : String := "no token has a weight"

/-- Draws by weight; a weight that is no number, or none above zero, leaves nothing to draw. -/
def draw (ws : List Weighted) (chance : Float32) : Except String Nat :=
  let total := sum (weights ws)
  if (weights ws).all (0.0 ≤ ·) && 0.0 < total then
    match locate (chance * total) 0.0 ws with
    | some t => .ok t
    | none => .error noWeight
  else .error noWeight

/-- The heaviest first, equal ones by token. -/
def heaviestFirst (ws : List Weighted) : List Weighted := ws.mergeSort fun a b => b.2 ≤ a.2

def topK (k : Nat) (ws : List Weighted) : List Weighted :=
  if ws.length ≤ k then ws else (heaviestFirst ws).take k

/-- The heaviest items up to the first at which their weights come to `p`; the others weigh nothing. -/
def topP (p : Float32) (ws : List Weighted) : List Weighted :=
  let kept := keep 0.0 (heaviestFirst ws)
  ws.map fun w => if kept.contains w.1 then w else (w.1, 0.0)
where
  keep (before : Float32) : List Weighted → List Nat
    | [] => []
    | (t, w) :: ws => if p ≤ before then [] else t :: keep (before + w) ws

/-- The `k` heaviest, and of these as many as come to `p`, unless `p` cuts nothing. -/
def topKThenTopP (k : Nat) (p : Float32) (ws : List Weighted) : List Weighted :=
  if ws.length ≤ k then topP p ws
  else
    let top := topK k ws
    if p ≤ 0.0 || sum (weights top) ≤ p then top else topP p top

end Draw

namespace Choice

def choose (c : Choice) (ls : Logits) (chance : Float32) : Except String Nat :=
  let weighted (temperature : Float) : List Draw.Weighted :=
    (ls.shares temperature).zipIdx.map fun (w, t) => (t, w)
  match c with
  | argMax => .ok ls.argMax
  | all temperature => Draw.draw (weighted temperature) chance
  | topK k temperature => Draw.draw (Draw.topK k (weighted temperature)) chance
  | topP p temperature => Draw.draw (Draw.topP p.toFloat32 (weighted temperature)) chance
  | topKThenTopP k p temperature =>
    Draw.draw (Draw.topKThenTopP k p.toFloat32 (weighted temperature)) chance

end Choice

/-- The next token after a history. -/
def Sampling.sample (s : Sampling) (ls : Logits) (history : List Nat) (chance : Float32) :
    Except String Nat :=
  let window := Sampling.window s.penaltyLastN history
  s.choice.choose ((ls.shape s window).dampenRepeats s window) chance

end ChatInference
