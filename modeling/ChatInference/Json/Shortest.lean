/-!
The decimal text of a double with the fewest digits that read back as the same double, and of these
the nearest to it.
-/

namespace ChatInference.Json.Shortest

/-- A fraction of whole numbers. -/
structure Ratio where
  num : Nat
  den : Nat

namespace Ratio

/-- `n * 2 ^ e`. -/
def scale (n : Nat) (e : Int) : Ratio :=
  if 0 ≤ e then ⟨n * Nat.pow 2 e.toNat, 1⟩ else ⟨n, Nat.pow 2 (-e).toNat⟩

/-- `n * 10 ^ k`. -/
def decimal (n : Nat) (k : Int) : Ratio :=
  if 0 ≤ k then ⟨n * Nat.pow 10 k.toNat, 1⟩ else ⟨n, Nat.pow 10 (-k).toNat⟩

def lt (a b : Ratio) : Bool := a.num * b.den < b.num * a.den

def le (a b : Ratio) : Bool := a.num * b.den ≤ b.num * a.den

/-- The distance of two fractions. -/
def dist (a b : Ratio) : Ratio :=
  ⟨max (a.num * b.den) (b.num * a.den) - min (a.num * b.den) (b.num * a.den), a.den * b.den⟩

/-- The whole part of `r / 10 ^ k`. -/
def floorAt (r : Ratio) (k : Int) : Nat :=
  if 0 ≤ k then r.num / (r.den * Nat.pow 10 k.toNat) else r.num * Nat.pow 10 (-k).toNat / r.den

end Ratio

/-- A double above zero with the numbers that round to it: those between the ends, and the ends
themselves when the last bit is clear. -/
structure Interval where
  value : Ratio
  low : Ratio
  high : Ratio
  closed : Bool

/-- The leading bit of a normal double, which is not stored. -/
def hidden : Nat := 1 <<< 52

/-- The bit of the sign. -/
def signBit : Nat := 1 <<< 63

/-- A double by its bits: at a power of two the numbers below lie half as far apart as those above. -/
def interval (bits : Nat) : Interval :=
  let field : Nat := bits >>> 52 % 2048
  let fraction : Nat := bits % hidden
  let (m, q) : Nat × Int :=
    if field = 0 then (fraction, -1074) else (fraction + hidden, (field : Int) - 1075)
  let below := if fraction = 0 ∧ 1 < field then 1 else 2
  { value := .scale (4 * m) (q - 2), low := .scale (4 * m - below) (q - 2)
    high := .scale (4 * m + 2) (q - 2), closed := m % 2 = 0 }

def Interval.contains (i : Interval) (r : Ratio) : Bool :=
  if i.closed then i.low.le r && r.le i.high else i.low.lt r && r.lt i.high

/-- The power of ten at or below a fraction above zero, searched from `k` downwards. -/
def magnitude (r : Ratio) : Nat → Int → Int
  | 0, k => k
  | n + 1, k => if (Ratio.decimal 1 k).le r then k else magnitude r n (k - 1)

/-- The nearer of the two neighbours of a value in steps of `10 ^ k`, if one rounds to it. -/
def candidate? (i : Interval) (k : Int) : Option Nat :=
  let d := i.value.floorAt k
  let away (n : Nat) : Ratio := i.value.dist (.decimal n k)
  match i.contains (.decimal d k), i.contains (.decimal (d + 1) k) with
  | true, true => some (if (away (d + 1)).lt (away d) then d + 1 else d)
  | true, false => some d
  | false, true => some (d + 1)
  | false, false => none

/-- The shortest digits, with the power of ten of the last one; seventeen always do. -/
def digits (i : Interval) : Nat × Int :=
  let top := magnitude i.value 640 310
  let grids := (List.range 17).map fun (n : Nat) => top - n
  (grids.findSome? fun k => (candidate? i k).map (·, k)).getD (0, 0)

/-- Zeros at the end of a number, taken off into the power of ten. -/
def strip : Nat → Nat → Int → Nat × Int
  | 0, d, k => (d, k)
  | n + 1, d, k => if d % 10 = 0 ∧ d ≠ 0 then strip n (d / 10) (k + 1) else (d, k)

/-- Positional up to sixteen digits before the point and five zeros after it, else with an exponent. -/
def layout (d : Nat) (k : Int) : String :=
  let ds := Nat.toDigits 10 d
  let point := (ds.length : Int) + k
  let zeros (n : Int) : List Char := List.replicate n.toNat '0'
  String.ofList <|
    if 0 ≤ k ∧ point ≤ 16 then ds ++ zeros k ++ ['.', '0']
    else if 0 < point ∧ point ≤ 16 then ds.take point.toNat ++ '.' :: ds.drop point.toNat
    else if -5 < point ∧ point ≤ 0 then '0' :: '.' :: zeros (-point) ++ ds
    else
      let fraction := if ds.length = 1 then [] else '.' :: ds.drop 1
      ds.take 1 ++ fraction ++ 'e' :: (toString (point - 1)).toList

/-- The text of a finite double. -/
def text (x : Float) : String :=
  let bits := x.toBits.toNat
  let sign := if bits < signBit then "" else "-"
  if bits % signBit = 0 then sign ++ "0.0"
  else
    let (d, k) := digits (interval (bits % signBit))
    let (d, k) := strip 17 d k
    sign ++ layout d k

end ChatInference.Json.Shortest
