import ChatInference.Json.Basic

/-!
Numerals of JSON and their values. An integer keeps its value while it fits 64 bits; any other
numeral is its first digits that fit 64 bits, as a double, scaled once by a power of ten.
-/

namespace ChatInference.Json

/-- The parts of a numeral as written; digits are values below ten. -/
structure Numeral where
  negative : Bool
  whole : List Nat
  fraction : List Nat
  /-- Sign (true when negative) and digits. -/
  exponent : Option (Bool × List Nat)

namespace Numeral

def word : Nat := UInt64.size

def ofDigits (ds : List Nat) : Nat := ds.foldl (fun n d => n * 10 + d) 0

/-- The value of the longest run of leading digits that fits 64 bits after `n`, and the digits
left over. -/
def fill (n : Nat) : List Nat → Nat × List Nat
  | [] => (n, [])
  | d :: ds => if n * 10 + d < word then fill (n * 10 + d) ds else (n, d :: ds)

def powerOfTen (e : Nat) : Float := Float.ofScientific 1 false e

/-- Divides by `10 ^ e`, in steps of at most `10 ^ 308`; past two of them nothing is left of 64 bits. -/
def scaleDown (x : Float) (e : Nat) : Float :=
  if e ≤ 308 then x / powerOfTen e
  else if e ≤ 616 then x / powerOfTen 308 / powerOfTen (e - 308)
  else 0.0

/-- `none` when the value is past the range of doubles. -/
def scaleUp? (x : Float) (e : Nat) : Option Float :=
  if e ≤ 308 then
    let y := x * powerOfTen e
    if y.isInf then none else some y
  else if x == 0.0 then some x else none

def scale? (significand : Nat) (e : Int) : Option Float :=
  let x := significand.toUInt64.toFloat
  if e < 0 then some (scaleDown x e.natAbs) else scaleUp? x e.toNat

/-- An exponent this large is not computed with. -/
def exponentLimit : Nat := 0x80000000

def magnitude? (n : Numeral) : Option Float :=
  let (significand, uncounted) := fill 0 n.whole
  let (significand, unread) := fill significand n.fraction
  let shift : Int := uncounted.length - (n.fraction.length - unread.length : Nat)
  match n.exponent with
  | none => scale? significand shift
  | some (down, ds) =>
    let e := ofDigits ds
    if exponentLimit ≤ e then
      if significand == 0 || down then some 0.0 else none
    else
      scale? significand (if down then shift - e else shift + e)

/-- A whole number is an integer while it fits; the literal `-0` keeps its sign as a float. -/
def integer? (n : Numeral) : Option Int :=
  if n.fraction.isEmpty && n.exponent.isNone then
    let v := ofDigits n.whole
    if n.negative then
      if 0 < v && v ≤ word / 2 then some (-(v : Int)) else none
    else if v < word then some v else none
  else none

def value? (n : Numeral) : Option Json :=
  match n.integer? with
  | some v => some (.int v)
  | none => n.magnitude?.map fun x => .float (if n.negative then -x else x)

end Numeral

end ChatInference.Json
