import ChatInference.Json.Basic

/-!
Records of optional entries. A record is an object, or an array with exactly one item per key in
the order of the keys; an absent entry and `null` are the same, and an entry of the wrong kind
refuses the record.
-/

namespace ChatInference.Json

/-- What stands under each key of a record. -/
abbrev Entries := String → Option Json

def entries? (keys : List String) : Json → Option Entries
  | obj members => some fun key => members.lookup key
  | arr items =>
    if items.length = keys.length then some fun key => (keys.zip items).lookup key else none
  | _ => none

/-- An entry of one kind: `none` when it is there and is not of that kind. -/
def Entries.read {α : Type} (es : Entries) (key : String) (kind : Json → Option α) :
    Option (Option α) :=
  match es key with
  | none | some null => some none
  | some v => (kind v).map some

/-! Kinds of entries. -/

def bool? : Json → Option Bool
  | bool b => some b
  | _ => none

def str? : Json → Option String
  | str s => some s
  | _ => none

def arr? : Json → Option (List Json)
  | arr items => some items
  | _ => none

/-- An integer between two bounds, both included. -/
def intIn? (lo hi : Int) : Json → Option Int
  | int n => if lo ≤ n ∧ n ≤ hi then some n else none
  | _ => none

def int32? : Json → Option Int := intIn? (-0x80000000) 0x7fffffff

def int64? : Json → Option Int := intIn? (-0x8000000000000000) 0x7fffffffffffffff

def word32? (v : Json) : Option Nat := (intIn? 0 0xffffffff v).map Int.toNat

def intToDouble (n : Int) : Float :=
  if 0 ≤ n then n.toNat.toUInt64.toFloat else n.toInt64.toFloat

def intToSingle (n : Int) : Float32 := .ofModel (.ofInt n)

/-- The single nearest to a double, the even one of two. -/
def doubleToSingle (x : Float) : Float32 :=
  .ofModel (.pack (match x.toModel.unpack with
    | .finite sign mantissa exponent _ =>
      .round .binary32 sign mantissa exponent
    | other => other))

def double? : Json → Option Float
  | int n => some (intToDouble n)
  | float x => some x
  | _ => none

/-- An integer is rounded to a single at once, not by way of a double. -/
def single? : Json → Option Float32
  | int n => some (intToSingle n)
  | float x => some (doubleToSingle x)
  | _ => none

end ChatInference.Json
