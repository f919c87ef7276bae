/-! JSON values: members by key, integers apart from other numbers. -/

namespace ChatInference

inductive Json where
  | null
  | bool (b : Bool)
  /-- A numeral without fraction or exponent that fits a signed or an unsigned 64-bit word. -/
  | int (n : Int)
  /-- Any other numeral. -/
  | float (x : Float)
  | str (s : String)
  | arr (items : List Json)
  /-- No key occurs twice in a value that was read. -/
  | obj (members : List (String × Json))
  deriving Inhabited

namespace Json

def get? (key : String) : Json → Option Json
  | obj members => members.lookup key
  | _ => none

def isObj : Json → Bool
  | obj _ => true
  | _ => false

/-- The nested object of that name, if the value has one. -/
def nested? (root : Json) (key : String) : Option Json :=
  (root.get? key).filter isObj

/-- The nested object of that name, or the value itself: older documents are flat. -/
def sectionOf (root : Json) (key : String) : Json :=
  (root.nested? key).getD root

/-- A later member replaces an earlier one of the same key. -/
def insertMember (members : List (String × Json)) (key : String) (v : Json) :
    List (String × Json) :=
  members.filter (·.1 != key) ++ [(key, v)]

/-- The non-empty strings among some values. -/
def texts (items : List Json) : List String :=
  items.filterMap fun
    | str s => if s.isEmpty then none else some s
    | _ => none

end Json

end ChatInference
