import ChatInference.Json.Record

/-! How urgent a queued turn is. -/

namespace ChatInference

inductive Priority where
  | low
  | normal
  | high
  | urgent
  deriving DecidableEq, Inhabited

namespace Priority

def name : Priority → String
  | low => "low"
  | normal => "normal"
  | high => "high"
  | urgent => "urgent"

def ofName? : String → Option Priority
  | "low" => some low
  | "normal" => some normal
  | "high" => some high
  | "urgent" => some urgent
  | _ => none

/-- A name, or an object whose only key is a name and holds `null`. -/
def ofJson? : Json → Option Priority
  | .str s => ofName? s
  | .obj [(key, .null)] => ofName? key
  | _ => none

end Priority

end ChatInference
