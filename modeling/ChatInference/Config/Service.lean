import ChatInference.Config.Logging
import ChatInference.Config.MemoryPolicy
import ChatInference.Config.Performance
import ChatInference.Json.Reader

/-!
The configuration of the whole service. Reading never fails: a document that is missing or no JSON
gives the defaults, and a section with an entry of the wrong kind gives the defaults of that section.
-/

namespace ChatInference

structure ServiceConfig where
  limits : Limits := {}
  memory : MemoryPolicy := {}
  logging : Logging := {}
  performance : Performance := {}
  deriving BEq, Inhabited

namespace ServiceConfig

/-- The memory section has an older name too, which counts only where the newer one is absent. -/
def memoryKey (root : Json) : String :=
  if (root.nested? "memory_policy").isSome then "memory_policy" else "memory"

def ofJson (root : Json) : ServiceConfig :=
  { limits := Limits.ofGiven ((Limits.Given.read? (root.sectionOf "backend")).getD {})
    memory := MemoryPolicy.ofGiven
      ((MemoryPolicy.Given.read? (root.sectionOf (memoryKey root))).getD {})
    logging := Logging.ofGiven ((Logging.Given.read? (root.sectionOf "logging")).getD {})
    performance := Performance.ofGiven
      ((Performance.Given.read? (root.sectionOf "performance")).getD {}) }

def parse (text : Option String) : ServiceConfig :=
  match (Text.supplied? text).bind Json.read? with
  | some root => ofJson root
  | none => {}

end ServiceConfig

end ChatInference
