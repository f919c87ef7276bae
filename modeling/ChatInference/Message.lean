/-! Messages of a conversation. -/

namespace ChatInference

inductive Role where
  | system
  | user
  | assistant
  deriving DecidableEq, Inhabited

namespace Role

def name : Role → String
  | system => "system"
  | user => "user"
  | assistant => "assistant"

/-- Whoever has no other role is the user. -/
def ofName : String → Role
  | "system" => system
  | "assistant" => assistant
  | _ => user

end Role

structure Message where
  role : Role
  content : String
  deriving DecidableEq, Inhabited

end ChatInference
