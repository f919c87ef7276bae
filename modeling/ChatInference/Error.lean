import ChatInference.Json.Writer

/-! Failures of the service, their texts, and the numeric status of each. -/

namespace ChatInference

/-- What an engine reports. -/
inductive EngineError where
  | modelLoad (detail : String)
  | tokenization (detail : String)
  | inference (detail : String)
  | notLoaded
  deriving DecidableEq, Inhabited

def EngineError.message : EngineError → String
  | modelLoad detail => "model load failed: " ++ detail
  | tokenization detail => "tokenization failed: " ++ detail
  | inference detail => "inference failed: " ++ detail
  | notLoaded => "no model loaded"

def EngineError.name : EngineError → String
  | modelLoad _ => "ModelLoad"
  | tokenization _ => "Tokenization"
  | inference _ => "Inference"
  | notLoaded => "NotLoaded"

def EngineError.toJson (e : EngineError) : Json :=
  .obj [("error", .str e.name), ("message", .str e.message)]

inductive Error where
  | invalidArgument (detail : String)
  | resourceExhausted (detail : String)
  | concurrencyLimitExceeded (active limit : Nat)
  | timeout (detail : String)
  | runtime (detail : String)
  | alreadyInProgress
  | unstable (detail : String)
  | notFound (detail : String)
  | cancelled
  deriving DecidableEq, Inhabited

/-- The status of a call, as a number to callers that know no other form of failure. -/
inductive Status where
  | success
  | invalidArgument
  | invalidEncoding
  | timeout
  | runtimeError
  | unsupportedOperation
  | tooLarge
  | notFound
  | resourceExhausted
  | concurrencyLimitExceeded
  | alreadyInProgress
  | unstable
  | cancelled
  deriving DecidableEq, Inhabited

namespace Status

def all : List Status :=
  [success, invalidArgument, invalidEncoding, timeout, runtimeError, unsupportedOperation,
    tooLarge, notFound, resourceExhausted, concurrencyLimitExceeded, alreadyInProgress, unstable,
    cancelled]

def name : Status → String
  | success => "Success"
  | invalidArgument => "InvalidArgument"
  | invalidEncoding => "InvalidEncoding"
  | timeout => "Timeout"
  | runtimeError => "RuntimeError"
  | unsupportedOperation => "UnsupportedOperation"
  | tooLarge => "TooLarge"
  | notFound => "NotFound"
  | resourceExhausted => "ResourceExhausted"
  | concurrencyLimitExceeded => "ConcurrencyLimitExceeded"
  | alreadyInProgress => "AlreadyInProgress"
  | unstable => "Unstable"
  | cancelled => "Cancelled"

/-- Failures by capacity, state or cancellation have numbers from 100 up. -/
def code : Status → Nat
  | success => 0
  | invalidArgument => 1
  | invalidEncoding => 2
  | timeout => 3
  | runtimeError => 4
  | unsupportedOperation => 5
  | tooLarge => 6
  | notFound => 7
  | resourceExhausted => 100
  | concurrencyLimitExceeded => 101
  | alreadyInProgress => 102
  | unstable => 103
  | cancelled => 104

def ofCode? (code : Nat) : Option Status := all.find? (·.code == code)

def message : Status → String
  | success => "success"
  | invalidArgument => "invalid argument"
  | invalidEncoding => "invalid encoding (expected UTF-8)"
  | timeout => "operation timed out"
  | runtimeError => "runtime error in the inference engine"
  | unsupportedOperation => "unsupported operation"
  | tooLarge => "output does not fit in the provided buffer"
  | notFound => "session, task or graph not found"
  | resourceExhausted => "session or queue capacity exhausted"
  | concurrencyLimitExceeded => "too many concurrently active sessions"
  | alreadyInProgress => "a model switch is already in progress"
  | unstable => "backend unstable: model switch and restore both failed"
  | cancelled => "task was cancelled before it started"

/-- The text for a number, known or not. -/
def messageOfCode (code : Nat) : String :=
  ((ofCode? code).map message).getD "unknown error code"

end Status

namespace Error

def ofEngine (e : EngineError) : Error := runtime e.message

def message : Error → String
  | invalidArgument detail => "invalid argument: " ++ detail
  | resourceExhausted detail => "resource exhausted: " ++ detail
  | concurrencyLimitExceeded active limit =>
    s!"concurrency limit exceeded ({active}/{limit} active sessions)"
  | timeout detail => "timed out: " ++ detail
  | runtime detail => "runtime error: " ++ detail
  | alreadyInProgress => "model switch already in progress"
  | unstable detail => "backend unstable: " ++ detail
  | notFound detail => "not found: " ++ detail
  | cancelled => "task cancelled"

def status : Error → Status
  | invalidArgument _ => .invalidArgument
  | resourceExhausted _ => .resourceExhausted
  | concurrencyLimitExceeded _ _ => .concurrencyLimitExceeded
  | timeout _ => .timeout
  | runtime _ => .runtimeError
  | alreadyInProgress => .alreadyInProgress
  | unstable _ => .unstable
  | notFound _ => .notFound
  | cancelled => .cancelled

/-- The name of the failure, which is that of its status but for the general one. -/
def name (e : Error) : String :=
  match e.status with
  | .runtimeError => "Runtime"
  | status => status.name

def toJson (e : Error) : Json :=
  .obj [("error", .str e.name), ("message", .str e.message), ("code", .nat e.status.code)]

end Error

end ChatInference
