import ChatInference.Config.Limits
import ChatInference.Error
import ChatInference.Text.Blank

/-! What the log shows and where it goes. -/

namespace ChatInference

inductive LogLevel where
  | debug
  | info
  | warn
  | error
  | fatal
  deriving DecidableEq, Inhabited

namespace LogLevel

def name : LogLevel → String
  | debug => "debug"
  | info => "info"
  | warn => "warn"
  | error => "error"
  | fatal => "fatal"

def ofName? : String → Option LogLevel
  | "debug" => some debug
  | "info" => some info
  | "warn" => some warn
  | "error" => some error
  | "fatal" => some fatal
  | _ => none

def parse (text : String) : Except Error LogLevel :=
  match ofName? text with
  | some l => .ok l
  | none => .error (.invalidArgument ("unknown log level '" ++ text ++ "'"))

end LogLevel

structure Logging where
  level : LogLevel := .info
  debugEnabled : Bool := false
  timestamps : Bool := true
  colors : Bool := false
  file : Option String := none
  deriving DecidableEq, Inhabited

namespace Logging

/-- The least severe level shown: there is none above `error`. -/
def directive (l : Logging) : String :=
  if l.debugEnabled then "debug"
  else match l.level with
    | .fatal => "error"
    | level => level.name

structure Given where
  level : Option String := none
  debugEnabled : Option Bool := none
  timestamps : Option Bool := none
  colors : Option Bool := none
  file : Option String := none

def keys : List String := ["level", "enable_debug", "timestamps", "colors", "file"]

def Given.read? (v : Json) : Option Given := do
  let es ← v.entries? keys
  return {
    level := ← es.read "level" Json.str?
    debugEnabled := ← es.read "enable_debug" Json.bool?
    timestamps := ← es.read "timestamps" Json.bool?
    colors := ← es.read "colors" Json.bool?
    file := ← es.read "file" Json.str? }

/-- A file name of white space is none; any other is kept as given. -/
def ofGiven (g : Given) : Logging :=
  { level := (g.level.bind LogLevel.ofName?).getD .info
    debugEnabled := g.debugEnabled.getD false
    timestamps := g.timestamps.getD true
    colors := g.colors.getD false
    file := g.file.filter fun f => (Text.supplied? (some f)).isSome }

end Logging

end ChatInference
