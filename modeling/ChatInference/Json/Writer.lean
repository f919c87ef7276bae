import ChatInference.Json.Basic

/-! Building documents from values. -/

namespace ChatInference.Json

def nat (n : Nat) : Json := int n

def single (x : Float32) : Json := float x.toFloat

def option {α : Type} (f : α → Json) : Option α → Json
  | some x => f x
  | none => null

def list {α : Type} (f : α → Json) (xs : List α) : Json := arr (xs.map f)

end ChatInference.Json
