import ChatInference.Config.Limits

/-! How a prompt is fed to the model. -/

namespace ChatInference

structure Performance where
  /-- Feeds the head of a prompt in one pass, up to `batchSize` tokens. -/
  batchProcessing : Bool := true
  batchSize : Nat := 512
  deriving DecidableEq, Inhabited

namespace Performance

structure Given where
  batchProcessing : Option Bool := none
  batchSize : Option Int := none

def keys : List String := ["batch_processing", "batch_size"]

def Given.read? (v : Json) : Option Given := do
  let es ← v.entries? keys
  return {
    batchProcessing := ← es.read "batch_processing" Json.bool?
    batchSize := ← es.read "batch_size" Json.int64? }

def ofGiven (g : Given) : Performance :=
  { batchProcessing := g.batchProcessing.getD true
    batchSize := Config.natIn 1 2048 512 g.batchSize }

end Performance

end ChatInference
