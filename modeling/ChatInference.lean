import ChatInference.Config.Document
import ChatInference.Keyed.Lemmas
import ChatInference.Model.Document
import ChatInference.Proofs.Cache.ContextShift
import ChatInference.Proofs.Service.Switch
import ChatInference.Service.Boundary
import ChatInference.Proofs.Queue.Accounting
import ChatInference.Proofs.Keyed.Keys
import ChatInference.Proofs.Session.Search
import ChatInference.Proofs.Session.Census
import ChatInference.Proofs.Service.Frames
import ChatInference.Proofs.Service.Admission
import ChatInference.Proofs.Service.Calls
import ChatInference.Proofs.Cache.Rollback
import ChatInference.Proofs.Service.Turns
import ChatInference.Proofs.Service.Collecting
import ChatInference.Proofs.Queue.Ids
import ChatInference.Proofs.Service.Handover
import ChatInference.Proofs.Service.Mailroom
import ChatInference.Proofs.Service.Answers
import ChatInference.Proofs.Session.Overlap
import ChatInference.Proofs.Cache.Incremental
import ChatInference.Proofs.Service.Delivery
import ChatInference.Proofs.Service.WholeCalls
import ChatInference.Proofs.Cache.Order
import ChatInference.Proofs.Cache.Upkeep
import ChatInference.Proofs.Cache.Trimming
import ChatInference.Proofs.Service.Loads
import ChatInference.Proofs.Service.Lineage
import ChatInference.Proofs.Cache.Preparation
import ChatInference.Proofs.Cache.Projection
import ChatInference.Proofs.Session.Numbering
import ChatInference.Proofs.Session.Tally
import ChatInference.Proofs.Session.Precedence
import ChatInference.Proofs.Session.Freshness
import ChatInference.Proofs.Session.Transcript
import ChatInference.Proofs.Service.Tasks
import ChatInference.Proofs.Service.Tenancy
import ChatInference.Proofs.Service.Chronicle
import ChatInference.Proofs.Service.Exchanges
import ChatInference.Proofs.Engine.Sequences
import ChatInference.Proofs.Service.Parts
import ChatInference.Proofs.Service.Occupancy
import ChatInference.Proofs.Service.Positions
import ChatInference.Proofs.Cache.Head
import ChatInference.Proofs.Cache.Hits
import ChatInference.Proofs.Service.Outstanding
import ChatInference.Proofs.Service.Arguments
import ChatInference.Proofs.Prompt.BuiltIn
import ChatInference.Proofs.Cache.Renumbering
import ChatInference.Proofs.Decode.Course
import ChatInference.Proofs.Decode.Limits
import ChatInference.Proofs.Text.Search
import ChatInference.Proofs.Decode.Feeding
import ChatInference.Proofs.Decode.Stops
import ChatInference.Proofs.Engine.Replies
import ChatInference.Proofs.Queue.Order
import ChatInference.Proofs.Queue.Fairness
import ChatInference.Proofs.Queue.Expiry
import ChatInference.Proofs.Queue.Cancelling
import ChatInference.Proofs.Cache.Refusals
import ChatInference.Proofs.Cache.Counting
import ChatInference.Proofs.Json.Members
import ChatInference.Proofs.Model.Entries
import ChatInference.Proofs.Json.Singles
import ChatInference.Proofs.Model.Negatives
import ChatInference.Proofs.Model.Parameters
import ChatInference.Proofs.Model.Spellings
import ChatInference.Proofs.Model.Acceptance
import ChatInference.Proofs.Model.Merging
import ChatInference.Proofs.Model.Chains
import ChatInference.Proofs.Model.Overriding
import ChatInference.Proofs.Config.Bounds
import ChatInference.Proofs.Decode.Penalties
import ChatInference.Proofs.Cache.Edits
import ChatInference.Proofs.Cache.Ranges
import ChatInference.Proofs.Cache.StoredOrder
import ChatInference.Proofs.Cache.Ingestion
