import Rehearsal.Main
import Rehearsal.Operation.History
import Rehearsal.Operation.Listing
import Rehearsal.Operation.Race
import Rehearsal.Retry.Race
import Rehearsal.Rpc.Channel
import Rehearsal.Rpc.Vigil
import Rehearsal.Proofs.Operation.Completion
import Rehearsal.Proofs.Operation.Outcome
import Rehearsal.Proofs.Retry.Replay
import Rehearsal.Proofs.Paging.Walk
import Rehearsal.Proofs.Wire.RoundTrip
import Rehearsal.Proofs.Message.Pages
import Rehearsal.Proofs.Client.Pages
import Rehearsal.Proofs.Retry.Positions
import Rehearsal.Proofs.Service.Refusal
import Rehearsal.Proofs.Rpc.Refusal
import Rehearsal.Proofs.Operation.Page
import Rehearsal.Proofs.Operation.Walk
import Rehearsal.Proofs.Operation.GrowingWalk
import Rehearsal.Proofs.Operation.ShrinkingWalk
import Rehearsal.Proofs.Message.Operation
import Rehearsal.Proofs.Rpc.Session
import Rehearsal.Proofs.Rpc.Success
import Rehearsal.Proofs.Rpc.Failure
import Rehearsal.Proofs.Operation.Plan
import Rehearsal.Proofs.Rpc.Configured
import Rehearsal.Proofs.Rpc.Planned
import Rehearsal.Proofs.Message.Requests
import Rehearsal.Proofs.Rpc.Convention
import Rehearsal.Rpc.Lookout
import Rehearsal.Proofs.Rpc.Lookout
import Rehearsal.Proofs.Rpc.Patience
import Rehearsal.Proofs.Rpc.Channel
import Rehearsal.Proofs.Rpc.Streams
import Rehearsal.Proofs.Service.Names
import Rehearsal.Proofs.Rpc.Oversleep
import Rehearsal.Proofs.Paging.Request
import Rehearsal.Proofs.Service.Independence
import Rehearsal.Proofs.Operation.Listing
import Rehearsal.Client.Polling
import Rehearsal.Proofs.Client.Polling
import Rehearsal.Proofs.Text.Words
import Rehearsal.Proofs.Message.Timestamp
import Rehearsal.Proofs.Rpc.Expansion
import Rehearsal.Proofs.Rpc.Remaining
import Rehearsal.Proofs.Client.ResourceName
import Rehearsal.Proofs.Message.Duration
import Rehearsal.Proofs.Paging.Token
