import ClaimQueue.Config.Source
import ClaimQueue.Json.Printer
import ClaimQueue.Log.Telemetry
import ClaimQueue.Message.Form
import ClaimQueue.Proofs.Config.Overlay
import ClaimQueue.Proofs.Crew.Failures
import ClaimQueue.Proofs.Crew.Idle
import ClaimQueue.Proofs.Crew.Races
import ClaimQueue.Proofs.Crew.Resending
import ClaimQueue.Proofs.Crew.Sessions
import ClaimQueue.Proofs.Crew.Sources
import ClaimQueue.Proofs.Policy.Faults
import ClaimQueue.Proofs.Send.Batches
import ClaimQueue.Proofs.Send.FrontEnds
import ClaimQueue.Proofs.Site.Refusals
import ClaimQueue.Proofs.Store.Fencing
import ClaimQueue.Proofs.Store.Lanes
import ClaimQueue.Proofs.Store.Progress
import ClaimQueue.Proofs.Store.Transparency
import ClaimQueue.Proofs.Store.Visibility
import ClaimQueue.Proofs.Upkeep.Floor
import ClaimQueue.Proofs.Upkeep.Liveness
import ClaimQueue.Proofs.Upkeep.Passing
import ClaimQueue.Proofs.Upkeep.Refreshing
import ClaimQueue.Proofs.Upkeep.Notice
import ClaimQueue.Proofs.Upkeep.Silence
import ClaimQueue.Proofs.Work.Deferral
import ClaimQueue.Proofs.Work.Recording
import ClaimQueue.Proofs.Work.Rounds
import ClaimQueue.Queue.Consumer
import ClaimQueue.Site.Form
