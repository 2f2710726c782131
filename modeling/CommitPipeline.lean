import CommitPipeline.Json.Form
import CommitPipeline.Main
import CommitPipeline.Scenario.Bench.Report
import CommitPipeline.Scenario.Databases
import CommitPipeline.Scenario.Signals
import CommitPipeline.Proofs.Steady
import CommitPipeline.Proofs.Cycle
import CommitPipeline.Proofs.Operation
import CommitPipeline.Proofs.Boards
import CommitPipeline.Proofs.Loading
import CommitPipeline.Proofs.DurableRound
import CommitPipeline.Proofs.Tame
import CommitPipeline.Proofs.Tiling
import CommitPipeline.Proofs.CrashPoint
import CommitPipeline.Proofs.Releases
import CommitPipeline.Proofs.Sessions
import CommitPipeline.Proofs.Crew
import CommitPipeline.Proofs.Trimming
import CommitPipeline.Proofs.TailWindow
import CommitPipeline.Proofs.Restart
import CommitPipeline.Proofs.Frame
import CommitPipeline.Proofs.StoredRound
import CommitPipeline.Proofs.Alike
import CommitPipeline.Proofs.Moves
import CommitPipeline.Proofs.PickedRows
import CommitPipeline.Proofs.FailedCycle
import CommitPipeline.Proofs.Smooth
import CommitPipeline.Proofs.CrewCycle
import CommitPipeline.Proofs.CatchingUp
import CommitPipeline.Proofs.Talks
import CommitPipeline.Proofs.DroppedReports
import CommitPipeline.Proofs.Regression
import CommitPipeline.Proofs.DurableWaiters
import CommitPipeline.Proofs.Committed
import CommitPipeline.Proofs.SoleTail
import CommitPipeline.Proofs.Deliveries
import CommitPipeline.Proofs.TailRows
import CommitPipeline.Proofs.ReadableWindow
import CommitPipeline.Proofs.LookbackPromise
import CommitPipeline.Proofs.BulletinHistory
import CommitPipeline.Proofs.Abreast
import CommitPipeline.Proofs.Custody
import CommitPipeline.Proofs.StrandedMark
import CommitPipeline.Proofs.StrayCycles
import CommitPipeline.Proofs.SurvivingHistory
import CommitPipeline.Proofs.FollowUps
import CommitPipeline.Proofs.Courses
import CommitPipeline.Proofs.Hooks
import CommitPipeline.Proofs.JsonForms
import CommitPipeline.Proofs.JsonText
import CommitPipeline.Proofs.Halving
import CommitPipeline.Proofs.Narrowing
import CommitPipeline.Proofs.JointRange
import CommitPipeline.Proofs.HeldBack
import CommitPipeline.Proofs.HeaderChain
import CommitPipeline.Proofs.MissingBlocks
import CommitPipeline.Proofs.FailedLoad
import CommitPipeline.Proofs.LaterNotifications
import CommitPipeline.Proofs.RoundLimit
import CommitPipeline.Proofs.GaplessChain
import CommitPipeline.Proofs.DigestText
import CommitPipeline.Proofs.SummaryRows
import CommitPipeline.Proofs.PendingRounds
import CommitPipeline.Proofs.SignalHistory
import CommitPipeline.Proofs.Clamping
