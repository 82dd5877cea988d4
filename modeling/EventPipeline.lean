import EventPipeline.Main
import EventPipeline.Plugin.Rehearsal
import EventPipeline.Proofs.Rules.Goto
import EventPipeline.Proofs.Rules.Precedence
import EventPipeline.Proofs.Rules.Counting
import EventPipeline.Proofs.Rules.Operands
import EventPipeline.Proofs.Rules.Tokens
import EventPipeline.Proofs.Engine.Sequence
import EventPipeline.Proofs.Engine.Pace
import EventPipeline.Proofs.Engine.Sequential
import EventPipeline.Proofs.Engine.Journeys
import EventPipeline.Proofs.Supervision.Display
import EventPipeline.Proofs.Lifecycle.Rollback
import EventPipeline.Proofs.Lifecycle.Rounds
import EventPipeline.Proofs.Lifecycle.Serving
import EventPipeline.Proofs.Lifecycle.Custody
import EventPipeline.Proofs.Config.Comments
import EventPipeline.Proofs.Config.Periods
import EventPipeline.Proofs.Engine.Construction
import EventPipeline.Proofs.Rules.Halves
import EventPipeline.Proofs.Rules.Joining
import EventPipeline.Proofs.Rules.Parentheses
import EventPipeline.Proofs.Rules.Registration
import EventPipeline.Proofs.Rules.RuleFiles
import EventPipeline.Proofs.Network.Membership
import EventPipeline.Proofs.Rules.Ranges
import EventPipeline.Proofs.Rules.Anchoring
import EventPipeline.Proofs.Rules.Scopes
import EventPipeline.Proofs.Rules.Equality
import EventPipeline.Proofs.Engine.Tables
import EventPipeline.Proofs.Rules.Splitting
import EventPipeline.Proofs.Text.Converting
import EventPipeline.Proofs.Rules.Ordering
import EventPipeline.Proofs.Rules.ByteTokens
