import CardGame.Effect.Roster
import CardGame.Format.Report
import CardGame.Proofs.Collection
import CardGame.Proofs.Decision
import CardGame.Proofs.Facet
import CardGame.Proofs.Failure
import CardGame.Proofs.Seat
import CardGame.Proofs.Zone.Consistency
import CardGame.Proofs.Game.Core
import CardGame.Proofs.Game.Sound
import CardGame.Proofs.Game.Alter
import CardGame.Proofs.Game.Furnished
import CardGame.Proofs.Projection.Alike
import CardGame.Proofs.Projection.Core
import CardGame.Proofs.Projection.Control
import CardGame.Proofs.Projection.ClosedForm
import CardGame.Proofs.Projection.FaceDown
import CardGame.Proofs.Projection.Stages
import CardGame.Proofs.Projection.Bonuses
import CardGame.Proofs.Effect.Flatten
import CardGame.Proofs.Effect.Compulsory
import CardGame.Proofs.Effect.Chance
import CardGame.Proofs.Resolve.Direct
import CardGame.Proofs.Resolve.Action
import CardGame.Proofs.Resolve.Asking
import CardGame.Proofs.Resolve.Families
import CardGame.Proofs.Resolve.Library
import CardGame.Proofs.Resolve.Plan
import CardGame.Proofs.Resolve.Resume
import CardGame.Proofs.Resolve.Woven
import CardGame.Proofs.Resolve.Blameless
import CardGame.Proofs.Resolve.Pairing
import CardGame.Proofs.Resolve.Deed
import CardGame.Proofs.Resolve.Stakes
import CardGame.Proofs.Resolve.Posing
import CardGame.Proofs.Resolve.Stopping
import CardGame.Proofs.Resolve.Counting
import CardGame.Proofs.Resolve.Success
import CardGame.Proofs.Resolve.Carrying
import CardGame.Proofs.Resolve.GivingUp
import CardGame.Proofs.Resolve.Paying
import CardGame.Proofs.Resolve.Gathering
import CardGame.Proofs.Resolve.Dealing
import CardGame.Proofs.Resolve.Certain
import CardGame.Proofs.Play.Course
import CardGame.Proofs.Play.Reachable
import CardGame.Proofs.Play.Invariant
import CardGame.Proofs.Play.ControlStack
import CardGame.Proofs.Play.Custody
import CardGame.Proofs.Play.Timestamps
import CardGame.Proofs.Play.Status
import CardGame.Proofs.Play.Flattening
import CardGame.Proofs.Play.Consent
import CardGame.Proofs.Play.Decisions
import CardGame.Proofs.Play.Account
import CardGame.Proofs.Play.Replay
import CardGame.Proofs.Play.Ledger
import CardGame.Proofs.Play.Answering
import CardGame.Proofs.Play.Asked
import CardGame.Proofs.Play.Cards
import CardGame.Proofs.Play.Remains
import CardGame.Proofs.Play.SourceBound
import CardGame.Proofs.Play.Waiting
import CardGame.Proofs.Play.Declined
import CardGame.Proofs.Target.Selection
import CardGame.Proofs.Target.Legal
import CardGame.Proofs.Play.Arranged
import CardGame.Proofs.Play.MassDestruction
import CardGame.Proofs.Play.Searching
import CardGame.Proofs.Projection.Shields
import CardGame.Proofs.Play.Payment
import CardGame.Proofs.Play.InTurn
import CardGame.Proofs.Play.Untouched
import CardGame.Proofs.Play.Pumping
import CardGame.Proofs.Projection.Elsewhere
import CardGame.Proofs.Play.Division
import CardGame.Proofs.Play.Ending
import CardGame.Proofs.Play.Regeneration
import CardGame.Proofs.Resolve.Sharing
import CardGame.Proofs.Play.Sharing
import CardGame.Proofs.Resolve.Shelving
import CardGame.Proofs.Play.Perusal
import CardGame.Proofs.Resolve.Governed
import CardGame.Proofs.Resolve.Total
import CardGame.Proofs.Play.Unfailing
import CardGame.Proofs.Machine.Typed
import CardGame.Proofs.Machine.Reading
import CardGame.Proofs.Machine.Projecting
import CardGame.Proofs.Machine.Mirror
import CardGame.Proofs.Machine.Action
import CardGame.Proofs.Machine.Acting
import CardGame.Proofs.Machine.Choosing
import CardGame.Proofs.Machine.Families
import CardGame.Proofs.Machine.Library
import CardGame.Proofs.Machine.Effect
import CardGame.Proofs.Machine.Answer
import CardGame.Proofs.Machine.Play
import CardGame.Proofs.Machine.Running
import CardGame.Proofs.Game.Failing
import CardGame.Proofs.Game.Departing
import CardGame.Proofs.Play.Lasting
import CardGame.Proofs.Game.Sweeping
import CardGame.Proofs.Projection.Tracked
import CardGame.Proofs.Play.Census
import CardGame.Proofs.Resolve.AtRandom
import CardGame.Proofs.Play.AtRandom
import CardGame.Proofs.Target.Optional
import CardGame.Proofs.Zone.Operations
