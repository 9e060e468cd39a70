import ChargeScreening.Api.Basic
import ChargeScreening.Service.Startup
import ChargeScreening.Proofs.Authoring.Contest
import ChargeScreening.Proofs.Authoring.Sequence
import ChargeScreening.Proofs.Engine.Channels
import ChargeScreening.Proofs.Engine.Decisions
import ChargeScreening.Proofs.Engine.Faults
import ChargeScreening.Proofs.Engine.Isolation
import ChargeScreening.Proofs.Expression.Derivation
import ChargeScreening.Proofs.Rule.Meaning
import ChargeScreening.Proofs.Rule.Readback
import ChargeScreening.Proofs.Evaluation.Faults
import ChargeScreening.Proofs.Authoring.Stored
import ChargeScreening.Proofs.Engine.Recorded
import ChargeScreening.Proofs.Engine.Flagged
import ChargeScreening.Proofs.Engine.FreeForm
import ChargeScreening.Proofs.Json.Readback
import ChargeScreening.Proofs.Rule.Identity
import ChargeScreening.Proofs.Authoring.Duplicates
import ChargeScreening.Proofs.Expression.Canonical
import ChargeScreening.Proofs.Evaluation.Coherence
import ChargeScreening.Proofs.Evaluation.Duality
import ChargeScreening.Proofs.Evaluation.Footprint
import ChargeScreening.Proofs.Rule.Acceptance
import ChargeScreening.Proofs.Evaluation.Membership
import ChargeScreening.Proofs.Attributes.Search
import ChargeScreening.Proofs.Expression.Offsets
import ChargeScreening.Proofs.Expression.Spacing
import ChargeScreening.Proofs.Api.Statuses
