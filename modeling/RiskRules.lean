import RiskRules.Environment.Outage
import RiskRules.Lifecycle
import RiskRules.Main
import RiskRules.Proofs.FailedWrites
import RiskRules.Proofs.Failures
import RiskRules.Proofs.Overrides
import RiskRules.Proofs.Readiness
import RiskRules.Proofs.Refinement
import RiskRules.Proofs.RoundTrip
import RiskRules.Proofs.Versions
import RiskRules.Store.Handle
import RiskRules.Workflow
import RiskRules.Proofs.IndexRequests
import RiskRules.Proofs.PendingIndexes
import RiskRules.Proofs.Serving
import RiskRules.Proofs.Histories
import RiskRules.Proofs.Shares
import RiskRules.Proofs.Confinement
import RiskRules.Proofs.Tenants
import RiskRules.Proofs.Footprints
import RiskRules.Proofs.ScoreAnswers
import RiskRules.Proofs.Faults
import RiskRules.Proofs.RuleOrder
import RiskRules.Proofs.Scenario
import RiskRules.Proofs.Signed64
import RiskRules.Proofs.Decoding
import RiskRules.Proofs.RecordDocuments
import RiskRules.Proofs.RulesetInvariants
import RiskRules.Proofs.Preparation
import RiskRules.Proofs.Comparisons
import RiskRules.Proofs.Acceptance
import RiskRules.Proofs.Blame
import RiskRules.Proofs.Gating
import RiskRules.Proofs.Mirroring
import RiskRules.Proofs.Redecoding
import RiskRules.Proofs.RuleScores
import RiskRules.Proofs.Staleness
import RiskRules.Proofs.RepeatedReads
import RiskRules.Proofs.IntegerArithmetic
import RiskRules.Proofs.TimestampArithmetic
import RiskRules.Proofs.RulesetDefinitions
import RiskRules.Proofs.FiniteEvaluation
import RiskRules.Proofs.Overriding
import RiskRules.Proofs.JsonFacts
import RiskRules.Proofs.CommandOutput
import RiskRules.Proofs.StorePaths
import RiskRules.Proofs.MissingParts
import RiskRules.Proofs.ShownOffsets
