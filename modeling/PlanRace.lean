import PlanRace.AllocationInvariants
import PlanRace.CloneNeutrality
import PlanRace.NearCopies
import PlanRace.PortfolioDiversity
import PlanRace.Library.Grouping
import PlanRace.Library.MerkleTree
import PlanRace.Library.Runs
import PlanRace.ReplayProtection
import PlanRace.TaskLifecycle
import PlanRace.CanonicalEncoding
import PlanRace.AuthAgreement
import PlanRace.ApiV2
import PlanRace.SubmissionAtomicity
import PlanRace.EvaluateOnce
import PlanRace.InvalidEvidence
import PlanRace.HardGates
import PlanRace.BenchmarkInvariance
import PlanRace.BreakdownPoint
import PlanRace.ChargedCosts
import PlanRace.RewardMonotonicity
import PlanRace.SubmissionRuns
import PlanRace.NonceStore
import PlanRace.QuantizedWeights
import PlanRace.WaterLevel
import PlanRace.StrategyIdentity
import PlanRace.SignerVerifier
import PlanRace.ExactMatch
import PlanRace.PreflightReadiness
import PlanRace.CreationRuns
import PlanRace.WinsorizedMean
import PlanRace.HoldoutReward
import PlanRace.Concentration
import PlanRace.RankAgreement
import PlanRace.WeightResolution
import PlanRace.ResponseHeaders
import PlanRace.FixtureDigest
import PlanRace.CanonicalDecimal
import PlanRace.Library.PythonValues
import PlanRace.EvidenceAudit
import PlanRace.Library.Draws
import PlanRace.FixtureGenerator
import PlanRace.Library.PropertyOrder
import PlanRace.ManifestBytes
import PlanRace.SimulationPairing
import PlanRace.RequestReplays
