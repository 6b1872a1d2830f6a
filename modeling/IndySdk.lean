import IndySdk.ReportedValues
import IndySdk.WalletSearch
import IndySdk.CatchupCompleteness
import IndySdk.SingleAnswers
import IndySdk.CredentialLifeCycle
import IndySdk.LedgerIdCodec
import IndySdk.DidRuns
import IndySdk.PoolLifecycle
import IndySdk.RotationSafety
import IndySdk.RevocationPublication
import IndySdk.ConsistencyBinding
import IndySdk.InclusionProof
import IndySdk.CatchupRobustness
import IndySdk.GenesisCache
import IndySdk.ProverAgreement
import IndySdk.PluggedQueryCodec
import IndySdk.FullOutcomes
import IndySdk.CatchupTarget
import IndySdk.SignatureCoverage
import IndySdk.FetchCounts
import IndySdk.MyDidAtomicity
import IndySdk.MultiSignature
import IndySdk.StateProofTotality
import IndySdk.NetworkerRuns
import IndySdk.MessageTypeCodec
import IndySdk.PaymentBalance
import IndySdk.CredentialIssuance
import IndySdk.TailsFailures
import IndySdk.PaymentReports
import IndySdk.VerifierData
import IndySdk.RevocationStateReuse
import IndySdk.PairwiseAtomicity
import IndySdk.CommandLineCodec
import IndySdk.ProofRequest
import IndySdk.InviteAbbreviation
import IndySdk.PaymentGrammar
import IndySdk.VerkeyAbbreviation
import IndySdk.BlobIntegrity
import IndySdk.BulkStatusUpdate
import IndySdk.HandlerTotality
import IndySdk.SingleCreation
import IndySdk.PaymentsCallbacks
import IndySdk.PollAttribution
import IndySdk.MetadataLayouts
import IndySdk.StoredDecoding
import IndySdk.TagCodec
import IndySdk.UnpackTotality
import IndySdk.NodeListBuilding
import IndySdk.PendingWallets
import IndySdk.RekeySafety
import IndySdk.StreamRoundTrip
import IndySdk.CredentialTags
