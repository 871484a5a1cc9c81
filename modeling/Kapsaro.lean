import Kapsaro.JsonText
import Kapsaro.JsonMembers
import Kapsaro.JsonRecords
import Kapsaro.TextLines
import Kapsaro.Limits
import Kapsaro.JsonLimits
import Kapsaro.Base64Codec
import Kapsaro.WireTexts
import Kapsaro.WireModel
import Kapsaro.DocumentTokens
import Kapsaro.KvLines
import Kapsaro.KvDocument
import Kapsaro.TokenRecords
import Kapsaro.Framing
import Kapsaro.Envelope
import Kapsaro.SignedArtifacts
import Kapsaro.KvDraft
import Kapsaro.KeyedList
import Kapsaro.FileDocument
import Kapsaro.JsonSize
import Kapsaro.Recipients
import Kapsaro.KvSession
import Kapsaro.RewrapPlan
import Kapsaro.KvRewrap
import Kapsaro.FileRewrap
import Kapsaro.ToyCrypto
import Kapsaro.ToyDocuments
import Kapsaro.KeyPossession
import Kapsaro.ToyRewraps
import Kapsaro.FileAgreement
import Kapsaro.ContentBinding
import Kapsaro.TrustStore
import Kapsaro.TrustRecords
import Kapsaro.TrustApprovals
import Kapsaro.TrustSoundness
import Kapsaro.ToyTrust
import Kapsaro.TrustJudgment
import Kapsaro.TrustPolicy
import Kapsaro.TrustEvaluation
import Kapsaro.SignerTrust
import Kapsaro.ApprovalRecords
import Kapsaro.ReviewStages
import Kapsaro.ReviewProgress
import Kapsaro.ReviewLoop
import Kapsaro.TrustDocument
import Kapsaro.TrustTransaction
import Kapsaro.Interleaving
import Kapsaro.TrustInterleaving
import Kapsaro.MemberStore
import Kapsaro.MemberOperations
import Kapsaro.MemberInvariants
import Kapsaro.MemberRuns
import Kapsaro.PromotionRetry
import Kapsaro.TextScan
import Kapsaro.Dotenv
import Kapsaro.FormatDetection
import Kapsaro.KvMutation
import Kapsaro.KvDisclosure
import Kapsaro.KeyProtection
import Kapsaro.ContextBindings
import Kapsaro.RemovalSafety
import Kapsaro.ReviewedRemoval
import Kapsaro.KeystoreReads
import Kapsaro.StepPrograms
import Kapsaro.KeystoreChanges
import Kapsaro.KeystoreMarker
import Kapsaro.KeystoreSafety
import Kapsaro.KeystoreSelection
import Kapsaro.TrustPurge
import Kapsaro.RemovalHistory
import Kapsaro.Base64Variants
import Kapsaro.KidTexts
import Kapsaro.DecryptionKeys
import Kapsaro.LengthPrefix
import Kapsaro.SshWire
import Kapsaro.KeyAttestation
import Kapsaro.JsonScan
import Kapsaro.JsonGrammar
import Kapsaro.StrictJson
import Kapsaro.StrictValues
import Kapsaro.KvAuthority
import Kapsaro.RewrapOutcome
import Kapsaro.HistoryRuns
import Kapsaro.DisplayText
import Kapsaro.RewrapKeys
import Kapsaro.KvWriteLimits
import Kapsaro.MutationReview
import Kapsaro.SharedPrograms
import Kapsaro.MutationCommit
import Kapsaro.MutationRuns
import Kapsaro.SealedStores
import Kapsaro.KvStore
import Kapsaro.KvLifetimes
import Kapsaro.FileEncryption
import Kapsaro.FileLifetimes
import Kapsaro.KeyGeneration
import Kapsaro.KeyUnlock
import Kapsaro.KeyDocuments
import Kapsaro.LocalKeys
import Kapsaro.KeyExpiry
import Kapsaro.KeyStorage
import Kapsaro.KeySizes
import Kapsaro.IndexedPrograms
import Kapsaro.GenerateCommand
import Kapsaro.KeyProgress
import Kapsaro.KeyHistories
