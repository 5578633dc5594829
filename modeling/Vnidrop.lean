import Vnidrop.TargetedStateMachine
import Vnidrop.ProviderRevocation
import Vnidrop.ProviderBlock
import Vnidrop.InvitationApproval
import Vnidrop.InvitationReceipt
import Vnidrop.TargetedCalls
import Vnidrop.TargetedCompletion
import Vnidrop.TargetedTermination
import Vnidrop.TargetedRows
import Vnidrop.TargetedPreparation
import Vnidrop.TargetedRestore
import Vnidrop.TargetedSecrets
import Vnidrop.PairingBlock
import Vnidrop.PairingGenerations
import Vnidrop.PairingSlots
import Vnidrop.PairingExpiry
import Vnidrop.PairingNotice
import Vnidrop.PairingFreshness
import Vnidrop.PairingSingleUse
import Vnidrop.IdentityCooldown
import Vnidrop.HonestOffers
import Vnidrop.TargetedBytes
import Vnidrop.InboxCalls
import Vnidrop.InboxDecisions
import Vnidrop.ReceivedHistory
import Vnidrop.SecretCustody
import Vnidrop.TargetedRedelivery
import Vnidrop.TargetedReceiving
import Vnidrop.ResumedExports
import Vnidrop.ReceiveUnwinding
import Vnidrop.InboxSettlement
import Vnidrop.Identifiers
import Vnidrop.EventHistory
import Vnidrop.OutputPaths
import Vnidrop.ReceiverLifecycle
import Vnidrop.InboxBounds
import Vnidrop.TransferHistory
import Vnidrop.IdentityReset
import Vnidrop.DiagnosticsStorage
import Vnidrop.AtomicOutputLife
import Vnidrop.Tickets
import Vnidrop.DeliveryReceipts
import Vnidrop.PreparationGate
import Vnidrop.FileUrls
import Vnidrop.RedactedJson
import Vnidrop.RedactedText
import Vnidrop.CooldownLaw
import Vnidrop.HistoryDeletion
import Vnidrop.LogRotation
import Vnidrop.Transcripts
import Vnidrop.BugPayloads
import Vnidrop.EventQueue
import Vnidrop.TargetedRetries
import Vnidrop.IdentityStability
import Vnidrop.AndroidDurability
import Vnidrop.Profiles
import Vnidrop.DirectoryExportRuns
