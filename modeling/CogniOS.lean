import CogniOS.JsonValue
import CogniOS.JsonText
import CogniOS.Utf8
import CogniOS.Sha256
import CogniOS.LedgerText
import CogniOS.Runs
import CogniOS.FileLock
import CogniOS.WorkspaceRuns
import CogniOS.TaskHistory
import CogniOS.Prerequisites
import CogniOS.StaleProjection
import CogniOS.VerificationRuns
import CogniOS.TrustScheduling
import CogniOS.RestatementAgreement
import CogniOS.Base64
import CogniOS.HashChain
import CogniOS.WrittenJson
import CogniOS.LedgerV2
import CogniOS.BrokerProtocol
import CogniOS.NonceStore
import CogniOS.FileStore
import CogniOS.JournalRecord
import CogniOS.VerifierJournal
import CogniOS.JournalRecovery
import CogniOS.VerifierService
import CogniOS.SqlTable
import CogniOS.MonitorStore
import CogniOS.JsValue
import CogniOS.MonitorSignature
import CogniOS.MonitorIngest
import CogniOS.MonitorDocument
import CogniOS.Rounding
import CogniOS.MonitorSections
import CogniOS.PublisherSections
import CogniOS.SectionAgreement
import CogniOS.EvidenceArchive
import CogniOS.ArchiveRuns
import CogniOS.ModelFamily
import CogniOS.IdentityRegistry
import CogniOS.JsonRead
import CogniOS.EnvelopeEncoding
import CogniOS.LineFile
import CogniOS.StoreRecords
import CogniOS.LedgerStore
import CogniOS.StoreHistory
import CogniOS.StoreAdmission
import CogniOS.StoreRuns
import CogniOS.BuiltRecords
import CogniOS.StoreProgress
import CogniOS.PaddedEnvelopes
import CogniOS.AppendOutcome
import CogniOS.AppendErrors
import CogniOS.StoreLimits
import CogniOS.StoreOverflow
import CogniOS.BrokerFrames
import CogniOS.Provenance
import CogniOS.VerifierProtocol
import CogniOS.ReceiptRuns
import CogniOS.StateProgram
import CogniOS.LeaseGuard
import CogniOS.BrokerDaemon
