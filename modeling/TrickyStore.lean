import TrickyStore.Lib.HashMap
import TrickyStore.Lib.Machine
import TrickyStore.Lib.Crash
import TrickyStore.Lib.Hex
import TrickyStore.Lib.Watch
import TrickyStore.Lib.Logged
import TrickyStore.Lib.Cursor
import TrickyStore.Lib.Unwinding
import TrickyStore.Lib.Reader
import TrickyStore.Lib.Assignments
import TrickyStore.Lib.Text
import TrickyStore.Lib.Decimal
import TrickyStore.Lib.Markup
import TrickyStore.Lib.Bytes
import TrickyStore.Lib.Der
import TrickyStore.Lib.Buffer
import TrickyStore.Lib.Framed
import TrickyStore.Model.Keystore
import TrickyStore.Model.KeyGenParameters
import TrickyStore.Model.CertificateAliasCache
import TrickyStore.Model.Operation
import TrickyStore.Lib.SortBy
import TrickyStore.Lib.Triple
import TrickyStore.Model.Config
import TrickyStore.Model.ConfigFiles
import TrickyStore.Model.Persistence
import TrickyStore.Model.KeyFile
import TrickyStore.Model.Daemon
import TrickyStore.Model.PatchLevels
import TrickyStore.Model.SecurityLevelInterceptor
import TrickyStore.Model.Keystore2Interceptor
import TrickyStore.Model.World
import TrickyStore.Model.ConfigWatch
import TrickyStore.Native.BinderStub
import TrickyStore.Model.ByteParcel
import TrickyStore.Native.WireFormat
import TrickyStore.Model.CertificateHack
import TrickyStore.Model.KeystoreInterceptor
import TrickyStore.Model.KeyboxXml
import TrickyStore.Model.KeyboxReload
import TrickyStore.Model.EntryReply
import TrickyStore.Native.TransactionQueue
import TrickyStore.Native.ReadBuffer
import TrickyStore.Native.Injector
import TrickyStore.Model.AttestationExtension
import TrickyStore.Model.ApplicationId
import TrickyStore.Proof.AtMostOnce
import TrickyStore.Proof.HookStep
import TrickyStore.Proof.HookFrame
import TrickyStore.Proof.GenerateKey
import TrickyStore.Proof.Entries
import TrickyStore.Proof.Sequential
import TrickyStore.Proof.LastCreator
import TrickyStore.Proof.PlainAuto
import TrickyStore.Proof.Startup
import TrickyStore.Proof.PassthroughPairing
import TrickyStore.Proof.ForgedRequests
import TrickyStore.Proof.GrantAccess
import TrickyStore.Proof.UsageLimit
import TrickyStore.Proof.DiskAgreement
import TrickyStore.Proof.ReadPaths
import TrickyStore.Proof.PassthroughTracking
import TrickyStore.Proof.Transparency
import TrickyStore.Proof.ListingAgreement
import TrickyStore.Proof.PagedListing
import TrickyStore.Proof.StartingPhase
import TrickyStore.Proof.OwnershipExclusive
import TrickyStore.Proof.Representation
import TrickyStore.Proof.RepresentationRuns
import TrickyStore.Proof.HistoricalOwners
import TrickyStore.Proof.SameOwners
import TrickyStore.Proof.AloofHooks
import TrickyStore.Proof.KeystoreDomains
import TrickyStore.Proof.Handlers
import TrickyStore.Proof.UidView
import TrickyStore.Proof.UidHandlers
import TrickyStore.Proof.OtherUids
import TrickyStore.Proof.UidIsolation
import TrickyStore.Proof.Reload
import TrickyStore.Proof.CurrentFiles
import TrickyStore.Proof.RestartObservation
import TrickyStore.Proof.KeyFileRoundTrip
import TrickyStore.Proof.CrashSafety
import TrickyStore.Proof.ConfigConvergence
import TrickyStore.Proof.WireFormat
import TrickyStore.Proof.TransactionQueue
import TrickyStore.Proof.ReadBuffer
import TrickyStore.Proof.InjectorRegisters
import TrickyStore.Proof.LegacyAuto
import TrickyStore.Proof.LegacyPairs
import TrickyStore.Proof.DeletedKeys
import TrickyStore.Proof.FailedGeneration
import TrickyStore.Proof.KeyboxReplacement
import TrickyStore.Proof.ResignedEntry
import TrickyStore.Proof.GrantedUpdate
import TrickyStore.Proof.ClearedKeys
import TrickyStore.Proof.OperationLifetime
import TrickyStore.Proof.MetadataAgreement
import TrickyStore.Proof.EcCurves
import TrickyStore.Proof.OperationParameters
import TrickyStore.Proof.AttestationRewrite
import TrickyStore.Proof.ResignedPatchLevels
import TrickyStore.Proof.DesignatedAttestKey
import TrickyStore.Proof.TargetGrammar
import TrickyStore.Proof.PatchDates
import TrickyStore.Proof.PatchLevelFile
import TrickyStore.Proof.ApplicationId
import TrickyStore.Proof.KeyboxElements
import TrickyStore.Lib.WriteOnce
import TrickyStore.Model.TeeProbe
import TrickyStore.Proof.TeeVerdict
import TrickyStore.Model.LegacyCalls
import TrickyStore.Proof.LegacyCalls
import TrickyStore.Proof.LegacyKeyPairs
import TrickyStore.Proof.LegacyAliases
import TrickyStore.Model.KeyDirectory
import TrickyStore.Model.DeviceSecrets
import TrickyStore.Proof.StableSecrets
import TrickyStore.Model.AttestData
import TrickyStore.Proof.AttestData
import TrickyStore.Model.AttestedFacts
import TrickyStore.Proof.AttestedFacts
import TrickyStore.Native.Registration
import TrickyStore.Proof.Registration
import TrickyStore.Model.OperationEngines
import TrickyStore.Proof.OperationData
import TrickyStore.Proof.ForgedSignatures
import TrickyStore.Model.Supervision
import TrickyStore.Proof.Supervision
import TrickyStore.Lib.LazyCell
import TrickyStore.Model.TeeBootstrap
import TrickyStore.Proof.TeeBootstrap
import TrickyStore.Model.CachedAttestData
import TrickyStore.Proof.CachedAttestData
import TrickyStore.Lib.Scanf
import TrickyStore.Native.Maps
import TrickyStore.Proof.Maps
import TrickyStore.Model.TeeClassifier
import TrickyStore.Proof.TeeClassifier
