import AtmMonitor.AppendedLines
import AtmMonitor.BlockAccounts
import AtmMonitor.BlockComposition
import AtmMonitor.BlockPartition
import AtmMonitor.BlockPlaces
import AtmMonitor.BlockRanges
import AtmMonitor.BlockTwins
import AtmMonitor.BreakerRuns
import AtmMonitor.BrowserDate
import AtmMonitor.CallRuns
import AtmMonitor.CameraResolution
import AtmMonitor.CappedReading
import AtmMonitor.CardNumbers
import AtmMonitor.CaseBlindness
import AtmMonitor.CaseTwins
import AtmMonitor.CashReadings
import AtmMonitor.CassetteParser
import AtmMonitor.ChannelNames
import AtmMonitor.ColumnOwners
import AtmMonitor.CountRows
import AtmMonitor.CountSections
import AtmMonitor.DatabaseModels
import AtmMonitor.Decimal
import AtmMonitor.DeviceRegistry
import AtmMonitor.DeviceTable
import AtmMonitor.DiskCap
import AtmMonitor.Duplicates
import AtmMonitor.EjParser
import AtmMonitor.EncodedLines
import AtmMonitor.EntryPoints
import AtmMonitor.EventPatterns
import AtmMonitor.EventProcessor
import AtmMonitor.EventTransaction
import AtmMonitor.FailureIsolation
import AtmMonitor.FileHistory
import AtmMonitor.FileStateInvariant
import AtmMonitor.FileUtils
import AtmMonitor.FiledJournal
import AtmMonitor.HeaderEntries
import AtmMonitor.HeaderLines
import AtmMonitor.HeaderReading
import AtmMonitor.HeaderSearch
import AtmMonitor.HeaderSnapshots
import AtmMonitor.HeaderText
import AtmMonitor.HealthMonitor
import AtmMonitor.Incremental
import AtmMonitor.Ingestion
import AtmMonitor.Ledger
import AtmMonitor.LetterCase
import AtmMonitor.Library.Binary64
import AtmMonitor.Library.ComparatorSort
import AtmMonitor.Library.EarliestWins
import AtmMonitor.Library.FirstWins
import AtmMonitor.Library.LineSearch
import AtmMonitor.Library.Lines
import AtmMonitor.Library.Matching
import AtmMonitor.Library.OptimisticCell
import AtmMonitor.Library.Preferred
import AtmMonitor.Library.Regex
import AtmMonitor.Library.Runs
import AtmMonitor.Library.Sections
import AtmMonitor.Library.StableSort
import AtmMonitor.Library.Tally
import AtmMonitor.Library.UnitOfWork
import AtmMonitor.Library.Upsert
import AtmMonitor.LiveCash
import AtmMonitor.LiveConsistency
import AtmMonitor.LiveFrame
import AtmMonitor.LiveStatus
import AtmMonitor.LockedJournal
import AtmMonitor.LowCash
import AtmMonitor.MaskedOperations
import AtmMonitor.MockResolutions
import AtmMonitor.NcrDatetime
import AtmMonitor.NewestEvent
import AtmMonitor.NvrCheck
import AtmMonitor.OffsetCommit
import AtmMonitor.OutageBudget
import AtmMonitor.OutageCount
import AtmMonitor.ParseClock
import AtmMonitor.ParsedBlocks
import AtmMonitor.ParserModels
import AtmMonitor.ParserService
import AtmMonitor.PingCheck
import AtmMonitor.PrintedCassettes
import AtmMonitor.PrintedHeader
import AtmMonitor.PrintedJournal
import AtmMonitor.PrintedLines
import AtmMonitor.PrintedMessages
import AtmMonitor.PrintedRows
import AtmMonitor.PrintedText
import AtmMonitor.ProcessingCounts
import AtmMonitor.PyText
import AtmMonitor.RawEvents
import AtmMonitor.RecentNodes
import AtmMonitor.RecordingDate
import AtmMonitor.RepeatedUpdate
import AtmMonitor.ReplacedJournal
import AtmMonitor.Replay
import AtmMonitor.Repositories
import AtmMonitor.RetryLoop
import AtmMonitor.ScanLock
import AtmMonitor.ScanTiming
import AtmMonitor.ServedDevices
import AtmMonitor.SettingsCache
import AtmMonitor.SnapshotOwners
import AtmMonitor.SnapshotRouting
import AtmMonitor.SplitLines
import AtmMonitor.StatusConcurrency
import AtmMonitor.StoreKeys
import AtmMonitor.StreamDocuments
import AtmMonitor.StreamSettings
import AtmMonitor.SupervisorOverride
import AtmMonitor.SupervisorParser
import AtmMonitor.TextLines
import AtmMonitor.ToldJournal
import AtmMonitor.TrimmedLines
import AtmMonitor.XmlElements
