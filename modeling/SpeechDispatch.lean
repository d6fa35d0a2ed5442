import SpeechDispatch.Table
import SpeechDispatch.Quantity
import SpeechDispatch.Error
import SpeechDispatch.Text.Blank
import SpeechDispatch.Text.Bytes
import SpeechDispatch.Json.Number
import SpeechDispatch.Message.Envelope
import SpeechDispatch.Message.Registration
import SpeechDispatch.Message.WorkItem
import SpeechDispatch.Message.FailureNotice
import SpeechDispatch.Task
import SpeechDispatch.Worker
import SpeechDispatch.Matching.Cost
import SpeechDispatch.WorkerRegistry
import SpeechDispatch.TaskRegistry
import SpeechDispatch.DispatchState
import SpeechDispatch.Metrics
import SpeechDispatch.Pass
import SpeechDispatch.Detection
import SpeechDispatch.Intake
import SpeechDispatch.Queue.Recorder
import SpeechDispatch.Service
import SpeechDispatch.Threshold
import SpeechDispatch.Json.Tree
import SpeechDispatch.Config.Reading
import SpeechDispatch.Config.Wiring
import SpeechDispatch.Lookup.Profile
import SpeechDispatch.Url.Basic
import SpeechDispatch.Config.Validation
import SpeechDispatch.Lookup.Duration
import SpeechDispatch.Queue.Setup
import SpeechDispatch.Shutdown
import SpeechDispatch.Message.Samples
import SpeechDispatch.Decimal.Shortest
import SpeechDispatch.Toml.Tree
import SpeechDispatch.Toml.Writer
import SpeechDispatch.Config.Loading
import SpeechDispatch.Amqp.Queue
import SpeechDispatch.Startup
import SpeechDispatch.LogFilter
import SpeechDispatch.CommandLine
import SpeechDispatch.Program
import SpeechDispatch.Main
import SpeechDispatch.Proofs.Table
import SpeechDispatch.Proofs.WorkerRegistry
import SpeechDispatch.Proofs.Snapshot
import SpeechDispatch.Proofs.DispatchState
import SpeechDispatch.Proofs.Run
import SpeechDispatch.Proofs.Move
import SpeechDispatch.Proofs.EventMoves
import SpeechDispatch.Proofs.Phase
import SpeechDispatch.Proofs.BusyWorkers
import SpeechDispatch.Proofs.WorkerLife
import SpeechDispatch.Proofs.Ledger
import SpeechDispatch.Proofs.Submissions
import SpeechDispatch.Proofs.Loss
import SpeechDispatch.Proofs.DetectionRound
import SpeechDispatch.Proofs.Cost
import SpeechDispatch.Proofs.Retries
import SpeechDispatch.Proofs.Transcript
import SpeechDispatch.Proofs.Faults
import SpeechDispatch.Proofs.PassMatching
import SpeechDispatch.Proofs.BestFit
import SpeechDispatch.Proofs.Timeline
import SpeechDispatch.Proofs.Overtaking
import SpeechDispatch.Proofs.Ageing
import SpeechDispatch.Proofs.PassProgress
import SpeechDispatch.Proofs.WakeUps
import SpeechDispatch.Proofs.JsonRecord
import SpeechDispatch.Proofs.Messages
import SpeechDispatch.Proofs.KnownFields
import SpeechDispatch.Proofs.Provenance
import SpeechDispatch.Proofs.Depot
import SpeechDispatch.Proofs.OutletInvariant
import SpeechDispatch.Proofs.Redelivery
import SpeechDispatch.Proofs.ShutdownOrder
import SpeechDispatch.Proofs.RegistryRun
import SpeechDispatch.Proofs.Liveness
import SpeechDispatch.Proofs.SnapshotOrder
import SpeechDispatch.Proofs.FailedSettlement
import SpeechDispatch.Proofs.Settlement
import SpeechDispatch.Proofs.TextCuts
import SpeechDispatch.Proofs.Masking
import SpeechDispatch.Proofs.UrlText
import SpeechDispatch.Proofs.Validation
import SpeechDispatch.Proofs.QueueSetup
import SpeechDispatch.Proofs.PercentText
import SpeechDispatch.Proofs.UrlPath
import SpeechDispatch.Proofs.ItemAddress
import SpeechDispatch.Proofs.Thresholds
import SpeechDispatch.Proofs.Doubles
import SpeechDispatch.Proofs.DurationLookup
import SpeechDispatch.Proofs.Inspection
import SpeechDispatch.Proofs.Layers
import SpeechDispatch.Proofs.SettingsReading
import SpeechDispatch.Proofs.Decimals
import SpeechDispatch.Proofs.Overrides
import SpeechDispatch.Proofs.Packing
import SpeechDispatch.Proofs.TomlScalars
import SpeechDispatch.Proofs.TomlText
import SpeechDispatch.Proofs.ShortestDecimals
import SpeechDispatch.Proofs.DecimalReading
import SpeechDispatch.Proofs.TomlTokens
import SpeechDispatch.Proofs.TomlStatements
import SpeechDispatch.Proofs.TomlBuilding
import SpeechDispatch.Proofs.SettingsText
import SpeechDispatch.Proofs.DoubleNumbers
import SpeechDispatch.Proofs.RegistryForm
import SpeechDispatch.Proofs.BusyTimes
