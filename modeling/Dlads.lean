import Dlads.ByteText
import Dlads.Utf8Text
import Dlads.TextSearch
import Dlads.StringMaps
import Dlads.KeyedTable
import Dlads.KeyedItems
import Dlads.StepMachine
import Dlads.ErasedInputs
import Dlads.LossyChannel
import Dlads.CheckedViews
import Dlads.CivilCalendar
import Dlads.RangedArithmetic
import Dlads.FloatFormat
import Dlads.FloatRounding
import Dlads.JsonValue
import Dlads.JsonPrinting
import Dlads.JsonReading
import Dlads.JsonByHand
import Dlads.JsonValidity
import Dlads.JsonRoundTrip
import Dlads.DecimalPrinting
import Dlads.LineSplitting
import Dlads.Records
import Dlads.AlertWire
import Dlads.WireRoundTrip
import Dlads.WireTimestamps
import Dlads.LineParsing
import Dlads.KeyValueScan
import Dlads.SyslogLines
import Dlads.SyslogDecoding
import Dlads.TimestampYears
import Dlads.MessageSeparators
import Dlads.LineEncoding
import Dlads.KeyValueWriting
import Dlads.FailedAttempts
import Dlads.CheckedParser
import Dlads.LineAssembly
import Dlads.LogRotation
import Dlads.RotationDelivery
import Dlads.EveLines
import Dlads.EveTailing
import Dlads.EveExceptions
import Dlads.EveDelivery
import Dlads.EveTimestamps
import Dlads.RingStorage
import Dlads.YamlConfig
import Dlads.ConfigUpdate
import Dlads.YamlReaders
import Dlads.IndexedHistory
import Dlads.EventPartition
import Dlads.SourceAttribution
import Dlads.NginxClients
import Dlads.DetectionRules
import Dlads.NaiveScan
import Dlads.SudoHistory
import Dlads.CooldownGate
import Dlads.RuleDriver
import Dlads.RaisedAlerts
import Dlads.RuleArithmetic
import Dlads.RuleTallies
import Dlads.StaleEvents
import Dlads.StaleWindows
import Dlads.BackwardsScan
import Dlads.HistoryOrder
import Dlads.CooldownHistory
import Dlads.OffenderCooldown
import Dlads.AgentPipeline
import Dlads.AddressSeparation
import Dlads.SimulatedLogs
import Dlads.SimulatedAttacks
import Dlads.AttackPhases
import Dlads.PublishedTexts
import Dlads.AlertPublishing
import Dlads.LostMessages
import Dlads.PrintedAlerts
import Dlads.AgentProcesses
import Dlads.WindowQuorum
import Dlads.Correlation
import Dlads.CorrelationHistory
import Dlads.SourceSeparation
import Dlads.ThreatSeverity
import Dlads.ThreatSpacing
import Dlads.AlertDatabase
import Dlads.StoreTotals
import Dlads.DatabaseRestarts
import Dlads.SourceColumns
import Dlads.Registry
import Dlads.NodeLiveness
import Dlads.WatchdogReports
import Dlads.Heartbeats
import Dlads.RestBodies
import Dlads.DistributedRuns
import Dlads.ProcessPipeline
import Dlads.ProcessCrashes
import Dlads.AttackReports
import Dlads.ThreatProvenance
import Dlads.GracefulShutdown
import Dlads.Dashboard
import Dlads.OperatorView
import Dlads.FailureDetection
import Dlads.IdsSwap
import Dlads.SwapRollback
import Dlads.ConfigRequests
import Dlads.SwapLocking
import Dlads.WatchedLog
import Dlads.WorkerLifecycle
