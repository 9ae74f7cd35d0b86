import DailyBars.Main
import DailyBars.Proofs.Broker.SingleFlight
import DailyBars.Proofs.Collect.Completeness
import DailyBars.Proofs.Collect.Runs
import DailyBars.Proofs.Storage.LockExclusion
import DailyBars.Rehearsal.Client
import DailyBars.Rehearsal.Collector
import DailyBars.Rehearsal.Process
import DailyBars.Rehearsal.Script
import DailyBars.Settings.Written
import DailyBars.Proofs.Collect.Turns
import DailyBars.Proofs.Collect.Ends
import DailyBars.Proofs.Collect.Moves
import DailyBars.Proofs.Collect.Pages
import DailyBars.Proofs.Collect.Accounting
import DailyBars.Proofs.Collect.Keyset
import DailyBars.Proofs.Collect.Faithful
import DailyBars.Proofs.Collect.Recovery
import DailyBars.Proofs.Rehearsal.Faithful
import DailyBars.Proofs.Collect.Agreement
import DailyBars.Proofs.Collect.Isolation
import DailyBars.Proofs.Rehearsal.Agreement
import DailyBars.Proofs.Storage.LocalTable
import DailyBars.Proofs.Storage.LockAgreement
import DailyBars.Proofs.Collect.LockHistory
import DailyBars.Proofs.Collect.JobStages
import DailyBars.Proofs.Collect.LocalRuns
import DailyBars.Proofs.Broker.TokenTeam
import DailyBars.Proofs.Broker.TokenOwners
import DailyBars.Proofs.Broker.TokenEnds
import DailyBars.Proofs.Broker.TokenMargin
import DailyBars.Proofs.Broker.TokenThrift
import DailyBars.Proofs.Broker.PricePages
import DailyBars.Proofs.Collect.Gaps
import DailyBars.Proofs.Broker.Disclosure
import DailyBars.Proofs.Collect.WalkCalls
import DailyBars.Proofs.Collect.PageSequence
import DailyBars.Proofs.Collect.Window
import DailyBars.Proofs.Broker.PageDecoding
import DailyBars.Proofs.Broker.PacedCalls
import DailyBars.Proofs.Broker.PaceWindow
import DailyBars.Proofs.Collect.DailyRuns
import DailyBars.Proofs.Broker.TradeDates
import DailyBars.Proofs.Storage.Insertions
import DailyBars.Proofs.Collect.Alerts
import DailyBars.Proofs.Broker.ExpiryStamps
import DailyBars.Proofs.Market.BarJson
import DailyBars.Proofs.Settings.NamedAccount
