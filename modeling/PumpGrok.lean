import PumpGrok.Lib.Runs
import PumpGrok.Lib.Prog
import PumpGrok.Lib.Raises
import PumpGrok.Lib.Dict
import PumpGrok.Lib.DictMap
import PumpGrok.Lib.PyText
import PumpGrok.Lib.ByteReader
import PumpGrok.Lib.Json
import PumpGrok.Core.Ids
import PumpGrok.Core.ToolCalls
import PumpGrok.Ledger.Accounting
import PumpGrok.Ledger.Units
import PumpGrok.Ledger.Valuation
import PumpGrok.Ledger.HashChain
import PumpGrok.Ledger.ExportOnce
import PumpGrok.Ledger.Tickets
import PumpGrok.Ledger.Openings
import PumpGrok.Execution.Stretches
import PumpGrok.Execution.OrderRows
import PumpGrok.Execution.CurveMath
import PumpGrok.Execution.RoundTrip
import PumpGrok.Risk.RefreshAgain
import PumpGrok.Risk.Cooldown
import PumpGrok.Desk.System
import PumpGrok.Desk.Moves
import PumpGrok.Desk.Books
import PumpGrok.Desk.Orders
import PumpGrok.Desk.Outcomes
import PumpGrok.Desk.Repeats
import PumpGrok.Desk.Cancel
import PumpGrok.Desk.Marks
import PumpGrok.Desk.Spending
import PumpGrok.Desk.Limits
import PumpGrok.Desk.Restarts
import PumpGrok.Desk.OrderEnds
import PumpGrok.Desk.SingleSend
import PumpGrok.Desk.Stops
import PumpGrok.Desk.PeakEquity
import PumpGrok.Desk.Blind
import PumpGrok.Desk.Exits
import PumpGrok.Desk.FillGuards
import PumpGrok.Desk.ApprovedFills
import PumpGrok.Desk.Simulate
import PumpGrok.Ledger.OwnCosts
import PumpGrok.Risk.Approvals
import PumpGrok.Risk.HaltClear
import PumpGrok.Risk.ExitWalk
import PumpGrok.Risk.CheckRaises
import PumpGrok.Risk.KillVerdict
import PumpGrok.Risk.HaltLatch
import PumpGrok.Risk.LossBasis
import PumpGrok.Risk.Latch
import PumpGrok.Risk.AlertOffsets
import PumpGrok.Tools.Notifier
import PumpGrok.Tools.NotifierOnce
import PumpGrok.Tools.PumpEventCodec
import PumpGrok.Tools.ScoreReport
import PumpGrok.Tools.ScoreVerdict
import PumpGrok.Engine.MonitorRuns
import PumpGrok.Engine.Reputation
import PumpGrok.Engine.Exits
import PumpGrok.Supervisor.ExitBook
import PumpGrok.Supervisor.PeakRestart
import PumpGrok.Supervisor.UnknownSells
import PumpGrok.Backtest.Trials
import PumpGrok.Upgrade.ActiveSet
import PumpGrok.Backtest.Search
import PumpGrok.Backtest.Windows
import PumpGrok.Backtest.EquityPath
import PumpGrok.Reporting.Readings
import PumpGrok.Reporting.Realized
import PumpGrok.Reporting.Drawdown
import PumpGrok.Replay.Clock
import PumpGrok.Supervisor.Rollover
import PumpGrok.Supervisor.RolloverDays
import PumpGrok.Supervisor.SeatRelay
import PumpGrok.Supervisor.Resume
import PumpGrok.Supervisor.LatchRebuilt
import PumpGrok.Supervisor.Degraded
import PumpGrok.Supervisor.SeatRestart
