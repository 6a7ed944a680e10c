import TimingEye.Board.Script
import TimingEye.BuildFlags.Configuration
import TimingEye.Calibration.ProbeTable
import TimingEye.Phy.Script
import TimingEye.Proofs.Calibration.Path
import TimingEye.Proofs.Calibration.Answers
import TimingEye.Proofs.Calibration.Course
import TimingEye.Proofs.Calibration.Calls
import TimingEye.Proofs.Calibration.CallOrder
import TimingEye.Proofs.Calibration.Decision
import TimingEye.Proofs.LossyMemory
import TimingEye.Proofs.Phy.Timing
import TimingEye.Proofs.Phy.Accesses
import TimingEye.Proofs.Phy.Drivers
import TimingEye.Proofs.Phy.Ledger
import TimingEye.Proofs.Phy.ProbeTiming
import TimingEye.Proofs.Calibration.Reporting
import TimingEye.Proofs.Calibration.Narrative
import TimingEye.Proofs.Calibration.ReadBack
import TimingEye.Proofs.Calibration.Effort
import TimingEye.Proofs.Phy.Room
import TimingEye.Proofs.Calibration.Uniform
import TimingEye.Proofs.Phy.SteadyMemory
import TimingEye.Proofs.Phy.Forgetting
import TimingEye.Proofs.Board.Frame
import TimingEye.Proofs.Simulation
import TimingEye.Proofs.Board.Mirror
import TimingEye.Proofs.Board.Line
import TimingEye.Proofs.Board.Going
import TimingEye.Proofs.Board.Waiting
import TimingEye.Proofs.Board.Sparing
import TimingEye.Proofs.Board.Outcome
import TimingEye.Proofs.Board.Speaking
import TimingEye.Proofs.Board.Telling
import TimingEye.Proofs.Board.Transcript
import TimingEye.Proofs.Board.FirstLogger
import TimingEye.Proofs.Board.Footprint
import TimingEye.Proofs.Board.Following
import TimingEye.Proofs.Board.Aftermath
import TimingEye.Proofs.Calibration.Trust
import TimingEye.Proofs.Calibration.Survey
import TimingEye.Proofs.Calibration.Limits
import TimingEye.Proofs.Calibration.Bounds
import TimingEye.Proofs.Phy.TapCounters
import TimingEye.Proofs.Board.Alike
import TimingEye.Proofs.Board.BackPressure
import TimingEye.Proofs.Board.Readings
import TimingEye.Proofs.Board.WaitLength
import TimingEye.Proofs.Text.Encoding
import TimingEye.Proofs.Board.LineEndings
import TimingEye.Proofs.Board.Delivery
import TimingEye.Proofs.Board.LogLines
import TimingEye.Proofs.Board.Timekeeping
import TimingEye.Proofs.BuildFlags.Lines
import TimingEye.Proofs.Text.Trimming
import TimingEye.Proofs.BuildFlags.Flags
import TimingEye.Proofs.BuildFlags.Paths
import TimingEye.Proofs.BuildFlags.Report
import TimingEye.Proofs.BuildFlags.Gateware
import TimingEye.Proofs.Phy.DelaySetting
import TimingEye.Proofs.Operations
import TimingEye.Proofs.Phy.Operations
