import RobotLang.Cursor
import RobotLang.Decimal
import RobotLang.Execution
import RobotLang.Main
import RobotLang.Proofs.Evaluation.Denotation
import RobotLang.Proofs.Evaluation.Quotient
import RobotLang.Proofs.Evaluation.Reads
import RobotLang.Proofs.Execution.Counted
import RobotLang.Proofs.Execution.CutShort
import RobotLang.Proofs.Execution.Endless
import RobotLang.Proofs.Execution.Faults
import RobotLang.Proofs.Execution.Logged
import RobotLang.Proofs.Execution.Termination
import RobotLang.Proofs.Execution.Unrolling
import RobotLang.Proofs.FailurePlace
import RobotLang.Proofs.FailureText
import RobotLang.Proofs.Joining
import RobotLang.Proofs.Layout
import RobotLang.Proofs.LineEnds
import RobotLang.Proofs.Lines
import RobotLang.Proofs.Literals
import RobotLang.Proofs.LookAhead
import RobotLang.Proofs.Outcomes
import RobotLang.Proofs.Progress
import RobotLang.Proofs.Reasons
import RobotLang.Proofs.Requests
import RobotLang.Proofs.RoundTrip
import RobotLang.Proofs.Session.Delivery
import RobotLang.Proofs.Session.Stored
import RobotLang.Proofs.Token.Composition
import RobotLang.Robot.Metered
import RobotLang.Session
