import Turnstile.Bench.Rehearsal
import Turnstile.Environment
import Turnstile.Main
import Turnstile.Proofs.Bench.Sessions
import Turnstile.Proofs.Card.Truncation
import Turnstile.Proofs.Command.Named
import Turnstile.Proofs.Command.Numeric
import Turnstile.Proofs.Controller.Answers
import Turnstile.Proofs.Controller.Deadlines
import Turnstile.Proofs.Controller.Decisions
import Turnstile.Proofs.Controller.Feeding
import Turnstile.Proofs.Controller.Flight
import Turnstile.Proofs.Controller.Health
import Turnstile.Proofs.Controller.Lifecycle
import Turnstile.Proofs.Controller.Listening
import Turnstile.Proofs.Controller.Presence
import Turnstile.Proofs.Controller.Repeats
import Turnstile.Proofs.Controller.Replies
import Turnstile.Proofs.Controller.Reporting
import Turnstile.Proofs.Controller.Unreadable
import Turnstile.Proofs.Desk.Asking
import Turnstile.Proofs.Environment.Quoted
import Turnstile.Proofs.Gate.Timing
import Turnstile.Proofs.Json.Written
import Turnstile.Proofs.Outputs.Runs
import Turnstile.Proofs.Reader.Echoes
import Turnstile.Proofs.Reader.LastFailure
import Turnstile.Proofs.Reader.WriteBlock
import Turnstile.Proofs.Scan.Junk
import Turnstile.Proofs.Scan.Pieces
import Turnstile.Proofs.Scan.Rest
import Turnstile.Proofs.Settings.Rereading
import Turnstile.Proofs.Settings.Restart
import Turnstile.Proofs.Settings.Unsaved
import Turnstile.Proofs.Simulation.Atomic
import Turnstile.Proofs.Simulation.Checksum
import Turnstile.Register.Spi
