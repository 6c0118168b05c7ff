import Automation.Json.Pointer
import Automation.Json.Reader
import Automation.Main
import Automation.Proofs.Passage.Scene
import Automation.Proofs.Passage.Flow
import Automation.Proofs.Suspension
import Automation.Proofs.Demand
import Automation.Proofs.Keeping
import Automation.Proofs.Transparency
import Automation.Proofs.Lone
import Automation.Proofs.Observation
import Automation.Proofs.Sky
import Automation.Proofs.Steady
import Automation.Proofs.Table
import Automation.Proofs.Endings
import Automation.Proofs.Roster
import Automation.Proofs.Solo
import Automation.Proofs.Refinement
import Automation.Proofs.History
import Automation.Proofs.Ledger
import Automation.Proofs.Halt
import Automation.Proofs.Parking
import Automation.Proofs.Evaluation
import Automation.Proofs.Consumption
import Automation.Proofs.Duplicates
import Automation.Proofs.Tale
import Automation.Proofs.Telling
import Automation.Proofs.Branches
import Automation.Proofs.Pending
import Automation.Proofs.Books
import Automation.Proofs.Booking
import Automation.Proofs.Calls
import Automation.Proofs.Dialogue
import Automation.Proofs.Chronicle
import Automation.Proofs.Moments
import Automation.Proofs.Standing
import Automation.Proofs.Visits
import Automation.Proofs.Owner
import Automation.Proofs.Places
import Automation.Proofs.Faithful
import Automation.Proofs.Folding
import Automation.Proofs.Scope
import Automation.Proofs.Cancellation
import Automation.Proofs.Naming
import Automation.Proofs.Sessions
import Automation.Proofs.Posture
import Automation.Proofs.Settling
import Automation.Proofs.Pendency
import Automation.Proofs.Likeness
import Automation.Proofs.Hygiene
import Automation.Proofs.Traffic
import Automation.Proofs.Gist
import Automation.Proofs.Failures
import Automation.Proofs.Forgetting
import Automation.Proofs.Blocks
import Automation.Proofs.Shortcut
import Automation.Proofs.Conjunction
import Automation.Proofs.Trail
import Automation.Proofs.Advance
import Automation.Proofs.Progress
import Automation.Proofs.Nulls
import Automation.Proofs.Patterns
import Automation.Proofs.Repeats
import Automation.Proofs.Rounding
import Automation.Proofs.Numerals
import Automation.Proofs.Readability
import Automation.Proofs.Variables
import Automation.Proofs.Marks
import Automation.Proofs.Expansion
import Automation.Proofs.Documents
import Automation.Proofs.Entries
import Automation.Proofs.Tags
import Automation.Proofs.Globals
import Automation.Proofs.Legality
import Automation.Proofs.Hearing
import Automation.Proofs.Levels
import Automation.Proofs.Bearings
import Automation.Proofs.Loans
import Automation.Proofs.Fairness
import Automation.Proofs.Custody
