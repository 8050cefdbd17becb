import AgencC.Harness.Report
import AgencC.Str.Find
import AgencC.Str.Split
import AgencC.Str.Formatting
import AgencC.Str.Replacement
import AgencC.Str.Aliasing
import AgencC.Str.Reservation
import AgencC.Str.Growth
import AgencC.Str.Buffer
import AgencC.Str.Mutators
import AgencC.Str.Ownership
import AgencC.Str.Capacity
import AgencC.Str.Commit
import AgencC.Str.Outcomes
import AgencC.Str.Temporaries
import AgencC.Str.Text
import AgencC.Str.Lifecycle
import AgencC.Str.Atomicity
import AgencC.Str.Machine
import AgencC.Str.MachineProperties
import AgencC.Str.Cleanup
import AgencC.Str.Observers
import AgencC.Str.Store
import AgencC.Str.Queries
import AgencC.Arena.Account
import AgencC.Arena.Accounting
import AgencC.Arena.Integrity
import AgencC.Arena.Poisoning
import AgencC.Arena.Depth
import AgencC.Arena.Movements
import AgencC.Arena.Rewind
import AgencC.Arena.Basic
import AgencC.Arena.Blocks
import AgencC.Arena.Books
import AgencC.Arena.Calls
import AgencC.Arena.Parent
import AgencC.Arena.Logging
import AgencC.Arena.Decision
import AgencC.Arena.Requests
import AgencC.Arena.Reallocation
import AgencC.Arena.Failure
import AgencC.Arena.Borrowing
import AgencC.Arena.Resetting
import AgencC.Arena.Doubling
import AgencC.Arena.Cells
import AgencC.Arena.Conduct
import AgencC.Arena.Custody
import AgencC.Arena.Image
import AgencC.Arena.Marks
import AgencC.Arena.Session
import AgencC.Arena.Soundness
import AgencC.Arena.Service
import AgencC.Arena.Spans
import AgencC.Arena.Sparing
import AgencC.Arena.Recall
import AgencC.Arena.Lending
import AgencC.Arena.Traffic
import AgencC.Arena.Tenancy
import AgencC.Arena.Start
import AgencC.Arena.Storage
import AgencC.Arena.Growth
import AgencC.Arena.Resizing
import AgencC.Arena.Unwinding
import AgencC.Arena.Scopes
import AgencC.Arena.Ledger
import AgencC.Arena.Refinement
import AgencC.Library.TapReader
import AgencC.Library.Lcg
import AgencC.Library.Strtoull
import AgencC.Library.XorShift
import AgencC.Harness.Execution
import AgencC.Harness.Replay
import AgencC.Harness.Tap
import AgencC.Harness.Registration
import AgencC.Str.Content
import AgencC.Str.Insertion
import AgencC.Arena.Placing
import AgencC.Arena.Pairs
import AgencC.Arena.Echoes
import AgencC.Arena.Cycles
import AgencC.Arena.Fixed
import AgencC.Harness.Isolation
import AgencC.Harness.Junit
import AgencC.Harness.Landing
import AgencC.Library.Lexicographic
import AgencC.Str.Order
import AgencC.Harness.Diagnostics
import AgencC.Harness.Generator
import AgencC.Harness.Transcript
import AgencC.Arena.Contract
import AgencC.Arena.Libc
import AgencC.Arena.Adapter
import AgencC.Arena.Tower
import AgencC.Arena.Fleet
import AgencC.Arena.Misuse
import AgencC.Arena.Detection
import AgencC.Arena.Fuzz
import AgencC.Arena.Upkeep
import AgencC.Arena.Shadow
import AgencC.Arena.Driving
import AgencC.Arena.Fuzzing
