import HttpSuite.Main
import HttpSuite.Proofs.Reading
import HttpSuite.Proofs.Reading.Program
import HttpSuite.Proofs.Parse
import HttpSuite.Proofs.Progress
import HttpSuite.Proofs.Escape
import HttpSuite.Proofs.Lexing
import HttpSuite.Proofs.RoundTrip
import HttpSuite.Proofs.Literals
import HttpSuite.Proofs.Literals.Junit
import HttpSuite.Proofs.Literals.Rust
import HttpSuite.Proofs.Literals.Suite
import HttpSuite.Proofs.LexicalGrammar
import HttpSuite.Proofs.Layout
import HttpSuite.Proofs.Layout.Frames
import HttpSuite.Proofs.Acceptance
import HttpSuite.Proofs.Acceptance.FirstViolation
import HttpSuite.Proofs.Layout.Blocks
import HttpSuite.Proofs.Layout.Functions
import HttpSuite.Proofs.Response
import HttpSuite.Proofs.Locals
import HttpSuite.Proofs.Recovery
import HttpSuite.Proofs.Recovery.Dialects
import HttpSuite.Proofs.Recovery.Suite
import HttpSuite.Proofs.Placeholder
import HttpSuite.Proofs.Reordering
import HttpSuite.Proofs.Substitution
import HttpSuite.Proofs.Substitution.OnePass
import HttpSuite.Proofs.Substitution.Unused
import HttpSuite.Proofs.Substitution.Table
import HttpSuite.Proofs.Calls
import HttpSuite.Proofs.Places.Calls
import HttpSuite.Proofs.Calls.Interleaved
import HttpSuite.Proofs.Places.Errors
import HttpSuite.Proofs.Places.Twins
import HttpSuite.Proofs.Places.Shifted
import HttpSuite.Proofs.Quoting
import HttpSuite.Proofs.Joining
import HttpSuite.Proofs.Reading.Kinds
import HttpSuite.Proofs.Reading.Resumed
import HttpSuite.Proofs.Gaps
import HttpSuite.Proofs.Words
import HttpSuite.Proofs.FileSystem
import HttpSuite.Proofs.CommandLine
import HttpSuite.Proofs.CommandLine.DefaultOutput
import HttpSuite.Proofs.Trace
