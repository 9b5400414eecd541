import RemoteInput.Main
import RemoteInput.Connection.Session
import RemoteInput.Event.Encode
import RemoteInput.Proofs.Framing
import RemoteInput.Proofs.Handling
import RemoteInput.Proofs.Dispatch
import RemoteInput.Proofs.Quoted
import RemoteInput.Proofs.Number
import RemoteInput.Proofs.Printed
import RemoteInput.Proofs.Written
import RemoteInput.Proofs.Messages
import RemoteInput.Proofs.RoundTrip
import RemoteInput.Proofs.Sender
import RemoteInput.Proofs.Reread
import RemoteInput.Proofs.Schema
import RemoteInput.Proofs.Scripts
import RemoteInput.Proofs.Steady
import RemoteInput.Proofs.Isolation
import RemoteInput.Proofs.Interruption
import RemoteInput.Proofs.Grammar
import RemoteInput.Proofs.Extension
import RemoteInput.Proofs.Truncation
import RemoteInput.Proofs.Accounts
import RemoteInput.Proofs.Blanks
import RemoteInput.Proofs.Separation
import RemoteInput.Proofs.Moves
import RemoteInput.Proofs.Teardown
import RemoteInput.Proofs.Waiting
import RemoteInput.Proofs.Streams
import RemoteInput.Proofs.Listening
import RemoteInput.Proofs.Defects
import RemoteInput.Proofs.Checks
import RemoteInput.Proofs.Discretion
import RemoteInput.Proofs.Receipt
import RemoteInput.Proofs.Basics
import RemoteInput.Proofs.Documents
import RemoteInput.Proofs.Arguments
import RemoteInput.Proofs.Sections
import RemoteInput.Proofs.Precedence
import RemoteInput.Proofs.WellFormed
import RemoteInput.Proofs.Retention
import RemoteInput.Proofs.Doubles
import RemoteInput.Proofs.Numerals
import RemoteInput.Proofs.Overflow
import RemoteInput.Proofs.Finiteness
import RemoteInput.Proofs.Keymap
import RemoteInput.Proofs.Sharing
import RemoteInput.Proofs.Registers
import RemoteInput.Proofs.Digits
import RemoteInput.Proofs.DefaultFile
import RemoteInput.Proofs.Acceptance
import RemoteInput.Proofs.Addresses
import RemoteInput.Proofs.Startup
