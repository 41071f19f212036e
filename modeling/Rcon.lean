import Rcon.Binding
import Rcon.Bytes
import Rcon.Config.Basic
import Rcon.Config.Resolve
import Rcon.Config.Rule
import Rcon.Decoder.Basic
import Rcon.Decoder.Note
import Rcon.Decoder.Session
import Rcon.Environment
import Rcon.Error
import Rcon.Frame.Basic
import Rcon.Frame.Head
import Rcon.Frame.Packet
import Rcon.Log.Journal
import Rcon.Log.Line
import Rcon.Log.Logger
import Rcon.Log.Settings
import Rcon.Number.Basic
import Rcon.Number.Numeral
import Rcon.Number.Shortest
import Rcon.Protocol
import Rcon.Response
import Rcon.Response.Registry
import Rcon.Text.Blank
import Rcon.Text.Units
import Rcon.Text.Utf8
import Rcon.Value.Basic
import Rcon.Value.Display
import Rcon.Value.Json
import Rcon.Value.JsonText
import Rcon.Proofs.Bytes
import Rcon.Proofs.Value.Fields
import Rcon.Proofs.Number.Exact
import Rcon.Proofs.Config.Resolving
import Rcon.Proofs.Config.Limits
import Rcon.Proofs.Text.Lines
import Rcon.Proofs.Value.Lines
import Rcon.Proofs.Value.Display
import Rcon.Proofs.Value.Reading
import Rcon.Proofs.Text.Utf8
import Rcon.Proofs.Text.Decoding
import Rcon.Proofs.Frame.Head
import Rcon.Proofs.Frame.Reply
import Rcon.Proofs.Frame.Grammar
import Rcon.Proofs.Frame.Accesses
import Rcon.Proofs.Decoder.Drain
import Rcon.Proofs.Decoder.Run
import Rcon.Proofs.Decoder.Chunking
import Rcon.Proofs.Decoder.RoundTrip
import Rcon.Proofs.Decoder.Memory
import Rcon.Proofs.Decoder.Terminators
import Rcon.Proofs.Decoder.Step
import Rcon.Proofs.Decoder.Turns
import Rcon.Proofs.Decoder.Parsing
import Rcon.Proofs.Decoder.Reader
import Rcon.Proofs.Decoder.Accesses
import Rcon.Proofs.Decoder.Attempts
import Rcon.Proofs.Decoder.Telling
import Rcon.Proofs.Decoder.Listeners
import Rcon.Proofs.Decoder.Callers
import Rcon.Proofs.Decoder.Partition
import Rcon.Proofs.Decoder.Discards
import Rcon.Proofs.Decoder.Continuations
import Rcon.Proofs.Decoder.Stalling
import Rcon.Proofs.Decoder.Blocking
import Rcon.Proofs.Decoder.Responses
import Rcon.Proofs.Decoder.Tracing
import Rcon.Proofs.Log.Lines
import Rcon.Proofs.Log.Json
import Rcon.Proofs.Log.Sinks
import Rcon.Proofs.Log.Calls
import Rcon.Proofs.Decoder.Lines
import Rcon.Proofs.Binding.Events
import Rcon.Proofs.Binding.Policies
import Rcon.Proofs.Binding.Lockstep
import Rcon.Proofs.Binding.Raising
import Rcon.Proofs.Binding.Lines
