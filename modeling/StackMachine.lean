import StackMachine.Assembly.Directive
import StackMachine.Assembly.Error
import StackMachine.Assembly.Family
import StackMachine.Assembly.Operand
import StackMachine.Assembly.Source
import StackMachine.Command.Arguments
import StackMachine.Command.Directory
import StackMachine.Command.Execution
import StackMachine.Command.Line
import StackMachine.Command.Preset
import StackMachine.Command.Process
import StackMachine.Command.Trace
import StackMachine.Fault
import StackMachine.Instruction
import StackMachine.Json.Basic
import StackMachine.Json.Listing
import StackMachine.Json.Reader
import StackMachine.Json.Writer
import StackMachine.Machine
import StackMachine.Machine.Effect
import StackMachine.Main
import StackMachine.Memory
import StackMachine.Parameter
import StackMachine.Payload
import StackMachine.Program
import StackMachine.Proofs.Effect
import StackMachine.Proofs.Lines
import StackMachine.Proofs.Listing
import StackMachine.Proofs.Literal
import StackMachine.Proofs.Payload
import StackMachine.Proofs.Prelude
import StackMachine.Proofs.Relocation
import StackMachine.Proofs.Run
import StackMachine.Proofs.Startup
import StackMachine.Stack
import StackMachine.Template
import StackMachine.Text.Blank
import StackMachine.Text.Cut
import StackMachine.Text.Escape
import StackMachine.Text.Hidden
import StackMachine.Text.Numeral
import StackMachine.Text.Quoted
import StackMachine.Text.Shown
import StackMachine.Text.Utf8
import StackMachine.Value
import StackMachine.Proofs.Concatenation
import StackMachine.Proofs.Limit
import StackMachine.Proofs.Template
import StackMachine.Proofs.Units
import StackMachine.Proofs.Grammar
import StackMachine.Proofs.Rendering
import StackMachine.Proofs.Frame
import StackMachine.Proofs.Footprint
import StackMachine.Proofs.JsonText
import StackMachine.Proofs.JsonListing
import StackMachine.Proofs.Reuse
import StackMachine.Proofs.Renaming
import StackMachine.Proofs.Cause
import StackMachine.Proofs.Insertion
import StackMachine.Proofs.Extension
import StackMachine.Proofs.Forward
import StackMachine.Proofs.Chain
import StackMachine.Proofs.Override
import StackMachine.Proofs.Decoding
import StackMachine.Proofs.Directive
import StackMachine.Proofs.Failure
import StackMachine.Proofs.Typed
import StackMachine.Proofs.Preset
import StackMachine.Proofs.Assignment
import StackMachine.Proofs.Arithmetic
import StackMachine.Proofs.Padding
import StackMachine.Proofs.History
import StackMachine.Proofs.Popping
import StackMachine.Proofs.Alignment
import StackMachine.Proofs.Remainder
import StackMachine.Machine.Control
import StackMachine.Proofs.Mnemonics
