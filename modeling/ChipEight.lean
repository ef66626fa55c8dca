import ChipEight.Bits
import ChipEight.CommandLine.Options
import ChipEight.CommandLine.Parser
import ChipEight.CommandLine.Token
import ChipEight.CommandLine.Usage
import ChipEight.Dialect
import ChipEight.Fault
import ChipEight.Font
import ChipEight.Instruction
import ChipEight.Keypad
import ChipEight.Launch
import ChipEight.Layout
import ChipEight.Machine.Basic
import ChipEight.Machine.Cycle
import ChipEight.Machine.Execute
import ChipEight.Machine.Run
import ChipEight.Machine.Trace
import ChipEight.Memory
import ChipEight.Opcode
import ChipEight.Position
import ChipEight.Rate
import ChipEight.ReturnStack
import ChipEight.RomFile
import ChipEight.Screen
import ChipEight.Session
import ChipEight.Sprite
import ChipEight.Text.Digit
import ChipEight.Text.Hex
import ChipEight.Text.Numeral
import ChipEight.Text.Printable
import ChipEight.Text.Quoted
import ChipEight.Text.Ranges
import ChipEight.Text.Truth
import ChipEight.Timers
import ChipEight.Version
import ChipEight.Wheel
import ChipEight.Window.Basic
import ChipEight.Window.Event
import ChipEight.Window.Keyboard
import ChipEight.Window.Keymap
import ChipEight.Window.Picture
import ChipEight.Main
import ChipEight.Proofs.Host
import ChipEight.Proofs.MemoryLaws
import ChipEight.Proofs.Soundness
import ChipEight.Proofs.Micro.Basic
import ChipEight.Proofs.Micro.Program
import ChipEight.Proofs.Drawing
import ChipEight.Proofs.Micro.Cells
import ChipEight.Proofs.Micro.Devices
import ChipEight.Proofs.Micro.Dispatch
import ChipEight.Proofs.Micro.Instructions
import ChipEight.Proofs.Micro.Simulation
import ChipEight.Proofs.Faults
import ChipEight.Proofs.Bounds
import ChipEight.Proofs.KeyWait
import ChipEight.Proofs.Effects
import ChipEight.Proofs.WaitOpcode
import ChipEight.Proofs.Calls
import ChipEight.Proofs.Footprints
import ChipEight.Proofs.RunCycles
import ChipEight.Proofs.Rendering
import ChipEight.Proofs.WindowRuns
import ChipEight.Proofs.Micro.Canvas
import ChipEight.Proofs.ShownPicture
import ChipEight.Proofs.Beeps
import ChipEight.Proofs.Isolation
import ChipEight.Proofs.DialectRuns
import ChipEight.Proofs.Tracing
import ChipEight.Proofs.Keymaps
import ChipEight.Proofs.WindowHost
import ChipEight.Proofs.Stopping
import ChipEight.Proofs.HeldKeys
import ChipEight.Proofs.Countdown
import ChipEight.Proofs.Redrawing
import ChipEight.Proofs.ByteMap
import ChipEight.Proofs.SpritePixels
import ChipEight.Proofs.Arithmetic
import ChipEight.Proofs.RegisterBlocks
import ChipEight.Proofs.ControlFlow
import ChipEight.Proofs.BoundedStack
import ChipEight.Proofs.KeyLog
import ChipEight.Proofs.KeymapsAgree
import ChipEight.Proofs.BitFields
import ChipEight.Proofs.Patterns
import ChipEight.Proofs.BeepFlag
import ChipEight.Proofs.FontGlyphs
