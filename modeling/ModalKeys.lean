import ModalKeys.Main
import ModalKeys.Proofs.Pattern.Segments
import ModalKeys.Proofs.Pattern.Groups
import ModalKeys.Proofs.Text.Escape
import ModalKeys.Proofs.Text.Arguments
import ModalKeys.Proofs.Text.Unmarked
import ModalKeys.Proofs.Pattern.Written
import ModalKeys.Proofs.Registry.Tables
import ModalKeys.Proofs.Registry.Log
import ModalKeys.Proofs.History.Browsing
import ModalKeys.Proofs.Keyboard.Reported
import ModalKeys.Proofs.Keymap.Candidates
import ModalKeys.Proofs.Keymap.Outcome
import ModalKeys.Proofs.Keymap.Reachable
import ModalKeys.Proofs.Keymap.FirstMatch
import ModalKeys.Proofs.Keymap.Captures
import ModalKeys.Proofs.Text.Trim
import ModalKeys.Proofs.Session.Frame
import ModalKeys.Proofs.Session.Modes
import ModalKeys.Proofs.Session.Moves
import ModalKeys.Proofs.Session.Calls
import ModalKeys.Proofs.Session.Mirror
import ModalKeys.Proofs.Session.Turn
import ModalKeys.Proofs.Session.Invariant
import ModalKeys.Proofs.Session.StackMode
import ModalKeys.Proofs.Session.Restoration
import ModalKeys.Proofs.Event.Line
import ModalKeys.Proofs.Event.Report
import ModalKeys.Proofs.Host.Agreement
import ModalKeys.Proofs.Keymap.Prompted
import ModalKeys.Proofs.Session.Core
import ModalKeys.Proofs.Session.Unwritten
import ModalKeys.Proofs.Session.Typing
import ModalKeys.Proofs.Session.Prompted
import ModalKeys.Proofs.Session.Refused
import ModalKeys.Proofs.Session.Display
import ModalKeys.Proofs.Session.Undisturbed
import ModalKeys.Proofs.Definition.Line
import ModalKeys.Proofs.Keymap.Eviction
import ModalKeys.Proofs.Session.Raised
import ModalKeys.Proofs.Session.Nesting
import ModalKeys.Proofs.Session.Presets
import ModalKeys.Proofs.Session.ModeSwitch
import ModalKeys.Proofs.Keymap.Chords
import ModalKeys.Proofs.Keymap.CurrentChords
import ModalKeys.Proofs.Keymap.Submissions
import ModalKeys.Proofs.Template.RawQuoted
import ModalKeys.Proofs.Pattern.Tokens
import ModalKeys.Proofs.Pattern.Grammar
import ModalKeys.Proofs.Text.Tails
import ModalKeys.Proofs.Text.Backslashes
import ModalKeys.Proofs.Template.Substitution
import ModalKeys.Proofs.Definition.Install
import ModalKeys.Proofs.Text.Offsets
import ModalKeys.Proofs.Input.Words
import ModalKeys.Proofs.Input.Buffer
import ModalKeys.Proofs.Input.Zipper
import ModalKeys.Proofs.Completion.Steps
import ModalKeys.Proofs.Completion.Keyword
import ModalKeys.Proofs.Session.Completing
import ModalKeys.Proofs.Session.Continuing
import ModalKeys.Proofs.Keyboard.Ignored
import ModalKeys.Proofs.Session.Ignored
import ModalKeys.Proofs.Session.Released
import ModalKeys.Proofs.Keyboard.Pressed
import ModalKeys.Proofs.Keyboard.Strokes
import ModalKeys.Proofs.Keyboard.Held
import ModalKeys.Proofs.Session.Held
import ModalKeys.Proofs.Session.TypingOff
import ModalKeys.Proofs.Session.EmptyHistory
import ModalKeys.Proofs.Session.Recorded
import ModalKeys.Proofs.Session.Echoes
import ModalKeys.Proofs.Session.Configured
import ModalKeys.Proofs.Session.DefaultMode
import ModalKeys.Proofs.Session.Candidates
import ModalKeys.Proofs.Input.Markup
import ModalKeys.Proofs.Host.Rank
import ModalKeys.Proofs.Session.Sends
import ModalKeys.Proofs.Host.Ending
