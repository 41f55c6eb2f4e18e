import Tabletop.Action
import Tabletop.Action.OpenMove
import Tabletop.Argument
import Tabletop.Argument.Wire
import Tabletop.Config
import Tabletop.Dice
import Tabletop.Dice.Keystream
import Tabletop.Dict
import Tabletop.Fault
import Tabletop.Flow
import Tabletop.Flow.Fit
import Tabletop.Flow.Mismatch
import Tabletop.Flow.Play
import Tabletop.Flow.Reset
import Tabletop.Flow.Scope
import Tabletop.Flow.Signal
import Tabletop.Flow.Stop
import Tabletop.Flow.Trail
import Tabletop.Flow.TrailJson
import Tabletop.Game
import Tabletop.Json.Basic
import Tabletop.Json.Number
import Tabletop.Json.Parser
import Tabletop.Json.Pointer
import Tabletop.Json.Printer
import Tabletop.Json.Record
import Tabletop.Move
import Tabletop.PlayError
import Tabletop.Player
import Tabletop.Refusal
import Tabletop.Repertoire
import Tabletop.Saturating
import Tabletop.Script.ActionJson
import Tabletop.Script.Expr
import Tabletop.Script.ExprJson
import Tabletop.Script.FlowJson
import Tabletop.Script.Host
import Tabletop.Script.Statement
import Tabletop.Selection
import Tabletop.Selection.Combinations
import Tabletop.Selection.Offer
import Tabletop.Selection.OfferJson
import Tabletop.Session
import Tabletop.Session.FlowBook
import Tabletop.Session.FlowId
import Tabletop.Session.FollowUps
import Tabletop.Session.Menu
import Tabletop.Session.Restore
import Tabletop.Session.Rules
import Tabletop.Session.Snapshot
import Tabletop.Session.Submit
import Tabletop.Text.Blank
import Tabletop.Text.CaseFold
import Tabletop.Text.CharRange
import Tabletop.Text.CharSet
import Tabletop.Text.HiddenChar
import Tabletop.Text.LetterChar
import Tabletop.Text.NumberChar
import Tabletop.Text.Pattern
import Tabletop.Text.Quoted
import Tabletop.Text.Regex
import Tabletop.Text.Regex.Meaning
import Tabletop.Text.Regex.Parser
import Tabletop.Text.Regex.Size
import Tabletop.Text.Regex.Source
import Tabletop.Text.Regex.Tree
import Tabletop.Text.Template
import Tabletop.Text.Utf8
import Tabletop.Text.WordChar
import Tabletop.Proofs.Action.Answers
import Tabletop.Proofs.Action.Commits
import Tabletop.Proofs.Action.LookAhead
import Tabletop.Proofs.Argument.Canonical
import Tabletop.Proofs.Flow.Captured
import Tabletop.Proofs.Flow.Interrupts
import Tabletop.Proofs.Flow.PlayOut
import Tabletop.Proofs.Flow.Safety
import Tabletop.Proofs.Flow.SideBySide
import Tabletop.Proofs.Flow.Views
import Tabletop.Proofs.Selection.Counting
import Tabletop.Proofs.Selection.Narrowing
import Tabletop.Proofs.Selection.OfferRoundTrip
import Tabletop.Proofs.Selection.Options
import Tabletop.Proofs.Selection.Places
import Tabletop.Proofs.Selection.Verdicts
import Tabletop.Proofs.Session.Context
import Tabletop.Proofs.Session.Ending
import Tabletop.Proofs.Session.FollowUpQueue
import Tabletop.Proofs.Session.Forced
import Tabletop.Proofs.Session.Listing
import Tabletop.Proofs.Session.Offered
import Tabletop.Proofs.Session.Presented
import Tabletop.Proofs.Session.Refused
import Tabletop.Proofs.Session.Replay
import Tabletop.Proofs.Session.Restored
import Tabletop.Proofs.Session.SaveFormat
import Tabletop.Proofs.Session.SaveRestore
import Tabletop.Proofs.Session.Settled
import Tabletop.Proofs.Session.Subflows
import Tabletop.Proofs.Session.Turns
import Tabletop.Proofs.Text.Rendering
