import SmtSession.Engine.Idle
import SmtSession.Engine.Scripted
import SmtSession.Engine.Smt
import SmtSession.SExpr.Json
import SmtSession.SExpr.Order
import SmtSession.Session.Check
import SmtSession.Settings.Reader
import SmtSession.Solver.Scripted
import SmtSession.Proofs.Operation
import SmtSession.Proofs.Stack
import SmtSession.Proofs.History
import SmtSession.Proofs.Outcomes
import SmtSession.Proofs.Coherence
import SmtSession.Proofs.Levels
import SmtSession.Proofs.CheckedStack
import SmtSession.Proofs.FailedChecks
import SmtSession.Proofs.Scopes
import SmtSession.Proofs.RoundTrip
import SmtSession.Proofs.Conversation
import SmtSession.Proofs.SmtConversation
import SmtSession.Proofs.CommandStack
import SmtSession.Proofs.EngineAgreement
import SmtSession.Proofs.SessionAgreement
import SmtSession.Proofs.Listening
import SmtSession.Proofs.SmtCalls
import SmtSession.Proofs.Complaints
import SmtSession.Proofs.Blocks
import SmtSession.Proofs.Clients
import SmtSession.Proofs.Replies
import SmtSession.Proofs.ModelEntries
import SmtSession.Proofs.LabelReplies
import SmtSession.Proofs.Enumeration
import SmtSession.Proofs.ReadBack
import SmtSession.Proofs.SortNames
import SmtSession.Proofs.SignatureInvariant
import SmtSession.Proofs.FailedDeclarations
import SmtSession.Proofs.DeclarationCommands
import SmtSession.Proofs.Reporting
import SmtSession.Proofs.FailedPushes
import SmtSession.Proofs.Lexemes
import SmtSession.Proofs.Transcripts
import SmtSession.Proofs.Entries
import SmtSession.Proofs.LegibleCommands
import SmtSession.Proofs.Replay
import SmtSession.Proofs.ModelReplies
import SmtSession.Proofs.IntegerValues
import SmtSession.Proofs.UnknownReasons
import SmtSession.Proofs.RefusedPlaces
import SmtSession.Proofs.CurriedSorts
import SmtSession.Proofs.OptionHistory
import SmtSession.Proofs.LabelCodec
