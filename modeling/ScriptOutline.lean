import ScriptOutline.Proofs.Place
import ScriptOutline.Report.Decode
import ScriptOutline.Main
import ScriptOutline.Proofs.Span
import ScriptOutline.Proofs.Offer
import ScriptOutline.Proofs.Unclosed
import ScriptOutline.Proofs.Join
import ScriptOutline.Proofs.LineByLine
import ScriptOutline.Proofs.Calls
import ScriptOutline.Proofs.Lenient
import ScriptOutline.Proofs.Indent
import ScriptOutline.Proofs.Json.Scalar
import ScriptOutline.Proofs.Json.Tree
import ScriptOutline.Proofs.RoundTrip
import ScriptOutline.Proofs.CommentRecord
import ScriptOutline.Proofs.LoneComment
import ScriptOutline.Proofs.FileTree
import ScriptOutline.Proofs.DirectorySurvey
import ScriptOutline.Proofs.KindFilter
import ScriptOutline.Proofs.LeftSide
import ScriptOutline.Proofs.Finding
import ScriptOutline.Proofs.Prototype
import ScriptOutline.Proofs.RecordInvariant
import ScriptOutline.Proofs.JsonLines
import ScriptOutline.Proofs.Table
import ScriptOutline.Proofs.NamedFile
import ScriptOutline.Proofs.Json.Spelling
import ScriptOutline.Proofs.Section
import ScriptOutline.Proofs.EntryPoints
import ScriptOutline.Proofs.InvalidUtf8
import ScriptOutline.Proofs.ExitCode
import ScriptOutline.Proofs.Grammar
import ScriptOutline.Proofs.Precedence
import ScriptOutline.Proofs.Assignment
import ScriptOutline.Proofs.TrailingBlanks
import ScriptOutline.Proofs.Receiver
import ScriptOutline.Proofs.Parameters
import ScriptOutline.Proofs.Runs
import ScriptOutline.Proofs.DefaultExcludes
import ScriptOutline.Proofs.Resolution
import ScriptOutline.Proofs.SkippedDirectories
import ScriptOutline.Proofs.SettingsSource
import ScriptOutline.Proofs.RecordFields
import ScriptOutline.Proofs.KindNames
