import SceneScript.CommandLine.Answer
import SceneScript.CommandLine.Invocation
import SceneScript.CommandLine.Level
import SceneScript.CommandLine.Run
import SceneScript.CommandLine.Usage
import SceneScript.Correlation.Locate
import SceneScript.Correlation.Position
import SceneScript.Failure
import SceneScript.Files.Directory
import SceneScript.Files.Path
import SceneScript.Json.Basic
import SceneScript.Json.Decode
import SceneScript.Json.Printer
import SceneScript.Json.Reader
import SceneScript.Main
import SceneScript.Number.Binary64
import SceneScript.Number.Power
import SceneScript.Number.Reading
import SceneScript.Number.Shortest
import SceneScript.Preferences.Basic
import SceneScript.Preferences.File
import SceneScript.Report.Duration
import SceneScript.Report.Lines
import SceneScript.Report.Style
import SceneScript.Scene.Basic
import SceneScript.Scene.Command
import SceneScript.Scene.Decode
import SceneScript.Scene.Written
import SceneScript.Script.Engine
import SceneScript.Script.Registry
import SceneScript.Script.Statement
import SceneScript.Session
import SceneScript.Sorting.Runs
import SceneScript.Sorting.Small
import SceneScript.Text.Blank
import SceneScript.Text.Lines
import SceneScript.Text.Numeral
import SceneScript.Text.Printable
import SceneScript.Text.Quoted
import SceneScript.Text.Split
import SceneScript.Version.Order
import SceneScript.Yaml.Anchors
import SceneScript.Yaml.Character
import SceneScript.Yaml.Cursor
import SceneScript.Yaml.Node
import SceneScript.Yaml.Plain
import SceneScript.Yaml.Printer
import SceneScript.Yaml.Scalar
import SceneScript.Yaml.Token
import SceneScript.Proofs.Script.Sentences
import SceneScript.Proofs.Script.Concatenation
import SceneScript.Proofs.Text.Trimming
import SceneScript.Proofs.Script.Segments
import SceneScript.Proofs.Script.ReadBack
import SceneScript.Proofs.Sorting.Stable
import SceneScript.Proofs.Sorting.Merge
import SceneScript.Proofs.Sorting.Runs
import SceneScript.Proofs.Sorting.Small
import SceneScript.Proofs.Version.Lexicographic
import SceneScript.Proofs.Version.NewestFirst
import SceneScript.Proofs.Script.Registrations
import SceneScript.Proofs.Session.Operation
import SceneScript.Proofs.Session.Published
import SceneScript.Proofs.Json.Layout
import SceneScript.Proofs.Json.Numeral
import SceneScript.Proofs.Json.Quoted
import SceneScript.Proofs.Json.Part
import SceneScript.Proofs.Json.RoundTrip
import SceneScript.Proofs.Json.Shown
import SceneScript.Proofs.Json.Place
import SceneScript.Proofs.Correlation.Marked
import SceneScript.Proofs.Json.Extent
import SceneScript.Proofs.Correlation.Strays
import SceneScript.Proofs.Correlation.Exact
import SceneScript.Proofs.Script.Parts
import SceneScript.Proofs.Correlation.Published
import SceneScript.Proofs.Number.Digits
import SceneScript.Proofs.Json.Fraction
import SceneScript.Proofs.Yaml.Gap
import SceneScript.Proofs.Yaml.PlainScalar
import SceneScript.Proofs.Yaml.QuotedScalar
import SceneScript.Proofs.Yaml.LiteralScalar
import SceneScript.Proofs.Yaml.Written
import SceneScript.Proofs.Yaml.Entry
import SceneScript.Proofs.Files.ReadBack
import SceneScript.Proofs.Preferences.ReadBack
import SceneScript.Proofs.Session.Reopened
import SceneScript.Proofs.Scene.ReadBack
import SceneScript.Proofs.Files.Sound
import SceneScript.Proofs.Files.Folders
import SceneScript.Proofs.Files.Saving
import SceneScript.Proofs.Session.Unsaved
import SceneScript.Proofs.CommandLine.Call
import SceneScript.Proofs.CommandLine.Configured
import SceneScript.Proofs.Correlation.Bounds
import SceneScript.Proofs.Script.Layout
import SceneScript.Proofs.CommandLine.Mapping
import SceneScript.Proofs.Version.Numbered
import SceneScript.Proofs.Correlation.Reached
import SceneScript.Proofs.Script.Assets
import SceneScript.Proofs.Script.Headed
import SceneScript.Proofs.Script.Choices
import SceneScript.Proofs.Script.Spoken
import SceneScript.Proofs.Script.Remainder
import SceneScript.Proofs.Script.Speaker
import SceneScript.Proofs.CommandLine.Versions
import SceneScript.Proofs.Correlation.Echoed
import SceneScript.Proofs.Text.Offset
import SceneScript.Proofs.Script.Unescaped
import SceneScript.Proofs.Text.Extent
import SceneScript.Proofs.Scene.RawValue
