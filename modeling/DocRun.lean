import DocRun.Json.Merge
import DocRun.Load
import DocRun.Session
import DocRun.Tier.Text
import DocRun.Proofs.Json.Literal
import DocRun.Proofs.Json.Number
import DocRun.Proofs.Utf8
import DocRun.Proofs.Json.RoundTrip
import DocRun.Proofs.Config.Dump
import DocRun.Proofs.Config.Sound
import DocRun.Proofs.Load.Flat
import DocRun.Proofs.Session.Run
import DocRun.Proofs.Session.Sound
import DocRun.Proofs.Load.Sound
import DocRun.Proofs.Load.Refinement
import DocRun.Proofs.Text.Quoted
import DocRun.Proofs.Outline.Layout
import DocRun.Proofs.Outline.Reading
import DocRun.Proofs.Config.Outline
import DocRun.Proofs.Json.Spelling
import DocRun.Proofs.Json.Opening
import DocRun.Proofs.Tier.Grammar
import DocRun.Proofs.Tier.Readers
import DocRun.Proofs.Load.Trace
import DocRun.Proofs.Settings.Replay
import DocRun.Proofs.Path
import DocRun.Proofs.Settings.Same
import DocRun.Proofs.Config.Same
import DocRun.Proofs.Session.Frame
import DocRun.Proofs.Utf8.Malformed
import DocRun.Proofs.Utf8.Boundary
import DocRun.Proofs.Config.Dumpable
import DocRun.Proofs.Json.Layout
import DocRun.Proofs.Config.Layout
import DocRun.Proofs.Tier.FirstProblem
import DocRun.Proofs.Json.Waiting
import DocRun.Proofs.Tier.Truncation
import DocRun.Proofs.Config.Repair
import DocRun.Proofs.Utf8.Segments
import DocRun.Proofs.Config.Marks
import DocRun.Proofs.Tier.Bytes
import DocRun.Proofs.Config.Views
import DocRun.Proofs.Json.Merge
