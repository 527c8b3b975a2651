import Findings.Main
import Findings.Proofs.Lookup
import Findings.Proofs.Noninterference
import Findings.Proofs.Payload.FurtherMember
import Findings.Proofs.Payload.Meaning
import Findings.Proofs.Payload.Truncation
import Findings.Proofs.Program
import Findings.Proofs.Rearrangement
import Findings.Proofs.Report.Json
import Findings.Proofs.Report.Lines
import Findings.Proofs.Restatement
import Findings.Sandbox.Machine
import Findings.Proofs.Json.Truncation
import Findings.Proofs.Position.Shown
import Findings.Proofs.FailureText
import Findings.Proofs.Report.Unambiguous
import Findings.Proofs.RunLog
import Findings.Proofs.Arguments
import Findings.Proofs.CommandLine
import Findings.Proofs.Toml.Rest
import Findings.Proofs.Toml.Order
import Findings.Proofs.Settings.Decoding
import Findings.Proofs.Toml.Grammar
import Findings.Proofs.Toml.Plain
import Findings.Proofs.Settings.Spelling
import Findings.Proofs.CapturedOutput
import Findings.Proofs.Position.Order
import Findings.Proofs.Report.Canonical
