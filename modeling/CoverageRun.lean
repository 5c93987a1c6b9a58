import CoverageRun.Logging
import CoverageRun.Main
import CoverageRun.Rehearsal
import CoverageRun.Proofs.Aggregation.Places
import CoverageRun.Proofs.Coverage.Counting
import CoverageRun.Proofs.Coverage.RoundTrip
import CoverageRun.Proofs.Run.Cleanup
import CoverageRun.Proofs.Run.Configured
import CoverageRun.Proofs.Run.FailFast
import CoverageRun.Proofs.Run.Forgetting
import CoverageRun.Proofs.Run.Published
import CoverageRun.Proofs.Numeral.Binary64
import CoverageRun.Proofs.Numeral.Decimal
import CoverageRun.Proofs.Coverage.Acceptance
import CoverageRun.Proofs.Coverage.Entries
import CoverageRun.Proofs.Toolchain.Listing
import CoverageRun.Proofs.Toolchain.Idempotence
import CoverageRun.Proofs.Upload.Protocol
import CoverageRun.Proofs.Json.Grammar
import CoverageRun.Proofs.Json.Spelling
import CoverageRun.Proofs.Json.Writing
import CoverageRun.Proofs.Json.Variation
import CoverageRun.Proofs.Json.RoundTrip
import CoverageRun.Proofs.Run.Defaults
import CoverageRun.Proofs.Host.Causes
import CoverageRun.Proofs.Toolchain.Changes
import CoverageRun.Proofs.Run.ExitCodes
import CoverageRun.Proofs.Shell.Host
import CoverageRun.Proofs.Coverage.Functions
import CoverageRun.Proofs.Coverage.Spelling
import CoverageRun.Proofs.Glob.Simple
import CoverageRun.Proofs.Event.Rules
import CoverageRun.Proofs.Coverage.Directories
import CoverageRun.Proofs.Profile.Found
import CoverageRun.Proofs.Run.Accounts
import CoverageRun.Proofs.Coverage.Canonical
import CoverageRun.Proofs.Profile.Expansion
import CoverageRun.Proofs.Profile.Written
import CoverageRun.Proofs.Coverage.Writing
import CoverageRun.Proofs.Coverage.Store
import CoverageRun.Proofs.Origin
import CoverageRun.Proofs.Upload.Parameters
import CoverageRun.Proofs.Toolchain.Names
