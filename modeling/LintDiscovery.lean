import LintDiscovery.Main
import LintDiscovery.Discovery.Access
import LintDiscovery.Host.Recorded
import LintDiscovery.Host.Table
import LintDiscovery.Module.Construction
import LintDiscovery.Sample.NoDebugger
import LintDiscovery.Visit.RuleTable
import LintDiscovery.Proofs.Account
import LintDiscovery.Proofs.Containment
import LintDiscovery.Proofs.FirstAnswer
import LintDiscovery.Proofs.ByteOrder
import LintDiscovery.Proofs.Grouping
import LintDiscovery.Proofs.Composition
import LintDiscovery.Proofs.PolicyComparison
import LintDiscovery.Proofs.SearchBounds
import LintDiscovery.Proofs.ConfigRoundTrip
import LintDiscovery.Proofs.JournalAgreement
import LintDiscovery.Proofs.RecordLines
import LintDiscovery.Proofs.Spelling
import LintDiscovery.Proofs.SpellingLiterals
import LintDiscovery.Proofs.SpellingReading
import LintDiscovery.Proofs.SpellingSkipping
import LintDiscovery.Proofs.SpelledSettings
import LintDiscovery.Proofs.Documents
import LintDiscovery.Proofs.SettingsOnly
import LintDiscovery.Proofs.ArgumentThreading
import LintDiscovery.Proofs.CallSequence
import LintDiscovery.Proofs.DescriptorSoundness
import LintDiscovery.Proofs.JournalSetup
import LintDiscovery.Proofs.PrettyReadBack
import LintDiscovery.Proofs.ReportContents
import LintDiscovery.Proofs.RunOutcome
import LintDiscovery.Proofs.DiagnosticWording
import LintDiscovery.Proofs.FirstCandidate
import LintDiscovery.Proofs.ClippedTexts
import LintDiscovery.Proofs.WorkingDirectory
import LintDiscovery.Proofs.VisitOutcomes
import LintDiscovery.Proofs.TimingHistory
import LintDiscovery.Proofs.DescriptorNames
import LintDiscovery.Proofs.SpelledArguments
import LintDiscovery.Proofs.LoadedModules
import LintDiscovery.Proofs.ConfiguredFindings
