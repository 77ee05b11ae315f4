import PluginRegistry.Main
import PluginRegistry.Proofs.TextPieces
import PluginRegistry.Proofs.NameFaults
import PluginRegistry.Proofs.MomentText
import PluginRegistry.Proofs.Payload
import PluginRegistry.Proofs.JsonValues
import PluginRegistry.Proofs.RecordReading
import PluginRegistry.Proofs.RecordRoundTrip
import PluginRegistry.Proofs.Likeness
import PluginRegistry.Proofs.ActionLaws
import PluginRegistry.Proofs.CatalogSpec
import PluginRegistry.Proofs.RecordChanges
import PluginRegistry.Proofs.StoredRows
import PluginRegistry.Proofs.History
import PluginRegistry.Proofs.ActingUser
import PluginRegistry.Proofs.Effects
import PluginRegistry.Proofs.Atomicity
import PluginRegistry.Proofs.Lifetimes
import PluginRegistry.Proofs.RecordTimes
import PluginRegistry.Proofs.AuditStamps
import PluginRegistry.Proofs.ReturnedRecords
import PluginRegistry.Proofs.RuleMeaning
import PluginRegistry.Proofs.RecordInvariants
import PluginRegistry.Proofs.AcceptedRecords
import PluginRegistry.Proofs.UniqueVersions
import PluginRegistry.Proofs.Preference
import PluginRegistry.Proofs.Publication
import PluginRegistry.Proofs.ArtifactRemoval
import PluginRegistry.Proofs.ArtifactFrame
import PluginRegistry.Proofs.TreeConfinement
import PluginRegistry.Proofs.ArtifactContainment
import PluginRegistry.Proofs.Upserting
import PluginRegistry.Proofs.LoggedEntries
import PluginRegistry.Proofs.CascadingDelete
import PluginRegistry.Proofs.SharedPreference
import PluginRegistry.Proofs.CleanedText
import PluginRegistry.Proofs.LogLines
import PluginRegistry.Proofs.LineSeparators
import PluginRegistry.Proofs.AuditFields
import PluginRegistry.Proofs.LineBreaks
import PluginRegistry.Proofs.ReadPaths
import PluginRegistry.Proofs.ReleaseAcceptance
import PluginRegistry.Proofs.SiblingReleases
import PluginRegistry.Proofs.ArtifactMap
import PluginRegistry.Proofs.StorageErrors
import PluginRegistry.Proofs.DirectoryMaking
import PluginRegistry.Proofs.LeftoverDirectories
import PluginRegistry.Proofs.RequirementGrammar
import PluginRegistry.Proofs.ValidationReports
import PluginRegistry.Proofs.CanonicalIds
import PluginRegistry.Proofs.Independence
import PluginRegistry.Proofs.Runs
import PluginRegistry.Proofs.VersionLens
import PluginRegistry.Proofs.BindingBlocks
import PluginRegistry.Proofs.StampedActors
import PluginRegistry.Proofs.CaseMapping
import PluginRegistry.Proofs.SettingsReading
import PluginRegistry.Proofs.SettingsSources
import PluginRegistry.Proofs.CommandOverrides
