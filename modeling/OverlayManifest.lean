import OverlayManifest.Main
import OverlayManifest.Proofs.DeclaredValues
import OverlayManifest.Proofs.ListedItems
import OverlayManifest.Proofs.CreatedIds
import OverlayManifest.Proofs.RoundTrip
import OverlayManifest.Proofs.DriftDetection
import OverlayManifest.Proofs.OwnScan
import OverlayManifest.Proofs.CheckAfterUpdate
import OverlayManifest.Proofs.StoredManifest
import OverlayManifest.Proofs.Truncation
import OverlayManifest.Proofs.TreeNames
import OverlayManifest.Proofs.FileDeclarations
import OverlayManifest.Proofs.ScanUnion
import OverlayManifest.Proofs.UpdateChanges
import OverlayManifest.Proofs.JsonReading
import OverlayManifest.Proofs.Verdict
import OverlayManifest.Proofs.LeadingFlags
import OverlayManifest.Proofs.DryRuns
import OverlayManifest.Proofs.ListedFiles
import OverlayManifest.Proofs.RelevantContent
import OverlayManifest.Proofs.ShownPaths
import OverlayManifest.Proofs.LocatedAdditions
import OverlayManifest.Proofs.HousedProjects
import OverlayManifest.Proofs.PathParents
import OverlayManifest.Proofs.MadeDirectories
import OverlayManifest.Proofs.WritableDocuments
import OverlayManifest.Proofs.MovedProjects
import OverlayManifest.Proofs.JoinedSteps
import OverlayManifest.Proofs.ExcludedFiles
import OverlayManifest.Proofs.LookedUpAttributes
import OverlayManifest.Proofs.ByteOrder
import OverlayManifest.Proofs.ExactDiscovery
import OverlayManifest.Proofs.DistinctManifests
import OverlayManifest.Proofs.ExactPatch
import OverlayManifest.Proofs.SetHistories
import OverlayManifest.Proofs.SharedOutlines
import OverlayManifest.Proofs.DataReports
import OverlayManifest.Proofs.StricterPatterns
import OverlayManifest.Proofs.TruncatedIds
import OverlayManifest.Proofs.SettingsPrecedence
import OverlayManifest.Proofs.ColourSequences
import OverlayManifest.Proofs.TerminalReports
