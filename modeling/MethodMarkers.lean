import MethodMarkers.Main
import MethodMarkers.Proofs.BlockFollowing
import MethodMarkers.Proofs.BufferInsertion
import MethodMarkers.Proofs.ScanOutline
import MethodMarkers.Proofs.ScanUniqueness
import MethodMarkers.Proofs.BodyMarking
import MethodMarkers.Proofs.LineInstrumentation
import MethodMarkers.Proofs.LayoutRendering
import MethodMarkers.Proofs.CodecRoundTrip
import MethodMarkers.Proofs.FileRewriting
import MethodMarkers.Proofs.MarkingOrder
import MethodMarkers.Proofs.BatchRun
import MethodMarkers.Proofs.BatchStop
import MethodMarkers.Proofs.ScanInsertion
import MethodMarkers.Proofs.TextSurrounding
import MethodMarkers.Proofs.RepeatedMarking
import MethodMarkers.Proofs.PartSearch
import MethodMarkers.Proofs.JoinedMarking
import MethodMarkers.Proofs.MarkingSafety
import MethodMarkers.Proofs.WriteReadBack
import MethodMarkers.Proofs.CommandFrame
import MethodMarkers.Proofs.CommandExit
import MethodMarkers.Proofs.SettingPrecedence
import MethodMarkers.Proofs.SettingsFaults
import MethodMarkers.Proofs.SettingsDump
import MethodMarkers.Proofs.BraceDepth
import MethodMarkers.Proofs.PatternMatching
import MethodMarkers.Proofs.SignatureReading
import MethodMarkers.Proofs.OutcomeAccounting
import MethodMarkers.Proofs.NewlineNormalization
import MethodMarkers.Proofs.MarkedRoundTrip
import MethodMarkers.Proofs.TableWarnings
import MethodMarkers.Proofs.OverrideNames
import MethodMarkers.Proofs.LayoutInsensitivity
import MethodMarkers.Proofs.BufferRefinement
import MethodMarkers.Proofs.PreviewForms
import MethodMarkers.Proofs.DiscoveryExactness
import MethodMarkers.Proofs.PrintedPatches
import MethodMarkers.Proofs.SnapshotRuns
import MethodMarkers.Proofs.DecodingFaults
import MethodMarkers.Proofs.FileListing
import MethodMarkers.Proofs.LevelWishes
import MethodMarkers.Proofs.DecimalPlaces
import MethodMarkers.Proofs.TemplateFaults
