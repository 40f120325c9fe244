import SetterReport.Main
import SetterReport.Proofs.PathJoin
import SetterReport.Proofs.TreeDescent
import SetterReport.Proofs.Resolution
import SetterReport.Proofs.PathSpelling
import SetterReport.Proofs.PathOrder
import SetterReport.Proofs.WalkSpots
import SetterReport.Proofs.FieldCount
import SetterReport.Proofs.CollectedFields
import SetterReport.Proofs.SetterCount
import SetterReport.Proofs.RespelledExtraction
import SetterReport.Proofs.LeastClosure
import SetterReport.Proofs.ClosurePasses
import SetterReport.Proofs.NameFilter
import SetterReport.Proofs.Discovery
import SetterReport.Proofs.PackagePartition
import SetterReport.Proofs.PackageIsolation
import SetterReport.Proofs.ReportRun
import SetterReport.Proofs.PackageOrder
import SetterReport.Proofs.WalkOrder
import SetterReport.Proofs.Trimming
import SetterReport.Proofs.JsonQuotes
import SetterReport.Proofs.JsonString
import SetterReport.Proofs.CommentObject
import SetterReport.Proofs.CommentChoice
import SetterReport.Proofs.ReferenceComment
import SetterReport.Proofs.LineComment
import SetterReport.Proofs.TextLayout
import SetterReport.Proofs.TableGrid
import SetterReport.Proofs.TableLines
import SetterReport.Proofs.WidthSum
import SetterReport.Proofs.TableDecoding
import SetterReport.Proofs.ColumnAlignment
import SetterReport.Proofs.RowBreaks
import SetterReport.Proofs.BarDelimiters
import SetterReport.Proofs.DocumentShape
import SetterReport.Proofs.LoadedKeys
import SetterReport.Proofs.RefusedScalar
import SetterReport.Proofs.DefinitionSplit
import SetterReport.Proofs.ValuePlaces
import SetterReport.Proofs.TextReplacement
import SetterReport.Proofs.LineScalar
import SetterReport.Proofs.ReaderSteps
import SetterReport.Proofs.BlockText
import SetterReport.Proofs.BlockDocument
import SetterReport.Proofs.CanonicalScalar
import SetterReport.Proofs.MetadataText
import SetterReport.Proofs.ScalarText
import SetterReport.Proofs.ReferenceTarget
import SetterReport.Proofs.DefinitionGraph
import SetterReport.Proofs.MarkerName
import SetterReport.Proofs.ArgumentOrder
import SetterReport.Proofs.RunStatus
import SetterReport.Proofs.OrderedTree
import SetterReport.Proofs.ListingOrder
