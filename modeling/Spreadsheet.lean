import Spreadsheet.Engine.Basic
import Spreadsheet.Formula.Contents
import Spreadsheet.Proofs.Engine.AnyOrder
import Spreadsheet.Proofs.Engine.BrokenOff
import Spreadsheet.Proofs.Engine.Bystanders
import Spreadsheet.Proofs.Engine.Detection
import Spreadsheet.Proofs.Engine.Histories
import Spreadsheet.Proofs.Engine.Idempotence
import Spreadsheet.Proofs.Engine.Inspection
import Spreadsheet.Proofs.Engine.LockedSheets
import Spreadsheet.Proofs.Engine.Mirrors
import Spreadsheet.Proofs.Engine.Naming
import Spreadsheet.Proofs.Engine.Nesting
import Spreadsheet.Proofs.Engine.Plans
import Spreadsheet.Proofs.Engine.RangeReads
import Spreadsheet.Proofs.Engine.ReadRanges
import Spreadsheet.Proofs.Engine.Recovery
import Spreadsheet.Proofs.Engine.Reload
import Spreadsheet.Proofs.Engine.Requests
import Spreadsheet.Proofs.Formula.Branches
import Spreadsheet.Proofs.Formula.Failures
import Spreadsheet.Proofs.Formula.Joining
import Spreadsheet.Proofs.Formula.Limits
import Spreadsheet.Proofs.Formula.Literals
import Spreadsheet.Proofs.Formula.NearestMatch
import Spreadsheet.Proofs.Formula.Overflow
import Spreadsheet.Proofs.Formula.PartialMap
import Spreadsheet.Proofs.Formula.Relations
import Spreadsheet.Proofs.Formula.Separators
import Spreadsheet.Proofs.Formula.TableLookup
import Spreadsheet.Proofs.Graph.Closure
import Spreadsheet.Proofs.Graph.CycleSearch
import Spreadsheet.Proofs.Graph.EvaluationOrder
import Spreadsheet.Proofs.Grid.RangeText
import Spreadsheet.Proofs.Grid.Walk
import Spreadsheet.Proofs.Store.Histories
