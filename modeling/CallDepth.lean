import CallDepth.Main
import CallDepth.Proofs.Calls
import CallDepth.Proofs.Resolution
import CallDepth.Proofs.Measure
import CallDepth.Proofs.CallGraph
import CallDepth.Proofs.Run
import CallDepth.Proofs.DirectEvaluation
import CallDepth.Proofs.CycleBounds
import CallDepth.Proofs.TraceArithmetic
import CallDepth.Proofs.TracePath
import CallDepth.Proofs.Worklist
import CallDepth.Proofs.Coverage
import CallDepth.Proofs.OrderIndependence
import CallDepth.Proofs.HeaviestPath
import CallDepth.Proofs.Lockstep
import CallDepth.Proofs.OptionIndependence
import CallDepth.Proofs.Narration
import CallDepth.Proofs.WordArithmetic
import CallDepth.Proofs.ZeroDepth
import CallDepth.Proofs.Declarations
import CallDepth.Proofs.NameLookup
import CallDepth.Proofs.UnrelatedContracts
import CallDepth.Proofs.FileTrees
import CallDepth.Proofs.Loading
import CallDepth.Proofs.Rerun
import CallDepth.Proofs.StableSorting
import CallDepth.Proofs.BadFiles
import CallDepth.Proofs.DecimalNumerals
import CallDepth.Proofs.DepthRecords
import CallDepth.Proofs.OverloadChoice
import CallDepth.Proofs.SymbolCollection
import CallDepth.Proofs.JsonTrees
import CallDepth.Proofs.SourcePositions
import CallDepth.Proofs.VisibleObjects
import CallDepth.Proofs.Regrouping
import CallDepth.Proofs.ParameterLayouts
import CallDepth.Proofs.Batches
import CallDepth.Proofs.TableSelection
import CallDepth.Proofs.TraceRecords
import CallDepth.Proofs.ElementaryTypes
import CallDepth.Proofs.TracePresence
