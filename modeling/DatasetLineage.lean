import DatasetLineage.Main
import DatasetLineage.Proofs.Tree.Search
import DatasetLineage.Proofs.Collection.RoundTrip
import DatasetLineage.Proofs.Collection.Arrival
import DatasetLineage.Proofs.Collection.Duplicates
import DatasetLineage.Proofs.Collection.Comparison
import DatasetLineage.Proofs.Collection.Views
import DatasetLineage.Proofs.Collection.Truncation
import DatasetLineage.Proofs.Collection.Restored
import DatasetLineage.Proofs.Collection.Exploration
import DatasetLineage.Proofs.Collection.Duality
import DatasetLineage.Proofs.Collection.Repetition
import DatasetLineage.Proofs.Collection.Composition
import DatasetLineage.Proofs.Graph.Reachable
import DatasetLineage.Proofs.Graph.Order
import DatasetLineage.Proofs.Graph.Statistics
import DatasetLineage.Proofs.Store.History
import DatasetLineage.Proofs.Store.Refinement
import DatasetLineage.Proofs.Store.AllOrNothing
import DatasetLineage.Proofs.Store.Accesses
import DatasetLineage.Proofs.Store.Homes
import DatasetLineage.Proofs.Store.Calls
import DatasetLineage.Proofs.Store.Interleaving
import DatasetLineage.Proofs.Store.Rounds
import DatasetLineage.Proofs.Store.Repeating
import DatasetLineage.Proofs.Document.Grammar
import DatasetLineage.Proofs.Document.TreeFile
import DatasetLineage.Proofs.Document.SnapshotFile
import DatasetLineage.Proofs.CommandLine.Adding
import DatasetLineage.Proofs.Settings.Layers
import DatasetLineage.Proofs.Document.Rereading
