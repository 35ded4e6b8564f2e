import DatasetLineage.Document.Format

/-!
# Settings

How deep trees are merged and whether recorded values may change, how careful
the store is, and how results are printed.  Settings can be layered: what a layer
leaves at its default does not override the layer below.
-/

namespace DatasetLineage

/-- How trees are merged. -/
structure MergeSettings where
  /-- Levels of a tree to merge; zero is all of them. -/
  maxDepth : Nat := 0
  allowUpdates : Bool := false
deriving DecidableEq, Inhabited

/-- How the store is used. -/
structure StoreSettings where
  /-- Refuse lineage that mentions datasets the store does not hold. -/
  requireKnownDatasets : Bool := false
  /-- Most rounds of fetching stored lineage; zero is no limit. -/
  maxFetchRounds : Nat := 0
deriving DecidableEq, Inhabited

/-- How results are printed. -/
structure OutputSettings where
  format : Format := .json
  pretty : Bool := true
deriving DecidableEq, Inhabited

/-- All settings. -/
structure Settings where
  merge : MergeSettings := {}
  store : StoreSettings := {}
  output : OutputSettings := {}
deriving DecidableEq, Inhabited

namespace Settings

/-- Layer settings over others: numbers other than zero, flags that are set and a
format other than JSON override what was there, and so does pretty printing,
always. -/
def layered (base upper : Settings) : Settings :=
  { merge :=
      { maxDepth := if upper.merge.maxDepth ≠ 0 then upper.merge.maxDepth
          else base.merge.maxDepth
        allowUpdates := base.merge.allowUpdates || upper.merge.allowUpdates }
    store :=
      { requireKnownDatasets :=
          base.store.requireKnownDatasets || upper.store.requireKnownDatasets
        maxFetchRounds := if upper.store.maxFetchRounds ≠ 0 then upper.store.maxFetchRounds
          else base.store.maxFetchRounds }
    output :=
      { format := if upper.output.format ≠ .json then upper.output.format
          else base.output.format
        pretty := upper.output.pretty } }

end Settings

end DatasetLineage
