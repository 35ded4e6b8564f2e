import DatasetLineage.Collection.Merge
import DatasetLineage.Proofs.Derivation

/-!
# Depth

Lineage is followed down to some levels in several places, and each of them counts on its
own: a tree is cut off when its levels are used up, a merge follows a tree down to a bound,
and a fetch or a removal goes round by round and never follows a dataset twice.  All of
them mean the same edges.  An edge is in reach of a root if some path leads to it that the
levels allow, be it a short path or a long one.
-/

namespace DatasetLineage

namespace Levels

variable {levels : Levels} {depth : Nat}

/-- Whether nodes of a depth are shown. -/
def Allows (levels : Levels) (depth : Nat) : Prop :=
  ∀ count ∈ levels, depth ≤ count

theorem allows_none : Allows none depth := by
  simp [Allows]

theorem allows_zero : levels.Allows 0 := by
  simp [Allows]

theorem Allows.mono {less : Nat} (hallows : levels.Allows depth) (hle : less ≤ depth) :
    levels.Allows less :=
  fun count hcount => hle.trans (hallows count hcount)

/-- One level further down there is one level less. -/
theorem allows_succ : levels.Allows (depth + 1) ↔ levels ≠ some 0 ∧ levels.next.Allows depth := by
  cases levels with
  | none => simp [Allows, next]
  | some count =>
      simp only [Allows, next, Option.map_some, Option.mem_some_iff, forall_eq', ne_eq,
        Option.some.injEq]
      omega

/-- The nodes below a node are shown unless the tree is cut there. -/
theorem allows_succ_iff_not_cut :
    levels.Allows (depth + 1) ↔ levels.Allows depth ∧ levels.map (· - depth) ≠ some 0 := by
  cases levels with
  | none => simp [Allows]
  | some count =>
      simp only [Allows, Option.map_some, Option.mem_some_iff, forall_eq', ne_eq,
        Option.some.injEq]
      omega

theorem next_left (levels : Levels) (depth : Nat) :
    next (levels.map (· - depth)) = levels.map (· - (depth + 1)) := by
  rw [next, Option.map_map]
  rfl

/-- Every bound leaves at least one level. -/
theorem ofBound_ne_zero {bound : Nat} : ofBound bound ≠ some 0 := by
  rw [ofBound]
  by_cases hzero : bound = 0 <;> simp [hzero]

end Levels

def edgesWithin (edges : Set Edge) (direction : Direction) (levels : Levels)
    (root : DatasetId) : Set Edge :=
  {edge | ∃ depth parent child, levels.Allows (depth + 1) ∧
    ReachesIn edges direction depth root parent ∧ Leads edges direction parent child ∧
      direction.edge parent child = edge}

variable {edges left right : Set Edge} {direction : Direction} {levels : Levels}
  {root : DatasetId}

theorem mem_edgesWithin {parent child : DatasetId} :
    direction.edge parent child ∈ edgesWithin edges direction levels root ↔
      Leads edges direction parent child ∧
        ∃ depth, levels.Allows (depth + 1) ∧ ReachesIn edges direction depth root parent := by
  constructor
  · intro ⟨depth, other, otherChild, hallows, hpath, hstep, hedge⟩
    obtain ⟨rfl, rfl⟩ := Direction.edge_injective hedge
    exact ⟨hstep, depth, hallows, hpath⟩
  · intro ⟨hstep, depth, hallows, hpath⟩
    exact ⟨depth, parent, child, hallows, hpath, hstep, rfl⟩

theorem edgesWithin_subset : edgesWithin edges direction levels root ⊆ edges := by
  rintro _ ⟨_, _, _, _, _, hstep, rfl⟩
  exact hstep

theorem edge_mem_edgesWithin (hcut : levels ≠ some 0) {child : DatasetId}
    (hstep : Leads edges direction root child) :
    direction.edge root child ∈ edgesWithin edges direction levels root := by
  rw [mem_edgesWithin]
  exact ⟨hstep, 0, Levels.allows_succ.2 ⟨hcut, Levels.allows_zero⟩, .refl root⟩

/-- What is in reach of a child is in reach of its parent, with one level more. -/
theorem edgesWithin_next_subset (hcut : levels ≠ some 0) {child : DatasetId}
    (hstep : Leads edges direction root child) :
    edgesWithin edges direction levels.next child ⊆ edgesWithin edges direction levels root := by
  rintro _ ⟨depth, parent, grandchild, hallows, hpath, hleads, rfl⟩
  rw [mem_edgesWithin]
  exact ⟨hleads, depth + 1, Levels.allows_succ.2 ⟨hcut, hallows⟩, .head hstep hpath⟩

/-! ## Edges that agree in reach of a root -/

/-- Two sets of edges lead on in the same way from every dataset in reach of a root. -/
def SameWithin (left right : Set Edge) (direction : Direction) (levels : Levels)
    (root : DatasetId) : Prop :=
  ∀ depth parent, levels.Allows depth → ReachesIn right direction depth root parent →
    ∀ child, Leads left direction parent child ↔ Leads right direction parent child

theorem SameWithin.next (hsame : SameWithin left right direction levels root)
    (hcut : levels ≠ some 0) {child : DatasetId} (hstep : Leads right direction root child) :
    SameWithin left right direction levels.next child :=
  fun depth parent hallows hpath =>
    hsame (depth + 1) parent (Levels.allows_succ.2 ⟨hcut, hallows⟩) (.head hstep hpath)

theorem SameWithin.reachesIn_iff (hsame : SameWithin left right direction levels root)
    {depth : Nat} {target : DatasetId} (hallows : levels.Allows depth) :
    ReachesIn left direction depth root target ↔ ReachesIn right direction depth root target := by
  induction depth generalizing levels root with
  | zero => rw [reachesIn_zero, reachesIn_zero]
  | succ depth ih =>
      obtain ⟨hcut, hnext⟩ := Levels.allows_succ.1 hallows
      rw [reachesIn_succ, reachesIn_succ]
      apply exists_congr
      intro child
      rw [hsame 0 root Levels.allows_zero (.refl root) child]
      apply and_congr_right
      intro hstep
      exact ih (hsame.next hcut hstep) hnext

theorem SameWithin.edgesWithin_eq (hsame : SameWithin left right direction levels root) :
    edgesWithin left direction levels root = edgesWithin right direction levels root := by
  ext edge
  obtain ⟨parent, child, rfl⟩ := direction.exists_edge edge
  rw [mem_edgesWithin, mem_edgesWithin]
  have hshorter : ∀ depth, levels.Allows (depth + 1) → levels.Allows depth :=
    fun depth hallows => hallows.mono (Nat.le_succ depth)
  constructor
  · intro ⟨hstep, depth, hallows, hpath⟩
    have hright := (hsame.reachesIn_iff (hshorter depth hallows)).1 hpath
    exact ⟨(hsame depth parent (hshorter depth hallows) hright child).1 hstep, depth, hallows,
      hright⟩
  · intro ⟨hstep, depth, hallows, hpath⟩
    exact ⟨(hsame depth parent (hshorter depth hallows) hpath child).2 hstep, depth, hallows,
      (hsame.reachesIn_iff (hshorter depth hallows)).2 hpath⟩

end DatasetLineage
