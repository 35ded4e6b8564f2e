import DatasetLineage.Relation
import Mathlib.Data.Fintype.Card
import Mathlib.Data.Fintype.EquivFin
import Mathlib.Data.Set.Insert
import Mathlib.Logic.Relation

/-!
# Derivation paths

Edges between datasets, and the paths they make up.  A path can be read in either
direction; a cycle is a cycle in both.  The main results say when edges without a
cycle stay without one: a single new edge can close a cycle only through its own
ends, and edges that are added to a part of the lineage can close a cycle only
inside the part that is connected to them.
-/

namespace DatasetLineage

theorem Direction.edge_injective {direction : Direction}
    {parent child otherParent otherChild : DatasetId}
    (heq : direction.edge parent child = direction.edge otherParent otherChild) :
    parent = otherParent ∧ child = otherChild := by
  cases direction <;> cases heq <;> exact ⟨rfl, rfl⟩

theorem Direction.exists_edge (direction : Direction) (edge : Edge) :
    ∃ parent child, direction.edge parent child = edge := by
  cases direction with
  | sources => exact ⟨edge.derived, edge.source, rfl⟩
  | derived => exact ⟨edge.source, edge.derived, rfl⟩

/-- The pairs of datasets that a list of relations joins. -/
def edgesOf (relations : List Relation) : Set Edge :=
  {edge | ∃ relation ∈ relations, relation.edge = edge}

/-- One step in a direction, from a parent to its child. -/
def Leads (edges : Set Edge) (direction : Direction) (parent child : DatasetId) : Prop :=
  direction.edge parent child ∈ edges

/-- A dataset is reached from another one by any number of steps. -/
abbrev Reaches (edges : Set Edge) (direction : Direction) :
    DatasetId → DatasetId → Prop :=
  Relation.ReflTransGen (Leads edges direction)

/-- A dataset is reached from another one by one or more steps. -/
abbrev Below (edges : Set Edge) (direction : Direction) :
    DatasetId → DatasetId → Prop :=
  Relation.TransGen (Leads edges direction)

/-- No dataset is derived from itself, be it over any number of steps. -/
def Acyclic (edges : Set Edge) : Prop :=
  ∀ id, ¬ Below edges .derived id id

variable {edges more : Set Edge} {direction : Direction}

theorem mem_edgesOf {relations : List Relation} {edge : Edge} :
    edge ∈ edgesOf relations ↔ ∃ relation ∈ relations, relation.edge = edge :=
  Iff.rfl

theorem Relation.edge_mem_edgesOf {relation : Relation} {relations : List Relation}
    (hmem : relation ∈ relations) : relation.edge ∈ edgesOf relations :=
  ⟨relation, hmem, rfl⟩

theorem edgesOf_append (left right : List Relation) :
    edgesOf (left ++ right) = edgesOf left ∪ edgesOf right := by
  ext edge
  simp only [mem_edgesOf, Set.mem_union, List.mem_append, or_and_right, exists_or]

theorem edgesOf_nil : edgesOf [] = ∅ := by
  ext edge
  simp [mem_edgesOf]

theorem Leads.mono (hsubset : edges ⊆ more) {parent child : DatasetId}
    (hstep : Leads edges direction parent child) : Leads more direction parent child :=
  hsubset hstep

theorem Below.mono (hsubset : edges ⊆ more) {origin target : DatasetId}
    (hpath : Below edges direction origin target) : Below more direction origin target :=
  hpath.lift id fun _ _ => Leads.mono hsubset

/-! ## Reading a path backwards -/

theorem leads_opposite {parent child : DatasetId} :
    Leads edges direction.opposite child parent ↔ Leads edges direction parent child := by
  rw [Leads, Leads, Direction.edge_opposite]

theorem below_opposite {origin target : DatasetId} :
    Below edges direction.opposite target origin ↔ Below edges direction origin target := by
  have hswap : Leads edges direction.opposite = Function.swap (Leads edges direction) := by
    funext child parent
    exact propext leads_opposite
  rw [Below, hswap]
  exact Relation.transGen_swap

/-- Whether there is a cycle does not depend on the direction of reading. -/
theorem acyclic_iff (direction : Direction) :
    Acyclic edges ↔ ∀ id, ¬ Below edges direction id id := by
  cases direction with
  | derived => exact Iff.rfl
  | sources =>
      refine forall_congr' fun id => not_congr ?_
      exact @below_opposite edges .sources id id

namespace Acyclic

theorem mono (hacyclic : Acyclic more) (hsubset : edges ⊆ more) : Acyclic edges :=
  fun id hcycle => hacyclic id (hcycle.mono hsubset)

theorem not_below (hacyclic : Acyclic edges) (direction : Direction) (id : DatasetId) :
    ¬ Below edges direction id id :=
  (acyclic_iff direction).1 hacyclic id

/-- Without a cycle no edge leads back to where it starts. -/
theorem source_ne_derived (hacyclic : Acyclic edges) {edge : Edge} (hmem : edge ∈ edges) :
    edge.source ≠ edge.derived := by
  intro heq
  refine hacyclic edge.source (.single ?_)
  change (⟨edge.source, edge.source⟩ : Edge) ∈ edges
  obtain ⟨source, derived⟩ := edge
  cases heq
  exact hmem

end Acyclic

theorem acyclic_empty : Acyclic ∅ := by
  intro id hcycle
  obtain ⟨_, hstep, _⟩ := Relation.TransGen.head'_iff.1 hcycle
  exact hstep

/-- Edges that all lead to a greater rank make no cycle. -/
theorem acyclic_of_rank (rank : DatasetId → Nat)
    (hascending : ∀ {parent child}, Leads edges .derived parent child →
      rank parent < rank child) : Acyclic edges := by
  have hpath : ∀ {origin target}, Below edges .derived origin target →
      rank origin < rank target := by
    intro origin target hpath
    induction hpath with
    | single hleads => exact hascending hleads
    | tail _ hleads ih => exact ih.trans (hascending hleads)
  exact fun id hcycle => (hpath hcycle).false

/-- Relations that all lead to greater ids make no cycle. -/
theorem acyclic_of_ascending {relations : List Relation}
    (hascending : ∀ relation ∈ relations, relation.source.value < relation.derived.value) :
    Acyclic (edgesOf relations) := by
  apply acyclic_of_rank DatasetId.value
  rintro parent child ⟨relation, hrelation, hedge⟩
  cases hedge
  exact hascending relation hrelation

/-! ## Paths of a length -/

/-- A dataset is reached from another one by a number of steps. -/
inductive ReachesIn (edges : Set Edge) (direction : Direction) :
    Nat → DatasetId → DatasetId → Prop
  | refl (id : DatasetId) : ReachesIn edges direction 0 id id
  | head {depth : Nat} {parent child target : DatasetId} :
      Leads edges direction parent child → ReachesIn edges direction depth child target →
        ReachesIn edges direction (depth + 1) parent target

theorem reachesIn_zero {origin target : DatasetId} :
    ReachesIn edges direction 0 origin target ↔ origin = target := by
  constructor
  · intro hpath
    cases hpath
    rfl
  · rintro rfl
    exact .refl origin

theorem reachesIn_succ {depth : Nat} {origin target : DatasetId} :
    ReachesIn edges direction (depth + 1) origin target ↔
      ∃ child, Leads edges direction origin child ∧
        ReachesIn edges direction depth child target := by
  constructor
  · intro hpath
    cases hpath with
    | head hstep hrest => exact ⟨_, hstep, hrest⟩
  · intro ⟨child, hstep, hrest⟩
    exact .head hstep hrest

/-- A path can also be taken apart at its last step. -/
theorem reachesIn_succ_last {depth : Nat} {origin target : DatasetId} :
    ReachesIn edges direction (depth + 1) origin target ↔
      ∃ parent, ReachesIn edges direction depth origin parent ∧
        Leads edges direction parent target := by
  induction depth generalizing origin with
  | zero =>
      rw [reachesIn_succ]
      simp only [reachesIn_zero, exists_eq_right, exists_eq_left']
  | succ depth ih =>
      rw [reachesIn_succ]
      constructor
      · intro ⟨child, hstep, hrest⟩
        obtain ⟨parent, hpath, hlast⟩ := ih.1 hrest
        exact ⟨parent, .head hstep hpath, hlast⟩
      · intro ⟨parent, hpath, hlast⟩
        obtain ⟨child, hstep, hrest⟩ := reachesIn_succ.1 hpath
        exact ⟨child, hstep, ih.2 ⟨parent, hrest, hlast⟩⟩

theorem ReachesIn.reaches {depth : Nat} {origin target : DatasetId}
    (hpath : ReachesIn edges direction depth origin target) :
    Reaches edges direction origin target := by
  induction hpath with
  | refl id => exact .refl
  | head hstep _ ih => exact .head hstep ih

theorem exists_reachesIn {origin target : DatasetId}
    (hpath : Reaches edges direction origin target) :
    ∃ depth, ReachesIn edges direction depth origin target := by
  induction hpath using Relation.ReflTransGen.head_induction_on with
  | refl => exact ⟨0, .refl target⟩
  | head hstep _ ih =>
      obtain ⟨depth, hrest⟩ := ih
      exact ⟨depth + 1, .head hstep hrest⟩

theorem ReachesIn.append {first second : Nat} {origin middle target : DatasetId}
    (hfirst : ReachesIn edges direction first origin middle)
    (hsecond : ReachesIn edges direction second middle target) :
    ReachesIn edges direction (first + second) origin target := by
  induction hfirst with
  | refl id =>
      rw [Nat.zero_add]
      exact hsecond
  | head hstep _ ih =>
      rw [Nat.add_right_comm]
      exact .head hstep (ih hsecond)

/-! ## One more edge -/

/-- A path over one more edge avoids it, or reaches it and goes on behind it. -/
theorem below_insert {edge : Edge} {origin target : DatasetId}
    (hpath : Below (insert edge edges) .derived origin target) :
    Below edges .derived origin target ∨
      Reaches (insert edge edges) .derived origin edge.source ∧
        Reaches (insert edge edges) .derived edge.derived target := by
  induction hpath with
  | single hstep =>
      rcases hstep with heq | hold
      · subst heq
        exact .inr ⟨.refl, .refl⟩
      · exact .inl (.single hold)
  | tail hpath hstep ih =>
      rcases ih with hold | ⟨hfirst, hlast⟩
      · rcases hstep with heq | hmem
        · subst heq
          exact .inr ⟨hpath.to_reflTransGen, .refl⟩
        · exact .inl (hold.tail hmem)
      · exact .inr ⟨hfirst, hlast.tail hstep⟩

/-- A cycle that an edge closes leads through both of its ends. -/
theorem Acyclic.cycle_through_insert (hacyclic : Acyclic edges) {edge : Edge} {id : DatasetId}
    (hcycle : Below (insert edge edges) .derived id id) :
    Below (insert edge edges) .derived edge.source edge.source ∧
      Below (insert edge edges) .derived edge.derived edge.derived := by
  have hedge : Leads (insert edge edges) .derived edge.source edge.derived :=
    Set.mem_insert edge edges
  rcases below_insert hcycle with hold | ⟨hfirst, hlast⟩
  · exact absurd hold (hacyclic id)
  · have hback : Reaches (insert edge edges) .derived edge.derived edge.source :=
      hlast.trans hfirst
    exact ⟨Relation.TransGen.head' hedge hback, Relation.TransGen.tail' hback hedge⟩

/-- A new edge closes no cycle unless its derived end can be reached from itself. -/
theorem acyclic_insert (hacyclic : Acyclic edges) {edge : Edge}
    (hend : ¬ Below (insert edge edges) .derived edge.derived edge.derived) :
    Acyclic (insert edge edges) :=
  fun _ hcycle => hend (hacyclic.cycle_through_insert hcycle).2

/-- An edge with an end that no other edge touches closes no cycle. -/
theorem acyclic_insert_of_fresh (hacyclic : Acyclic edges) {edge : Edge}
    (hends : edge.source ≠ edge.derived)
    (hfresh : (∀ other ∈ edges, other.derived ≠ edge.source) ∨
      ∀ other ∈ edges, other.source ≠ edge.derived) : Acyclic (insert edge edges) := by
  intro id hcycle
  obtain ⟨hsource, hderived⟩ := hacyclic.cycle_through_insert hcycle
  rcases hfresh with hfresh | hfresh
  · obtain ⟨before, _, hstep⟩ := Relation.TransGen.tail'_iff.1 hsource
    rcases hstep with heq | hmem
    · exact hends (congrArg Edge.derived heq)
    · exact hfresh _ hmem rfl
  · obtain ⟨after, hstep, _⟩ := Relation.TransGen.head'_iff.1 hderived
    rcases hstep with heq | hmem
    · exact hends (congrArg Edge.source heq).symm
    · exact hfresh _ hmem rfl

/-! ## Edges added to a part -/

/-- A part of the edges that is connected to nothing outside: an edge that touches one
of the datasets has both ends among them and belongs to the part. -/
structure Enclosed (edges part : Set Edge) (inside : Set DatasetId) : Prop where
  subset : part ⊆ edges
  closed : ∀ edge ∈ edges, edge.source ∈ inside ∨ edge.derived ∈ inside →
    edge ∈ part ∧ edge.source ∈ inside ∧ edge.derived ∈ inside

namespace Enclosed

variable {part : Set Edge} {inside : Set DatasetId}

/-- From inside, a path over old and new edges stays inside and uses edges of the part
and new ones only. -/
theorem below_inside (henclosed : Enclosed edges part inside)
    (hmore : ∀ edge ∈ more, edge.source ∈ inside ∧ edge.derived ∈ inside)
    {origin target : DatasetId} (horigin : origin ∈ inside)
    (hpath : Below (edges ∪ more) .derived origin target) :
    target ∈ inside ∧ Below (part ∪ more) .derived origin target := by
  have hstep : ∀ {parent child : DatasetId}, parent ∈ inside →
      Leads (edges ∪ more) .derived parent child →
        child ∈ inside ∧ Leads (part ∪ more) .derived parent child := by
    intro parent child hparent hleads
    rcases hleads with hold | hnew
    · obtain ⟨hpart, _, hchild⟩ := henclosed.closed _ hold (.inl hparent)
      exact ⟨hchild, .inl hpart⟩
    · exact ⟨(hmore _ hnew).2, .inr hnew⟩
  induction hpath with
  | single hleads =>
      obtain ⟨hchild, hleads⟩ := hstep horigin hleads
      exact ⟨hchild, .single hleads⟩
  | tail _ hleads ih =>
      obtain ⟨hmiddle, hpath⟩ := ih
      obtain ⟨hchild, hleads⟩ := hstep hmiddle hleads
      exact ⟨hchild, hpath.tail hleads⟩

/-- From outside, a path over old and new edges stays outside and uses old edges
only. -/
theorem below_outside (henclosed : Enclosed edges part inside)
    (hmore : ∀ edge ∈ more, edge.source ∈ inside ∧ edge.derived ∈ inside)
    {origin target : DatasetId} (horigin : origin ∉ inside)
    (hpath : Below (edges ∪ more) .derived origin target) :
    target ∉ inside ∧ Below edges .derived origin target := by
  have hstep : ∀ {parent child : DatasetId}, parent ∉ inside →
      Leads (edges ∪ more) .derived parent child →
        child ∉ inside ∧ Leads edges .derived parent child := by
    intro parent child hparent hleads
    rcases hleads with hold | hnew
    · refine ⟨fun hchild => hparent ?_, hold⟩
      exact (henclosed.closed _ hold (.inr hchild)).2.1
    · exact absurd (hmore _ hnew).1 hparent
  induction hpath with
  | single hleads =>
      obtain ⟨hchild, hleads⟩ := hstep horigin hleads
      exact ⟨hchild, .single hleads⟩
  | tail _ hleads ih =>
      obtain ⟨hmiddle, hpath⟩ := ih
      obtain ⟨hchild, hleads⟩ := hstep hmiddle hleads
      exact ⟨hchild, hpath.tail hleads⟩

/-- New edges between datasets of a part leave it enclosed, and belong to it. -/
theorem union (henclosed : Enclosed edges part inside)
    (hmore : ∀ edge ∈ more, edge.source ∈ inside ∧ edge.derived ∈ inside) :
    Enclosed (edges ∪ more) (part ∪ more) inside where
  subset := Set.union_subset_union_left _ henclosed.subset
  closed := by
    intro edge hedge htouched
    cases hedge with
    | inl hold =>
        obtain ⟨hpart, hends⟩ := henclosed.closed edge hold htouched
        exact ⟨.inl hpart, hends⟩
    | inr hnew => exact ⟨.inr hnew, hmore edge hnew⟩

/-- New edges between datasets of a part can close a cycle only within that part. -/
theorem acyclic_union (henclosed : Enclosed edges part inside)
    (hmore : ∀ edge ∈ more, edge.source ∈ inside ∧ edge.derived ∈ inside)
    (hedges : Acyclic edges) (hpart : Acyclic (part ∪ more)) : Acyclic (edges ∪ more) := by
  intro id hcycle
  by_cases hinside : id ∈ inside
  · exact hpart id (henclosed.below_inside hmore hinside hcycle).2
  · exact hedges id (henclosed.below_outside hmore hinside hcycle).2

end Enclosed

/-! ## Descending without end -/

instance : Finite DatasetId :=
  Finite.of_injective (fun id => (⟨id.value, id.bounded⟩ : Fin DatasetId.limit))
    fun left right heq => by
      cases left
      cases right
      simpa using heq

/-- Without a cycle every descent ends, so statements about datasets can be proved from
the far ends of the edges up to where they start. -/
theorem Acyclic.wellFounded (hacyclic : Acyclic edges) (direction : Direction) :
    WellFounded fun child parent => Leads edges direction parent child := by
  have hirrefl : Std.Irrefl fun child parent => Below edges direction parent child :=
    ⟨hacyclic.not_below direction⟩
  have htrans : IsTrans DatasetId fun child parent => Below edges direction parent child :=
    ⟨fun _ _ _ hlower hupper => hupper.trans hlower⟩
  have hbelow : WellFounded fun child parent => Below edges direction parent child :=
    Finite.wellFounded_of_trans_of_irrefl _
  exact Subrelation.wf (fun hstep => .single hstep) hbelow

end DatasetLineage
