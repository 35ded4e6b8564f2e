import DatasetLineage.Graph.Order
import DatasetLineage.Proofs.Collection.Kept
import DatasetLineage.Proofs.Graph.Reachable

/-!
# The topological order

In a depth-first search a dataset is open from its discovery until it is finished.  An open
dataset is on the stack, everything above it there is derived from it, and so are the
undiscovered datasets above it that the search still owes it.  Hence, when a dataset is finished
before something that it leads to, the two are on a cycle.  The order in which datasets are
finished is therefore a topological order, read backwards, unless there is a cycle; and the walks
against the edges find such a pair if there is one.
-/

namespace DatasetLineage

namespace Graph

variable {graph : Graph} {undiscovered finished below : List DatasetId} {top id : DatasetId}

/-! ## The stack of a search -/

/-- A dataset was discovered and is not finished yet. -/
def Open (graph : Graph) (undiscovered finished : List DatasetId) (id : DatasetId) : Prop :=
  id ∈ graph.nodes ∧ id ∉ undiscovered ∧ id ∉ finished

def above (stack : List DatasetId) (id : DatasetId) : List DatasetId :=
  stack.takeWhile (· ≠ id)

theorem above_cons_self (id : DatasetId) (stack : List DatasetId) :
    above (id :: stack) id = [] := by
  simp [above]

theorem above_cons (hne : top ≠ id) (stack : List DatasetId) :
    above (top :: stack) id = top :: above stack id := by
  simp [above, hne]

theorem above_append {pushed : List DatasetId} (habsent : id ∉ pushed) (stack : List DatasetId) :
    above (pushed ++ stack) id = pushed ++ above stack id := by
  refine List.takeWhile_append_of_pos fun other hother => decide_eq_true ?_
  rintro rfl
  exact habsent hother

/-- The state of a depth-first search.  What an open dataset leads to and is undiscovered is
above it on the stack, and whatever is above it can be reached from it.  What a finished dataset
leads to is finished as well, or leads back to it; if it was finished later, it does too. -/
structure Searching (graph : Graph) (undiscovered finished stack : List DatasetId) : Prop where
  distinct : finished.Nodup
  undiscovered_nodes : ∀ id ∈ undiscovered, id ∈ graph.nodes
  finished_nodes : ∀ id ∈ finished, id ∈ graph.nodes ∧ id ∉ undiscovered
  stack_nodes : ∀ id ∈ stack, id ∈ graph.nodes
  stacked : ∀ id, Open graph undiscovered finished id → id ∈ stack
  owed : ∀ id, Open graph undiscovered finished id → ∀ child ∈ undiscovered,
    Leads (edgesOf graph.edges) .derived id child → child ∈ above stack id
  reached : ∀ id, Open graph undiscovered finished id → ∀ other ∈ above stack id,
    Below (edgesOf graph.edges) .derived id other
  returning : ∀ id ∈ finished, ∀ child ∉ finished,
    Leads (edgesOf graph.edges) .derived id child → Reaches (edgesOf graph.edges) .derived child id
  ordered : finished.Pairwise fun front back =>
    Leads (edgesOf graph.edges) .derived back front →
      Reaches (edgesOf graph.edges) .derived front back

theorem searching_start : Searching graph graph.nodes [] [] where
  distinct := .nil
  undiscovered_nodes := fun _ hmem => hmem
  finished_nodes := fun _ hmem => absurd hmem List.not_mem_nil
  stack_nodes := fun _ hmem => absurd hmem List.not_mem_nil
  stacked := fun _ ⟨hmem, hdiscovered, _⟩ => absurd hmem hdiscovered
  owed := fun _ ⟨hmem, hdiscovered, _⟩ => absurd hmem hdiscovered
  reached := fun _ ⟨hmem, hdiscovered, _⟩ => absurd hmem hdiscovered
  returning := fun _ hmem => absurd hmem List.not_mem_nil
  ordered := .nil

namespace Searching

/-- With an empty stack nothing is open, so a search can start anywhere. -/
theorem push (hsearching : Searching graph undiscovered finished []) (hid : id ∈ graph.nodes) :
    Searching graph undiscovered finished [id] where
  distinct := hsearching.distinct
  undiscovered_nodes := hsearching.undiscovered_nodes
  finished_nodes := hsearching.finished_nodes
  stack_nodes := by
    intro other hother
    rwa [List.mem_singleton.1 hother]
  stacked := fun other hopen => absurd (hsearching.stacked other hopen) List.not_mem_nil
  owed := fun other hopen => absurd (hsearching.stacked other hopen) List.not_mem_nil
  reached := fun other hopen => absurd (hsearching.stacked other hopen) List.not_mem_nil
  returning := hsearching.returning
  ordered := hsearching.ordered

/-- A dataset on top of the stack is discovered, and what it leads to is put above it. -/
theorem discover (hsearching : Searching graph undiscovered finished (top :: below))
    (htop : top ∈ undiscovered) :
    Searching graph (without undiscovered top) finished
      (((graph.neighbours .derived top).filter (· ∈ without undiscovered top)).reverse ++
        top :: below) := by
  generalize hpushed : ((graph.neighbours .derived top).filter
    (· ∈ without undiscovered top)).reverse = pushed
  have hmem : ∀ other, other ∈ pushed ↔ Leads (edgesOf graph.edges) .derived top other ∧
      other ∈ undiscovered ∧ other ≠ top := by
    intro other
    rw [← hpushed, List.mem_reverse, List.mem_filter, mem_neighbours, decide_eq_true_iff,
      mem_without]
  have hopen : ∀ {id}, Open graph (without undiscovered top) finished id → id ≠ top →
      Open graph undiscovered finished id := by
    intro id ⟨hnode, hdiscovered, hunfinished⟩ hne
    have hleft : id ∉ undiscovered := fun hmem => hdiscovered (mem_without.2 ⟨hmem, hne⟩)
    exact ⟨hnode, hleft, hunfinished⟩
  have habove : ∀ {id}, Open graph undiscovered finished id →
      above (pushed ++ top :: below) id = pushed ++ above (top :: below) id := by
    intro id hopen
    exact above_append (fun hmember => hopen.2.1 ((hmem id).1 hmember).2.1) _
  have hself : above (pushed ++ top :: below) top = pushed := by
    rw [above_append (fun hmember => ((hmem top).1 hmember).2.2 rfl), above_cons_self,
      List.append_nil]
  constructor
  case distinct => exact hsearching.distinct
  case undiscovered_nodes =>
    intro id hid
    exact hsearching.undiscovered_nodes id (mem_without.1 hid).1
  case finished_nodes =>
    intro id hid
    obtain ⟨hnode, hdiscovered⟩ := hsearching.finished_nodes id hid
    exact ⟨hnode, fun hundiscovered => hdiscovered (mem_without.1 hundiscovered).1⟩
  case stack_nodes =>
    intro id hid
    rcases List.mem_append.1 hid with hnew | hold
    · exact hsearching.undiscovered_nodes id ((hmem id).1 hnew).2.1
    · exact hsearching.stack_nodes id hold
  case stacked =>
    intro id hid
    by_cases heq : id = top
    · rw [heq]
      exact List.mem_append_right _ List.mem_cons_self
    · exact List.mem_append_right _ (hsearching.stacked id (hopen hid heq))
  case owed =>
    intro id hid child hchild hstep
    obtain ⟨hundiscovered, hne⟩ := mem_without.1 hchild
    by_cases heq : id = top
    · subst heq
      rw [hself]
      exact (hmem child).2 ⟨hstep, hundiscovered, hne⟩
    · rw [habove (hopen hid heq)]
      exact List.mem_append_right _ (hsearching.owed id (hopen hid heq) child hundiscovered hstep)
  case reached =>
    intro id hid other hother
    by_cases heq : id = top
    · subst heq
      rw [hself] at hother
      exact .single ((hmem other).1 hother).1
    · rw [habove (hopen hid heq)] at hother
      have hbelow := hsearching.reached id (hopen hid heq)
      rcases List.mem_append.1 hother with hpushed | hstacked
      · -- what is new on the stack comes from `top`, which is above `id` already
        have htop : top ∈ above (top :: below) id := by
          rw [above_cons fun htop => heq htop.symm]
          exact List.mem_cons_self
        exact (hbelow top htop).tail ((hmem other).1 hpushed).1
      · exact hbelow other hstacked
  case returning => exact hsearching.returning
  case ordered => exact hsearching.ordered

/-- What is open below the top of the stack does not need the top, once that is finished. -/
theorem drop (hsearching : Searching graph undiscovered finished (top :: below))
    (htop : top ∈ finished) : Searching graph undiscovered finished below := by
  have habove : ∀ {id}, Open graph undiscovered finished id →
      above (top :: below) id = top :: above below id := by
    intro id hopen
    refine above_cons ?_ below
    rintro rfl
    exact hopen.2.2 htop
  constructor
  case distinct => exact hsearching.distinct
  case undiscovered_nodes => exact hsearching.undiscovered_nodes
  case finished_nodes => exact hsearching.finished_nodes
  case stack_nodes =>
    exact fun id hid => hsearching.stack_nodes id (List.mem_cons_of_mem _ hid)
  case stacked =>
    intro id hopen
    refine (List.mem_cons.1 (hsearching.stacked id hopen)).resolve_left ?_
    rintro rfl
    exact hopen.2.2 htop
  case owed =>
    intro id hopen child hchild hstep
    have hstacked := hsearching.owed id hopen child hchild hstep
    rw [habove hopen] at hstacked
    refine (List.mem_cons.1 hstacked).resolve_left ?_
    rintro rfl
    exact (hsearching.finished_nodes _ htop).2 hchild
  case reached =>
    intro id hopen other hother
    refine hsearching.reached id hopen other ?_
    rw [habove hopen]
    exact List.mem_cons_of_mem _ hother
  case returning => exact hsearching.returning
  case ordered => exact hsearching.ordered

/-- An open dataset on top of the stack has been followed, so it can be finished.  What it leads
to and is not finished is open, and lies below it on the stack. -/
theorem finish (hclosed : Closed graph)
    (hsearching : Searching graph undiscovered finished (top :: below))
    (hopen : Open graph undiscovered finished top) :
    Searching graph undiscovered (top :: finished) (top :: below) := by
  have hreturning : ∀ child ∉ finished, Leads (edgesOf graph.edges) .derived top child →
      Reaches (edgesOf graph.edges) .derived child top := by
    intro child hunfinished hstep
    have hdiscovered : child ∉ undiscovered := by
      intro hundiscovered
      have howed := hsearching.owed top hopen child hundiscovered hstep
      rw [above_cons_self] at howed
      cases howed
    by_cases heq : child = top
    · rw [heq]
    · refine (hsearching.reached child
        ⟨(hclosed.mem_nodes_of_leads hstep).2, hdiscovered, hunfinished⟩ top ?_).to_reflTransGen
      rw [above_cons fun htop => heq htop.symm]
      exact List.mem_cons_self
  have hstill : ∀ {id}, Open graph undiscovered (top :: finished) id →
      Open graph undiscovered finished id := by
    intro id ⟨hnode, hdiscovered, hunfinished⟩
    exact ⟨hnode, hdiscovered, fun hmem => hunfinished (List.mem_cons_of_mem _ hmem)⟩
  constructor
  case distinct => exact List.nodup_cons.2 ⟨hopen.2.2, hsearching.distinct⟩
  case undiscovered_nodes => exact hsearching.undiscovered_nodes
  case finished_nodes =>
    exact List.forall_mem_cons.2 ⟨⟨hopen.1, hopen.2.1⟩, hsearching.finished_nodes⟩
  case stack_nodes => exact hsearching.stack_nodes
  case stacked => exact fun id hid => hsearching.stacked id (hstill hid)
  case owed => exact fun id hid => hsearching.owed id (hstill hid)
  case reached => exact fun id hid => hsearching.reached id (hstill hid)
  case returning =>
    intro id hid child hchild hstep
    have hunfinished : child ∉ finished := fun hmem => hchild (List.mem_cons_of_mem _ hmem)
    rcases List.mem_cons.1 hid with rfl | hid
    · exact hreturning child hunfinished hstep
    · exact hsearching.returning id hid child hunfinished hstep
  case ordered =>
    refine List.pairwise_cons.2 ⟨fun back hback hstep => ?_, hsearching.ordered⟩
    exact hsearching.returning back hback top hopen.2.2 hstep

end Searching

/-! ## A whole search -/

/-- A search works off its stack. -/
theorem Searching.searched (hclosed : Closed graph) {stack : List DatasetId}
    (hsearching : Searching graph undiscovered finished stack) :
    Searching graph (graph.searchStack undiscovered finished stack).undiscovered
      (graph.searchStack undiscovered finished stack).finished [] := by
  fun_induction searchStack graph undiscovered finished stack
  case case1 => exact hsearching
  case case2 top below htop remaining pushed ih => exact ih (hsearching.discover htop)
  case case3 top below _ htop ih => exact ih (hsearching.drop htop)
  case case4 top below hdiscovered hunfinished ih =>
    have hopen : Open graph _ _ top :=
      ⟨hsearching.stack_nodes top List.mem_cons_self, hdiscovered, hunfinished⟩
    exact ih ((hsearching.finish hclosed hopen).drop List.mem_cons_self)

/-- What is undiscovered and not below on a stack is not at its top either, if that was
discovered. -/
theorem undiscovered_cons (htop : top ∉ undiscovered) (hid : id ∈ undiscovered ∧ id ∉ below) :
    id ∈ undiscovered ∧ id ∉ top :: below := by
  refine ⟨hid.1, List.not_mem_cons_of_ne_of_not_mem ?_ hid.2⟩
  rintro rfl
  exact htop hid.1

/-- A search discovers what is on its stack, and forgets nothing. -/
theorem mem_undiscovered_searchStack {stack : List DatasetId}
    (hmem : id ∈ (graph.searchStack undiscovered finished stack).undiscovered) :
    id ∈ undiscovered ∧ id ∉ stack := by
  fun_induction searchStack graph undiscovered finished stack
  case case1 => exact ⟨hmem, List.not_mem_nil⟩
  case case2 top below htop remaining pushed ih =>
    obtain ⟨hremaining, habsent⟩ := ih hmem
    exact ⟨(mem_without.1 hremaining).1, fun hstacked => habsent (List.mem_append_right _ hstacked)⟩
  case case3 top below hdiscovered _ ih => exact undiscovered_cons hdiscovered (ih hmem)
  case case4 top below hdiscovered _ ih => exact undiscovered_cons hdiscovered (ih hmem)

/-- Searches from some datasets, one after the other, discover them all. -/
theorem Searching.foldl_visit (hclosed : Closed graph) (ids : List DatasetId)
    (state : SearchState) (hsearching : Searching graph state.undiscovered state.finished []) :
    Searching graph (ids.foldl graph.visit state).undiscovered
        (ids.foldl graph.visit state).finished [] ∧
      ∀ id ∈ (ids.foldl graph.visit state).undiscovered,
        id ∈ state.undiscovered ∧ id ∉ ids := by
  induction ids generalizing state with
  | nil => exact ⟨hsearching, fun id hid => ⟨hid, List.not_mem_nil⟩⟩
  | cons first rest ih =>
      have hvisit : Searching graph (graph.visit state first).undiscovered
            (graph.visit state first).finished [] ∧
          ∀ id ∈ (graph.visit state first).undiscovered, id ∈ state.undiscovered ∧ id ≠ first := by
        rw [visit]
        split
        · next hundiscovered =>
          have hstart := hsearching.push (hsearching.undiscovered_nodes first hundiscovered)
          refine ⟨hstart.searched hclosed, fun id hid => ?_⟩
          obtain ⟨hbefore, habsent⟩ := mem_undiscovered_searchStack hid
          exact ⟨hbefore, fun heq => habsent (List.mem_singleton.2 heq)⟩
        · next hdiscovered =>
          refine ⟨hsearching, fun id hid => ⟨hid, ?_⟩⟩
          rintro rfl
          exact hdiscovered hid
      obtain ⟨hsearched, hleft⟩ := ih _ hvisit.1
      refine ⟨hsearched, fun id hid => ?_⟩
      obtain ⟨hfirst, hrest⟩ := hleft id hid
      obtain ⟨hstate, hne⟩ := hvisit.2 id hfirst
      exact ⟨hstate, List.not_mem_cons_of_ne_of_not_mem hne hrest⟩

/-- The finishing order is the state of a search that has discovered everything. -/
theorem Closed.searching_finishingOrder (hclosed : Closed graph) :
    Searching graph [] graph.finishingOrder [] := by
  obtain ⟨hsearched, hleft⟩ :=
    Searching.foldl_visit hclosed graph.nodes ⟨graph.nodes, []⟩ searching_start
  have hnone : (graph.nodes.foldl graph.visit ⟨graph.nodes, []⟩).undiscovered = [] := by
    refine List.eq_nil_iff_forall_not_mem.2 fun id hid => ?_
    exact (hleft id hid).2 (hleft id hid).1
  rwa [hnone] at hsearched

/-- Every node is finished once. -/
theorem Closed.finishingOrder_perm (hclosed : Closed graph) :
    graph.finishingOrder.Perm graph.nodes := by
  have hsearched := hclosed.searching_finishingOrder
  refine (List.perm_ext_iff_of_nodup hsearched.distinct hclosed.distinct).2 fun id => ?_
  refine ⟨fun hid => (hsearched.finished_nodes id hid).1, fun hid => ?_⟩
  by_contra hunfinished
  exact List.not_mem_nil (hsearched.stacked id ⟨hid, List.not_mem_nil, hunfinished⟩)

/-! ## Walks against the edges -/

section Walks

variable {discovered order rest : List DatasetId}

/-- A stack of undiscovered datasets is gone on from its top. -/
theorem map_fst_walkBack? {stack : List DatasetId} (hnew : ∀ id ∈ stack, id ∉ discovered) :
    (graph.walkBack? discovered stack).map Prod.fst = stack.head? := by
  cases stack with
  | nil => rfl
  | cons top below =>
      rw [walkBack?, if_neg (hnew top List.mem_cons_self)]
      rfl

/-- A walk from an undiscovered dataset comes to the last of its undiscovered sources, if there
is one.  Otherwise the walk from the next dataset is looked at. -/
theorem secondReached?_cons (hnew : id ∉ discovered) :
    graph.secondReached? discovered (id :: rest) =
      ((graph.neighbours .sources id).filter (· ∉ id :: discovered)).getLast?.or
        (graph.secondReached? (id :: discovered) rest) := by
  generalize hpushed : (graph.neighbours .sources id).filter (· ∉ id :: discovered) = pushed
  have hfirst : graph.walkBack? discovered [id] =
      some (id, id :: discovered, pushed.reverse) := by
    rw [walkBack?, if_neg hnew]
    simp only [hpushed, List.append_nil]
  have hsecond : (graph.walkBack? (id :: discovered) pushed.reverse).map Prod.fst =
      pushed.getLast? := by
    rw [map_fst_walkBack?, List.head?_reverse]
    intro other hother
    rw [List.mem_reverse, ← hpushed, List.mem_filter, decide_eq_true_iff] at hother
    exact hother.2
  rw [secondReached?, hfirst, ← hsecond]
  dsimp only
  cases graph.walkBack? (id :: discovered) pushed.reverse <;> rfl

theorem undiscovered_rest (hdistinct : (id :: rest).Nodup)
    (hnew : ∀ other ∈ id :: rest, other ∉ discovered) :
    ∀ other ∈ rest, other ∉ id :: discovered := by
  intro other hother
  refine List.not_mem_cons_of_ne_of_not_mem ?_ (hnew other (List.mem_cons_of_mem _ hother))
  rintro rfl
  exact (List.nodup_cons.1 hdistinct).1 hother

/-- If no walk comes to a second dataset, no edge leads backwards in the order. -/
theorem pairwise_of_secondReached?_eq_none (hdistinct : order.Nodup)
    (hnew : ∀ id ∈ order, id ∉ discovered)
    (hnone : graph.secondReached? discovered order = none) :
    order.Pairwise fun front back => ¬ Leads (edgesOf graph.edges) .derived back front := by
  induction order generalizing discovered with
  | nil => exact .nil
  | cons id rest ih =>
      have hrest := undiscovered_rest hdistinct hnew
      rw [secondReached?_cons (hnew id List.mem_cons_self), Option.or_eq_none_iff,
        List.getLast?_eq_none_iff] at hnone
      refine List.pairwise_cons.2
        ⟨fun back hback hstep => ?_, ih (List.nodup_cons.1 hdistinct).2 hrest hnone.2⟩
      have hpushed : back ∈ (graph.neighbours .sources id).filter (· ∉ id :: discovered) :=
        List.mem_filter.2 ⟨mem_neighbours.2 (leads_opposite.2 hstep),
          decide_eq_true (hrest back hback)⟩
      rw [hnone.1] at hpushed
      cases hpushed

/-- A second dataset on a walk is on a cycle, if every edge that leads backwards in the order is. -/
theorem below_of_secondReached?_eq_some {second : DatasetId} (hdistinct : order.Nodup)
    (hnew : ∀ id ∈ order, id ∉ discovered)
    (hordered : order.Pairwise fun front back =>
      Leads (edgesOf graph.edges) .derived back front →
        Reaches (edgesOf graph.edges) .derived front back)
    (haccounted : ∀ id ∈ order, ∀ source,
      Leads (edgesOf graph.edges) .derived source id → source ∈ discovered ∨ source ∈ order)
    (hsome : graph.secondReached? discovered order = some second) :
    Below (edgesOf graph.edges) .derived second second := by
  induction order generalizing discovered with
  | nil => cases hsome
  | cons id rest ih =>
      have hrest := undiscovered_rest hdistinct hnew
      obtain ⟨hback, hordered⟩ := List.pairwise_cons.1 hordered
      rw [secondReached?_cons (hnew id List.mem_cons_self), Option.or_eq_some_iff] at hsome
      rcases hsome with hpushed | ⟨_, hlater⟩
      · obtain ⟨hsource, hundiscovered⟩ := List.mem_filter.1 (List.mem_of_getLast? hpushed)
        have hstep : Leads (edgesOf graph.edges) .derived second id :=
          leads_opposite.1 (mem_neighbours.1 hsource)
        have hlater : second ∈ rest := by
          have hmem := haccounted id List.mem_cons_self second hstep
          simp only [List.mem_cons, decide_eq_true_iff] at hmem hundiscovered
          tauto
        exact .head' hstep (hback second hlater hstep)
      · refine ih (List.nodup_cons.1 hdistinct).2 hrest hordered ?_ hlater
        intro other hother source hstep
        have hmem := haccounted other (List.mem_cons_of_mem _ hother) source hstep
        simp only [List.mem_cons] at hmem ⊢
        tauto

end Walks

/-! ## The order -/

/-- Where no edge leads backwards, every edge leads forwards. -/
theorem idxOf_lt_idxOf {order : List DatasetId} {edges : Set Edge}
    (hpairwise : order.Pairwise fun front back => ¬ Leads edges .derived back front)
    {source derived : DatasetId} (hsource : source ∈ order) (hderived : derived ∈ order)
    (hne : source ≠ derived) (hstep : Leads edges .derived source derived) :
    order.idxOf source < order.idxOf derived := by
  by_contra hnot
  rcases Nat.lt_or_eq_of_le (Nat.not_lt.1 hnot) with hlt | heq
  · have hback := List.pairwise_iff_getElem.1 hpairwise _ _ (List.idxOf_lt_length_of_mem hderived)
      (List.idxOf_lt_length_of_mem hsource) hlt
    rw [List.getElem_idxOf, List.getElem_idxOf] at hback
    exact hback hstep
  · exact hne ((List.idxOf_inj hderived).1 heq).symm

/-- An order that is found has every node once, and no edge leads backwards in it. -/
theorem Closed.of_topologicalOrder_eq_ok (hclosed : Closed graph) {order : List DatasetId}
    (hresult : graph.topologicalOrder = .ok order) :
    order.Perm graph.nodes ∧
      order.Pairwise fun front back => ¬ Leads (edgesOf graph.edges) .derived back front := by
  rw [topologicalOrder] at hresult
  split at hresult
  · cases hresult
  · next hnone =>
    cases hresult
    refine ⟨hclosed.finishingOrder_perm, ?_⟩
    exact pairwise_of_secondReached?_eq_none hclosed.searching_finishingOrder.distinct
      (fun _ _ => List.not_mem_nil) hnone

/-- An order is refused only at a dataset on a cycle. -/
theorem Closed.of_topologicalOrder_eq_error (hclosed : Closed graph) {failure : Failure}
    (hresult : graph.topologicalOrder = .error failure) :
    ∃ id, failure = .refused (.cyclicOrder id) ∧ Below (edgesOf graph.edges) .derived id id := by
  have hsearched := hclosed.searching_finishingOrder
  rw [topologicalOrder] at hresult
  split at hresult
  · next second hsome =>
    cases hresult
    refine ⟨second, rfl, ?_⟩
    refine below_of_secondReached?_eq_some hsearched.distinct (fun _ _ => List.not_mem_nil)
      hsearched.ordered (fun id _ source hstep => .inr ?_) hsome
    exact hclosed.finishingOrder_perm.mem_iff.2 (hclosed.mem_nodes_of_leads hstep).1
  · cases hresult

end Graph

namespace Collection

variable {collection : Collection}

/-- The topological order is right, and refused exactly on cycles, whatever merges have led to
the collection and whether they failed.  It has every known dataset once, and the source of
every relation before its derived dataset.  A refusal names a dataset on a cycle. -/
theorem Kept.topologicalOrder_succeeds_iff_acyclic (hkept : Kept collection) :
    ((∃ order, (Graph.ofCollection collection).topologicalOrder = .ok order) ↔
      ∀ id, ¬ Below collection.edges .derived id id) ∧
    (Built collection → ∃ order, (Graph.ofCollection collection).topologicalOrder = .ok order) ∧
    (∀ order, (Graph.ofCollection collection).topologicalOrder = .ok order →
      order.Nodup ∧ (∀ id, id ∈ order ↔ id ∈ collection.datasetIds) ∧
        ∀ relation ∈ collection.relations,
          order.idxOf relation.source < order.idxOf relation.derived) ∧
    ∀ failure, (Graph.ofCollection collection).topologicalOrder = .error failure →
      ∃ id, failure = .refused (.cyclicOrder id) ∧ Below collection.edges .derived id id := by
  have hclosed := Graph.closed_ofCollection hkept.lockstep
  have hsucceeds : Acyclic collection.edges →
      ∃ order, (Graph.ofCollection collection).topologicalOrder = .ok order := by
    intro hacyclic
    cases hresult : (Graph.ofCollection collection).topologicalOrder with
    | ok order => exact ⟨order, rfl⟩
    | error failure =>
        obtain ⟨id, _, hcycle⟩ := hclosed.of_topologicalOrder_eq_error hresult
        exact absurd hcycle (hacyclic id)
  have hforwards : ∀ order, (Graph.ofCollection collection).topologicalOrder = .ok order →
      ∀ relation ∈ collection.relations,
        order.idxOf relation.source < order.idxOf relation.derived := by
    intro order hresult relation hmem
    obtain ⟨hperm, hpairwise⟩ := hclosed.of_topologicalOrder_eq_ok hresult
    obtain ⟨hsource, hderived⟩ := hclosed.ends relation hmem
    exact Graph.idxOf_lt_idxOf hpairwise (hperm.mem_iff.2 hsource) (hperm.mem_iff.2 hderived)
      (hkept.loopless relation hmem) (Relation.edge_mem_edgesOf hmem)
  refine ⟨⟨?_, hsucceeds⟩, fun hbuilt => hsucceeds hbuilt.sound.acyclic, ?_, ?_⟩
  · rintro ⟨order, hresult⟩
    apply acyclic_of_rank order.idxOf
    rintro parent child ⟨relation, hmem, hedge⟩
    cases hedge
    exact hforwards order hresult relation hmem
  · intro order hresult
    have hperm := (hclosed.of_topologicalOrder_eq_ok hresult).1
    exact ⟨hperm.nodup_iff.2 hclosed.distinct, fun id => hperm.mem_iff, hforwards order hresult⟩
  · intro failure hresult
    exact hclosed.of_topologicalOrder_eq_error hresult

/-- Two datasets derived from each other, which are kept after the second merge has failed: the
order is refused at one of them. -/
theorem topologicalOrder_refused_of_backward_edge :
    ∃ collection id, Kept collection ∧
      collection.relations =
        [⟨"nbar", .numbered 1, .numbered 2⟩, ⟨"bias", .numbered 2, .numbered 1⟩] ∧
      (Graph.ofCollection collection).topologicalOrder = .error (.refused (.cyclicOrder id)) ∧
      Below collection.edges .derived id id := by
  let first : Relation := ⟨"nbar", .numbered 1, .numbered 2⟩
  let back : Relation := ⟨"bias", .numbered 2, .numbered 1⟩
  have hkept : Kept ((empty.insertRelation first).insertRelation back) := by
    apply (Kept.empty.insertRelation (by decide) rfl).insertRelation (by decide)
    rw [classifier_insertRelation, if_neg (by decide)]
    rfl
  have hforth : Leads ((empty.insertRelation first).insertRelation back).edges .derived
      (.numbered 1) (.numbered 2) := ⟨first, List.mem_cons_self, rfl⟩
  have hreturn : Leads ((empty.insertRelation first).insertRelation back).edges .derived
      (.numbered 2) (.numbered 1) := ⟨back, List.mem_cons_of_mem _ List.mem_cons_self, rfl⟩
  obtain ⟨hacyclic, _, _, hrefused⟩ := hkept.topologicalOrder_succeeds_iff_acyclic
  cases hresult :
      (Graph.ofCollection ((empty.insertRelation first).insertRelation back)).topologicalOrder with
  | ok order => exact absurd (.tail (.single hforth) hreturn) (hacyclic.1 ⟨order, hresult⟩ _)
  | error failure =>
      obtain ⟨id, rfl, hcycle⟩ := hrefused failure hresult
      exact ⟨_, id, hkept, rfl, hresult, hcycle⟩

end Collection

end DatasetLineage
