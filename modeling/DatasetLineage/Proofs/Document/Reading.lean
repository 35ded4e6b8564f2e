import DatasetLineage.Document.TreeDocument
import DatasetLineage.Proofs.Outcome
import DatasetLineage.Proofs.Tree.Groups
import Mathlib.Data.List.Forall2

/-!
# Reading trees from documents

Every function of the reader has the condition under which it gives a certain result.  A node
is read from its fields one by one, a list of nodes item by item, and the groups of the children
classifier by classifier.  So the children in a tree that was read stand for the children in
its document, and they stand only under the key of the direction of their parent.
-/

namespace DatasetLineage

theorem Direction.eq_opposite_of_ne {direction other : Direction} (hne : direction ≠ other) :
    direction = other.opposite := by
  cases direction <;> cases other <;> first | rfl | exact absurd rfl hne

namespace Json

/-- Nothing is given in a field: it is absent or null. -/
def LeftOut (field : Option Json) : Prop :=
  field = none ∨ field = some .null

def NamesDirection (value : Json) (direction : Direction) : Prop :=
  ∃ written, value.field? "direction" = some (.text written) ∧
    Direction.ofLowered? (Text.lowercase written) = some direction

def ChildNode (value : Json) (direction : Direction) (node : Json) : Prop :=
  ∃ groups classifier nodes, value.field? direction.name = some (.object groups) ∧
    (classifier, .array nodes) ∈ groups ∧ node ∈ nodes

end Json

namespace Tree

open List (Forall₂)

variable {parent direction : Direction} {id : DatasetId} {value : Json} {tree : Tree}

/-! ## Lists side by side -/

theorem exists_left_of_forall₂ {α β : Type} {related : α → β → Prop} {lefts : List α}
    {rights : List β} (hrelated : Forall₂ related lefts rights) {right : β}
    (hright : right ∈ rights) : ∃ left ∈ lefts, related left right := by
  induction hrelated with
  | nil => cases hright
  | @cons first _ _ _ hfirst _ ih =>
      obtain rfl | hright := List.mem_cons.1 hright
      · exact ⟨first, List.mem_cons_self, hfirst⟩
      · obtain ⟨left, hleft, hrelated⟩ := ih hright
        exact ⟨left, List.mem_cons_of_mem _ hleft, hrelated⟩

theorem exists_right_of_forall₂ {α β : Type} {related : α → β → Prop} {lefts : List α}
    {rights : List β} (hrelated : Forall₂ related lefts rights) {left : α}
    (hleft : left ∈ lefts) : ∃ right ∈ rights, related left right :=
  exists_left_of_forall₂ hrelated.flip hleft

theorem exists_forall₂ {α β : Type} {related : α → β → Prop} {lefts : List α}
    (hrelated : ∀ left ∈ lefts, ∃ right, related left right) :
    ∃ rights, Forall₂ related lefts rights := by
  induction lefts with
  | nil => exact ⟨[], .nil⟩
  | cons left rest ih =>
      rw [List.forall_mem_cons] at hrelated
      obtain ⟨right, hright⟩ := hrelated.1
      obtain ⟨rights, hrights⟩ := ih hrelated.2
      exact ⟨right :: rights, .cons hright hrights⟩

theorem rel_getElem? {α β : Type} {related : α → β → Prop} {lefts : List α} {rights : List β}
    (hrelated : Forall₂ related lefts rights) (position : Nat) :
    Option.Rel related lefts[position]? rights[position]? := by
  induction hrelated generalizing position with
  | nil => exact .none
  | cons hfirst _ ih =>
      cases position with
      | zero => exact .some hfirst
      | succ position => exact ih position

/-! ## The fields of a node -/

theorem readId_eq_ok_iff {field : Option Json} :
    readId field = .ok id ↔
      ∃ written, field = some (.text written) ∧ DatasetId.ofText? written = some id := by
  rw [readId.eq_def]
  split
  · next written =>
      cases hid : DatasetId.ofText? written <;> simp [malformed, hid]
  · next hother =>
      constructor
      · intro hresult
        cases hresult
      · rintro ⟨written, hwritten, _⟩
        exact absurd hwritten (hother written)

theorem readHome_eq_ok_iff {field : Option Json} {home : Option String} :
    readHome id field = .ok home ↔
      Json.LeftOut field ∧ home = none ∨ ∃ text, field = some (.text text) ∧ home = some text := by
  rw [readHome.eq_def, Json.LeftOut]
  split <;> simp_all [malformed, eq_comm]

/-- A direction is read from the key that is there. -/
theorem readDirection_eq_ok_iff {fields : List (String × Json)} :
    readDirection id parent fields = .ok direction ↔
      fields.lookup direction.opposite.name = none ∧
        (fields.lookup direction.name = none → direction = parent) := by
  rw [readDirection.eq_def]
  cases hsources : fields.lookup Direction.sources.name <;>
    cases hderived : fields.lookup Direction.derived.name <;>
      cases direction <;> simp [malformed, Direction.opposite, hsources, hderived, eq_comm]

/-- What a document declares about the direction of its root. -/
theorem declaredDirection?_eq_ok_iff {declared : Option Direction} :
    declaredDirection? (value.field? "direction") = .ok declared ↔
      Json.LeftOut (value.field? "direction") ∧ declared = none ∨
        ∃ direction, value.NamesDirection direction ∧ declared = some direction := by
  simp only [Json.LeftOut, Json.NamesDirection]
  generalize value.field? "direction" = field
  rw [declaredDirection?.eq_def]
  split
  · simp [eq_comm]
  · simp [eq_comm]
  · next written =>
      cases hdirection : Direction.ofLowered? (Text.lowercase written) with
      | none => simp [malformed, hdirection]
      | some direction => simp [hdirection, eq_comm]
  · next found hnull htext =>
      constructor
      · intro hresult
        cases hresult
      · rintro (⟨hnone | hfound, _⟩ | ⟨direction, ⟨written, hfound, _⟩, _⟩)
        · cases hnone
        · cases hfound
          exact absurd rfl hnull
        · cases hfound
          exact absurd rfl (htext written)

/-! ## Nodes and their children -/

theorem childrenOf_eq (id : DatasetId) (direction : Direction) (fields : List (String × Json)) :
    childrenOf id direction fields =
      match fields.lookup direction.name with
      | none => .ok .unknown
      | some value => childrenIn id direction value := by
  induction fields with
  | nil => rfl
  | cons field rest ih =>
      obtain ⟨name, value⟩ := field
      rw [childrenOf, List.lookup_cons]
      by_cases hname : name = direction.name
      · rw [if_pos hname, hname, beq_self_eq_true]
      · rw [if_neg hname, beq_false_of_ne (Ne.symm hname), ih]

theorem nodesOf_eq_ok_iff {values : List Json} {trees : List Tree} :
    nodesOf direction values = .ok trees ↔
      Forall₂ (fun value tree => ofNode direction value = .ok tree) values trees := by
  induction values generalizing trees with
  | nil => simp [nodesOf, eq_comm]
  | cons value rest ih =>
      rw [nodesOf, bind_eq_ok, List.forall₂_cons_left_iff]
      constructor
      · intro ⟨tree, hvalue, hrest⟩
        obtain ⟨others, hothers, hpure⟩ := bind_eq_ok.1 hrest
        cases hpure
        exact ⟨tree, others, hvalue, ih.1 hothers, rfl⟩
      · rintro ⟨tree, others, hvalue, hothers, rfl⟩
        exact ⟨tree, hvalue, bind_eq_ok.2 ⟨others, ih.2 hothers, rfl⟩⟩

theorem groupsOf_eq_ok_iff {groups : List (String × Json)}
    {trees : List (String × List Tree)} :
    groupsOf id direction groups = .ok trees ↔
      Forall₂ (fun group (read : String × List Tree) => ∃ nodes,
        group = (read.1, .array nodes) ∧ nodesOf direction nodes = .ok read.2) groups trees := by
  induction groups generalizing trees with
  | nil => simp [groupsOf, eq_comm]
  | cons group rest ih =>
      obtain ⟨classifier, value⟩ := group
      rw [List.forall₂_cons_left_iff]
      constructor
      · intro hresult
        cases value with
        | array nodes =>
            rw [groupsOf] at hresult
            obtain ⟨read, hnodes, hresult⟩ := bind_eq_ok.1 hresult
            obtain ⟨others, hothers, hpure⟩ := bind_eq_ok.1 hresult
            cases hpure
            exact ⟨(classifier, read), others, ⟨nodes, rfl, hnodes⟩, ih.1 hothers, rfl⟩
        | _ => cases hresult
      · rintro ⟨⟨_, read⟩, others, ⟨nodes, heq, hnodes⟩, hothers, rfl⟩
        cases heq
        rw [groupsOf]
        exact bind_eq_ok.2 ⟨read, hnodes, bind_eq_ok.2 ⟨others, ih.2 hothers, rfl⟩⟩

/-- Children are unknown without their key and with null under it, and else they are the
groups that stand there. -/
theorem childrenOf_eq_ok_iff {fields : List (String × Json)} {children : Children Tree} :
    childrenOf id direction fields = .ok children ↔
      (fields.lookup direction.name = none ∨ fields.lookup direction.name = some .null) ∧
          children = .unknown ∨
        ∃ groups trees, fields.lookup direction.name = some (.object groups) ∧
          groupsOf id direction groups = .ok trees ∧ children = .ofGroups trees := by
  rw [childrenOf_eq]
  cases fields.lookup direction.name with
  | none => simp [eq_comm]
  | some value =>
      cases value with
      | null => simp [childrenIn, eq_comm]
      | object groups =>
          constructor
          · intro hresult
            obtain ⟨trees, htrees, hpure⟩ := bind_eq_ok.1 hresult
            cases hpure
            exact .inr ⟨groups, trees, rfl, htrees, rfl⟩
          · intro hcases
            obtain ⟨hnone | hnull, _⟩ | ⟨others, trees, hgroups, htrees, rfl⟩ := hcases
            · cases hnone
            · cases hnull
            · cases hgroups
              exact bind_eq_ok.2 ⟨trees, htrees, rfl⟩
      | _ => simp [childrenIn, malformed]

/-- A node is read from its fields one by one. -/
theorem ofNode_eq_ok_iff :
    ofNode parent value = .ok tree ↔
      ∃ fields, value = .object fields ∧
        readId (fields.lookup "dataset_id") = .ok tree.id ∧
        readHome tree.id (fields.lookup "home") = .ok tree.home ∧
        readDirection tree.id parent fields = .ok tree.direction ∧
        childrenOf tree.id tree.direction fields = .ok tree.children := by
  constructor
  · intro hresult
    cases value with
    | object fields =>
        rw [ofNode] at hresult
        obtain ⟨id, hid, hresult⟩ := bind_eq_ok.1 hresult
        obtain ⟨home, hhome, hresult⟩ := bind_eq_ok.1 hresult
        obtain ⟨direction, hdirection, hresult⟩ := bind_eq_ok.1 hresult
        obtain ⟨children, hchildren, hresult⟩ := bind_eq_ok.1 hresult
        cases hresult
        exact ⟨fields, rfl, hid, hhome, hdirection, hchildren⟩
    | _ => cases hresult
  · rintro ⟨fields, rfl, hid, hhome, hdirection, hchildren⟩
    obtain ⟨direction, id, home, children⟩ := tree
    rw [ofNode]
    refine bind_eq_ok.2 ⟨id, hid, ?_⟩
    refine bind_eq_ok.2 ⟨home, hhome, ?_⟩
    refine bind_eq_ok.2 ⟨direction, hdirection, ?_⟩
    exact bind_eq_ok.2 ⟨children, hchildren, rfl⟩

/-- A document is read as its root, which needs the direction that it names, if it names one. -/
theorem ofDocument_eq_ok_iff {default : Direction} :
    ofDocument value default = .ok tree ↔
      ∃ declared, declaredDirection? (value.field? "direction") = .ok declared ∧
        ofNode (declared.getD default) value = .ok tree ∧
        ∀ direction, declared = some direction → tree.direction = direction := by
  rw [ofDocument, bind_eq_ok]
  refine exists_congr fun declared => and_congr_right fun _ => ?_
  rw [bind_eq_ok]
  cases declared with
  | none => simp [pure, Except.pure]
  | some direction =>
      constructor
      · intro ⟨found, hfound, hresult⟩
        change (if found.direction = direction then Except.ok found else _) = _ at hresult
        split at hresult
        · next hsame =>
            cases hresult
            refine ⟨hfound, ?_⟩
            rintro _ ⟨⟩
            exact hsame
        · cases hresult
      · intro ⟨hfound, hsame⟩
        exact ⟨tree, hfound, if_pos (hsame direction rfl)⟩

theorem ofNode_of_ofDocument {default : Direction} (hread : ofDocument value default = .ok tree) :
    ∃ parent, ofNode parent value = .ok tree := by
  obtain ⟨declared, _, hnode, _⟩ := ofDocument_eq_ok_iff.1 hread
  exact ⟨declared.getD default, hnode⟩

/-! ## Children in a tree and in its document -/

/-- Children stand only under the key of the direction that the node is read in. -/
theorem eq_direction_of_field? (hread : ofNode parent value = .ok tree) {key : Direction}
    (hkey : value.field? key.name ≠ none) : key = tree.direction := by
  obtain ⟨fields, rfl, _, _, hdirection, _⟩ := ofNode_eq_ok_iff.1 hread
  by_contra hne
  rw [Direction.eq_opposite_of_ne hne] at hkey
  exact hkey (readDirection_eq_ok_iff.1 hdirection).1

/-- Every child of a tree that was read stands for a child in its document. -/
theorem exists_childNode_of_link (hread : ofNode parent value = .ok tree)
    {link : String × Tree} (hlink : link ∈ tree.children.links) :
    ∃ node, value.ChildNode tree.direction node ∧ ofNode tree.direction node = .ok link.2 := by
  obtain ⟨fields, rfl, _, _, _, hchildren⟩ := ofNode_eq_ok_iff.1 hread
  obtain ⟨_, hunknown⟩ | ⟨groups, trees, hkey, hgroups, hfound⟩ :=
    childrenOf_eq_ok_iff.1 hchildren
  · rw [hunknown] at hlink
    cases hlink
  · rw [hfound, Children.links_ofGroups] at hlink
    obtain ⟨read, hmem, hnode⟩ := List.mem_flatMap.1 hlink
    obtain ⟨child, hchild, rfl⟩ := List.mem_map.1 hnode
    obtain ⟨group, hgroup, nodes, rfl, hnodes⟩ :=
      exists_left_of_forall₂ (groupsOf_eq_ok_iff.1 hgroups) hmem
    obtain ⟨node, hnode, hchild⟩ := exists_left_of_forall₂ (nodesOf_eq_ok_iff.1 hnodes) hchild
    exact ⟨node, ⟨groups, read.1, nodes, hkey, hgroup, hnode⟩, hchild⟩

/-- Every child in a document that was read stands under the key of the direction of its
parent, and is a child in the tree. -/
theorem exists_link_of_childNode (hread : ofNode parent value = .ok tree) {node : Json}
    (hnode : value.ChildNode direction node) :
    direction = tree.direction ∧
      ∃ link ∈ tree.children.links, ofNode direction node = .ok link.2 := by
  obtain ⟨groups, classifier, nodes, hkey, hgroup, hnode⟩ := hnode
  obtain rfl := eq_direction_of_field? hread (hkey ▸ Option.some_ne_none _)
  obtain ⟨fields, rfl, _, _, _, hchildren⟩ := ofNode_eq_ok_iff.1 hread
  change fields.lookup tree.direction.name = _ at hkey
  obtain ⟨hnone | hnull, _⟩ | ⟨found, trees, hfound, hgroups, hlinks⟩ :=
    childrenOf_eq_ok_iff.1 hchildren
  · cases hnone.symm.trans hkey
  · cases hnull.symm.trans hkey
  · cases hfound.symm.trans hkey
    rw [hlinks, Children.links_ofGroups]
    obtain ⟨read, hmem, listed, hlisted, hnodes⟩ :=
      exists_right_of_forall₂ (groupsOf_eq_ok_iff.1 hgroups) hgroup
    cases hlisted
    obtain ⟨child, hchild, hread⟩ := exists_right_of_forall₂ (nodesOf_eq_ok_iff.1 hnodes) hnode
    refine ⟨rfl, (read.1, child), ?_, hread⟩
    exact List.mem_flatMap.2 ⟨read, hmem, List.mem_map_of_mem hchild⟩

end Tree

end DatasetLineage
