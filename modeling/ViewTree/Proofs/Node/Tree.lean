import ViewTree.Node

/-
  ViewTree.Proofs.Node.Tree — a node with everything below it.

  A property of single nodes holds throughout a tree when it holds of the root and of every
  node below it (`Throughout`). A tree is written as its object as long as it has no more
  levels than are written (`dump?_eq_some_iff`). A tree is plain when none of its nodes
  stands in for a component; `plain` forgets the components that nodes stand in for, and
  keeps everything else.
-/

namespace ViewTree

mutual
/-- A property of a node and of every node below it. -/
def Node.Throughout (p : Node → Prop) : Node → Prop
  | ⟨id, type, props, children, events, extras, source⟩ =>
    p ⟨id, type, props, children, events, extras, source⟩ ∧ Node.ThroughoutAll p children

def Node.ThroughoutAll (p : Node → Prop) : List Node → Prop
  | [] => True
  | node :: rest => Node.Throughout p node ∧ Node.ThroughoutAll p rest
end

theorem Node.throughout_iff {p : Node → Prop} {node : Node} :
    node.Throughout p ↔ p node ∧ Node.ThroughoutAll p node.children := by
  cases node
  rw [Node.Throughout]

theorem Node.throughoutAll_iff {p : Node → Prop} {nodes : List Node} :
    Node.ThroughoutAll p nodes ↔ ∀ node ∈ nodes, node.Throughout p := by
  induction nodes with
  | nil => simp [Node.ThroughoutAll]
  | cons node rest ih => rw [Node.ThroughoutAll, ih, List.forall_mem_cons]

mutual
theorem Node.Throughout.mono {p q : Node → Prop} (h : ∀ node, p node → q node) :
    ∀ {node : Node}, node.Throughout p → node.Throughout q
  | ⟨_, _, _, _, _, _, _⟩, hnode => by
    rw [Node.Throughout] at hnode ⊢
    exact ⟨h _ hnode.1, Node.ThroughoutAll.mono h hnode.2⟩

theorem Node.ThroughoutAll.mono {p q : Node → Prop} (h : ∀ node, p node → q node) :
    ∀ {nodes : List Node}, Node.ThroughoutAll p nodes → Node.ThroughoutAll q nodes
  | [], _ => trivial
  | _ :: _, hnodes => ⟨Node.Throughout.mono h hnodes.1, Node.ThroughoutAll.mono h hnodes.2⟩
end

namespace Node

/-! ## Levels -/

theorem levels_eq (node : Node) : node.levels = levelsEach node.children + 1 := by
  cases node
  rw [levels]

theorem dump?_eq_some_iff {node : Node} {v : Json} :
    node.dump? = some v ↔ node.levels ≤ maxWritten ∧ node.toJson = v := by
  simp [dump?]

theorem dump?_eq_none_iff {node : Node} : node.dump? = none ↔ maxWritten < node.levels := by
  simp [dump?]

theorem dump?_of_le {node : Node} (h : node.levels ≤ maxWritten) :
    node.dump? = some node.toJson := if_pos h

/-! ## Plain trees -/

mutual
/-- A tree that forgets what its nodes stand in for. -/
def plain : Node → Node
  | ⟨id, type, props, children, events, extras, _⟩ =>
    ⟨id, type, props, plainEach children, events, extras, none⟩

def plainEach : List Node → List Node
  | [] => []
  | node :: rest => plain node :: plainEach rest
end

mutual
/-- What a node stands in for is not written. -/
theorem toFields_plain : ∀ node : Node, node.plain.toFields = node.toFields
  | ⟨_, _, _, children, _, _, _⟩ => by
    rw [plain, toFields, toFields, toItems_plainEach children]

theorem toItems_plainEach : ∀ nodes : List Node, toItems (plainEach nodes) = toItems nodes
  | [] => rfl
  | node :: rest => by
    rw [plainEach, toItems, toItems, toFields_plain node, toItems_plainEach rest]
end

mutual
theorem levels_plain : ∀ node : Node, node.plain.levels = node.levels
  | ⟨_, _, _, children, _, _, _⟩ => by
    rw [plain, levels, levels, levelsEach_plainEach children]

theorem levelsEach_plainEach : ∀ nodes : List Node, levelsEach (plainEach nodes) = levelsEach nodes
  | [] => rfl
  | node :: rest => by
    rw [plainEach, levelsEach, levelsEach, levels_plain node, levelsEach_plainEach rest]
end

@[simp] theorem toJson_plain (node : Node) : node.plain.toJson = node.toJson :=
  congrArg Json.obj node.toFields_plain

end Node

end ViewTree
