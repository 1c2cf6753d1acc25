import Mathlib.Data.List.Basic

/-!
# Trees with any number of children

A tree is a label with a list of subtrees.  Functions on trees combine the
label of a node with the results for its children; `fold_node` is their one
equation, and `rec_children` the induction that goes with it.
-/

namespace Corduit.Collection

universe u v

/-- A labelled tree. -/
inductive RoseTree (α : Type u) where
  | node (label : α) (children : List (RoseTree α))

namespace RoseTree

variable {α : Type u} {β : Type v}

/-- The label at the root. -/
def label : RoseTree α → α
  | node label _ => label

/-- The subtrees below the root. -/
def children : RoseTree α → List (RoseTree α)
  | node _ children => children

mutual

/-- Combine each label with the results for the children. -/
def fold (combine : α → List β → β) : RoseTree α → β
  | node label children => combine label (foldAll combine children)

/-- `fold` for every tree of a list. -/
def foldAll (combine : α → List β → β) : List (RoseTree α) → List β
  | [] => []
  | child :: children => fold combine child :: foldAll combine children

end

theorem foldAll_eq_map (combine : α → List β → β) (children : List (RoseTree α)) :
    foldAll combine children = children.map (fold combine) := by
  induction children with
  | nil => rfl
  | cons child children ih => rw [foldAll, ih, List.map_cons]

theorem fold_node (combine : α → List β → β) (label : α) (children : List (RoseTree α)) :
    fold combine (node label children) = combine label (children.map (fold combine)) := by
  rw [fold, foldAll_eq_map]

/-- What holds of a node whenever it holds of its children holds of every tree. -/
theorem rec_children {property : RoseTree α → Prop}
    (step : ∀ label children, (∀ child ∈ children, property child) →
      property (node label children)) (tree : RoseTree α) : property tree := by
  refine @RoseTree.rec α property (fun children => ∀ child ∈ children, property child)
    step ?_ ?_ tree
  · simp
  · intro first rest firstHolds restHold child member
    rcases List.mem_cons.mp member with rfl | member
    · exact firstHolds
    · exact restHold child member

/-- The labels of all nodes. -/
def labels (tree : RoseTree α) : List α :=
  tree.fold fun label below => label :: below.flatten

theorem labels_node (label : α) (children : List (RoseTree α)) :
    (node label children).labels = label :: (children.map labels).flatten :=
  fold_node ..

/-- A subtree at any depth. -/
inductive Within : RoseTree α → RoseTree α → Prop where
  | here (tree : RoseTree α) : Within tree tree
  | deeper {inner child : RoseTree α} {label : α} {children : List (RoseTree α)}
      (member : child ∈ children) (inside : Within inner child) :
      Within inner (node label children)

/-- The labels are those of the subtrees. -/
theorem mem_labels_iff {label : α} (tree : RoseTree α) :
    label ∈ tree.labels ↔ ∃ inner, Within inner tree ∧ inner.label = label := by
  induction tree using rec_children with
  | step own children ih =>
      rw [labels_node, List.mem_cons, List.mem_flatten]
      constructor
      · rintro (rfl | ⟨below, listed, member⟩)
        · exact ⟨_, .here _, rfl⟩
        · rcases List.mem_map.mp listed with ⟨child, present, rfl⟩
          rcases (ih child present).mp member with ⟨inner, inside, same⟩
          exact ⟨inner, .deeper present inside, same⟩
      · rintro ⟨inner, inside, rfl⟩
        cases inside with
        | here => exact Or.inl rfl
        | deeper present inside =>
            exact Or.inr ⟨_, List.mem_map_of_mem present,
              (ih _ present).mpr ⟨inner, inside, rfl⟩⟩

end RoseTree

end Corduit.Collection
