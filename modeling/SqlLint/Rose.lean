/-! # Trees with any number of children

A tree whose nodes carry labels, its labels in pre-order, a walk that a visitor can cut short, and
marks that are handed down from parent to child. Main statement: a walk that is never cut short
folds its visitor over the pre-order. -/

namespace SqlLint

inductive Rose (α : Type) where
  | node (label : α) (children : List (Rose α))

/-- What a walk does after it has seen a node. -/
inductive Visit where
  /-- Go on with the children of the node. -/
  | descend
  /-- Pass over the children and go on with what follows the node. -/
  | skip
  /-- End the whole walk. -/
  | stop
deriving DecidableEq, Repr

namespace Rose

variable {α σ : Type}

def label : Rose α → α
  | .node a _ => a

def children : Rose α → List (Rose α)
  | .node _ ts => ts

/-! ## Pre-order -/

mutual

/-- The labels in pre-order: a node stands before its children, and these stand in their order. -/
def preorder : Rose α → List α
  | .node a ts => a :: preorders ts

def preorders : List (Rose α) → List α
  | [] => []
  | t :: ts => preorder t ++ preorders ts

end

/-! ## Walks -/

mutual

/-- Walks a tree in pre-order with a state. The result is the last state, and whether the visitor
ended the walk. -/
def walk (visit : σ → α → σ × Visit) (state : σ) : Rose α → σ × Bool
  | .node a ts =>
    match visit state a with
    | (state, .descend) => walkAll visit state ts
    | (state, .skip) => (state, false)
    | (state, .stop) => (state, true)

def walkAll (visit : σ → α → σ × Visit) (state : σ) : List (Rose α) → σ × Bool
  | [] => (state, false)
  | t :: ts =>
    match walk visit state t with
    | (state, true) => (state, true)
    | (state, false) => walkAll visit state ts

end

/-! ## Marks -/

mutual

/-- Marks every node: the root with `mark`, a child with what `step` makes of its parent's mark, its
parent and itself. -/
def marked (step : σ → α → α → σ) (mark : σ) : Rose α → Rose (σ × α)
  | .node a ts => .node (mark, a) (markedAll step mark a ts)

def markedAll (step : σ → α → α → σ) (mark : σ) (parent : α) : List (Rose α) → List (Rose (σ × α))
  | [] => []
  | t :: ts => marked step (step mark parent t.label) t :: markedAll step mark parent ts

end

/-! ## Basic facts -/

theorem preorders_eq_flatMap (ts : List (Rose α)) : preorders ts = ts.flatMap preorder := by
  induction ts with
  | nil => rfl
  | cons t ts ih => simp [preorders, ih]

mutual

theorem walk_descend (f : σ → α → σ) (state : σ) (t : Rose α) :
    t.walk (fun s a => (f s a, .descend)) state = (t.preorder.foldl f state, false) := by
  cases t with
  | node a ts => exact walkAll_descend f (f state a) ts

theorem walkAll_descend (f : σ → α → σ) (state : σ) (ts : List (Rose α)) :
    walkAll (fun s a => (f s a, .descend)) state ts = ((preorders ts).foldl f state, false) := by
  cases ts with
  | nil => rfl
  | cons t ts =>
    simp only [walkAll, preorders, List.foldl_append, walk_descend f state t]
    exact walkAll_descend f _ ts

end

end Rose
end SqlLint
