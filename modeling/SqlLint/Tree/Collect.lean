import SqlLint.Tree.Node

/-! # Collecting parts of a tree

A view picks the nodes of one kind. `collect` gives all of them in walk order, `collectOutside`
those that are not under a node to be left out, and `findFirst` the first that passes a test. Main
statement: `collect_eq`, collecting is filtering the pre-order. -/

namespace SqlLint

variable {α σ : Type}

/-! ## Views -/

/-- Something found in an expression, with the span of that expression. -/
structure Located (α : Type) where
  value : α
  span : Span

structure BinaryExpr where
  left : Expr
  op : BinaryOperator
  right : Expr

namespace Node

def query? : Node → Option Query
  | .query q => some q
  | _ => none

def cte? : Node → Option Cte
  | .cte c => some c
  | _ => none

def body? : Node → Option Body
  | .body b => some b
  | _ => none

def core? : Node → Option Core
  | .core c => some c
  | _ => none

def join? : Node → Option Join
  | .join j => some j
  | _ => none

def table? : Node → Option TableRef
  | .table t => some t
  | _ => none

def expr? : Node → Option Expr
  | .expr e => some e
  | _ => none

def function? : Node → Option (Located FunctionCall)
  | .expr ⟨.function f, span⟩ => some ⟨f, span⟩
  | _ => none

def column? : Node → Option (Located ColumnRef)
  | .expr ⟨.column c, span⟩ => some ⟨c, span⟩
  | _ => none

def case? : Node → Option (Located CaseExpr)
  | .expr ⟨.caseWhen c, span⟩ => some ⟨c, span⟩
  | _ => none

def binary? : Node → Option (Located BinaryExpr)
  | .expr ⟨.binary left op right, span⟩ => some ⟨⟨left, op, right⟩, span⟩
  | _ => none

section

variable {n : Node}

theorem eq_of_query? {q : Query} (h : n.query? = some q) : n = .query q := by
  cases n <;> cases h
  rfl

theorem eq_of_core? {c : Core} (h : n.core? = some c) : n = .core c := by
  cases n <;> cases h
  rfl

theorem eq_of_column? {c : Located ColumnRef} (h : n.column? = some c) :
    n = .expr ⟨.column c.value, c.span⟩ := by
  unfold column? at h
  split at h <;> cases h
  rfl

theorem eq_of_case? {c : Located CaseExpr} (h : n.case? = some c) :
    n = .expr ⟨.caseWhen c.value, c.span⟩ := by
  unfold case? at h
  split at h <;> cases h
  rfl

end

/-! ## Walking and collecting -/

/-- Walks everything under a node, the node included. -/
def walk (root : Node) (visit : σ → Node → σ × Visit) (state : σ) : σ × Bool :=
  root.tree.walk visit state

/-- The list with what a view finds in a node added at its end. -/
def gather (view : Node → Option α) (found : Array α) (n : Node) : Array α :=
  (view n).elim found found.push

/-- All that a view finds under a node, in walk order. -/
def collect (root : Node) (view : Node → Option α) : List α :=
  (root.walk (fun found n => (gather view found n, .descend)) #[]).1.toList

/-- All that a view finds under a node, passing over the nodes to be left out and what is under
them. -/
def collectOutside (root : Node) (leaveOut : Node → Bool) (view : Node → Option α) : List α :=
  (root.walk (fun found n =>
    if leaveOut n then (found, .skip) else (gather view found n, .descend)) #[]).1.toList

/-- The first find of a view that passes a test with a state, and the last state. The walk ends
there. -/
def search (root : Node) (view : Node → Option α) (test : σ → α → σ × Bool) (state : σ) :
    σ × Option α :=
  (root.walk (fun (state, found) n =>
    match view n with
    | none => ((state, found), .descend)
    | some a =>
      match test state a with
      | (state, true) => ((state, some a), .stop)
      | (state, false) => ((state, found), .descend)) (state, none)).1

/-- The first find of a view that passes a test. -/
def findFirst (root : Node) (view : Node → Option α) (test : α → Bool) : Option α :=
  (root.search view (fun _ a => ((), test a)) ()).2

theorem toList_foldl_gather (view : Node → Option α) (found : Array α) (ns : List Node) :
    (ns.foldl (gather view) found).toList = found.toList ++ ns.filterMap view := by
  induction ns generalizing found with
  | nil => simp
  | cons n ns ih => cases h : view n <;> simp [ih, gather, h]

theorem collect_eq (root : Node) (view : Node → Option α) :
    root.collect view = root.preorder.filterMap view := by
  simp [collect, walk, Rose.walk_descend, toList_foldl_gather, preorder]

/-! ## The usual collections -/

def functions (root : Node) : List (Located FunctionCall) := root.collect function?

def columns (root : Node) : List (Located ColumnRef) := root.collect column?

def tables (root : Node) : List TableRef := root.collect table?

def cases (root : Node) : List (Located CaseExpr) := root.collect case?

def binaries (root : Node) : List (Located BinaryExpr) := root.collect binary?

def joins (root : Node) : List Join := root.collect join?

def cores (root : Node) : List Core := root.collect core?

def queries (root : Node) : List Query := root.collect query?

def bodies (root : Node) : List Body := root.collect body?

/-- Every set operation, outermost first. -/
def setOperations (root : Node) : List SetOperation := root.bodies.filterMap Body.setOperation?

def cteNames (root : Node) : List Ident := (root.collect cte?).map Cte.name

/-- The name by which each table is referred to. A subquery without alias has none. -/
def referenceNames (root : Node) : List Ident := root.tables.filterMap TableRef.referenceName?

end Node

/-! ## Set operations -/

mutual

/-- The operands of a chain of set operations in source order, parentheses dissolved. -/
def Body.branches : Body → List Body
  | .core c => [.core c]
  | .values rows span => [.values rows span]
  | .setOperation operation => operation.branches
  | .nested q => q.branches

def SetOperation.branches : SetOperation → List Body
  | ⟨_, _, left, right, _⟩ => left.branches ++ right.branches

def Query.branches : Query → List Body
  | ⟨_, _, body, _, _, _, _⟩ => body.branches

end

/-- The cores among the operands of a chain of set operations. -/
def Body.branchCores (b : Body) : List Core := b.branches.filterMap Body.core?

mutual

/-- The core that stands first in the body, unless it starts with `VALUES`. -/
def Body.leftmostCore? : Body → Option Core
  | .core c => some c
  | .values _ _ => none
  | .setOperation operation => operation.leftmostCore?
  | .nested q => q.leftmostCore?

def SetOperation.leftmostCore? : SetOperation → Option Core
  | ⟨_, _, left, _, _⟩ => left.leftmostCore?

def Query.leftmostCore? : Query → Option Core
  | ⟨_, _, body, _, _, _, _⟩ => body.leftmostCore?

end

/-- The first core of the statement's query. -/
def Statement.primaryCore? (s : Statement) : Option Core := do (← s.query?).body.leftmostCore?

/-- The column references of one core, those in nested queries left out. -/
def Core.scopeColumns (c : Core) : List (Located ColumnRef) :=
  (Node.core c).collectOutside (·.query?.isSome) Node.column?

end SqlLint
