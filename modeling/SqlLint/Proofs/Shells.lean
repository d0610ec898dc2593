import SqlLint.Proofs.Places
import SqlLint.Tree.Collect

/-! # Nodes apart from what is in them

The shell of a node keeps what is written in the node itself and has a blank in the place of each
child. Main statement: `Node.Edited.of_expr`, an edit below an expression keeps its form and all of
its children but one. -/

namespace SqlLint

/-! ## Blanks -/

namespace Blank

def expr : Expr := ⟨.raw "", .empty⟩

def orderBy : OrderBy := ⟨expr, none, none⟩

def table : TableRef := .named ⟨[]⟩ none .empty

def source : FromClause := ⟨table, []⟩

def join : Join := ⟨.plain, false, table, none, [], .empty⟩

def item : SelectItem := .wildcard .empty

def core : Core := ⟨false, [], none, none, [], none, none, [], none, none, .empty⟩

def body : Body := .core core

def query : Query := .ofCore core

def cte : Cte := ⟨{ value := "" }, query, .empty⟩

end Blank

/-! ## Shells -/

/-- The form with every child blank. -/
def ExprKind.shell : ExprKind → ExprKind
  | .column ref => .column ref
  | .literal value => .literal value
  | .unary op _ => .unary op Blank.expr
  | .binary _ op _ => .binary Blank.expr op Blank.expr
  | .function f =>
    .function
      { f with
        args := f.args.map fun _ => Blank.expr
        filter := f.filter.map fun _ => Blank.expr
        window := f.window.map fun w =>
          { w with
            partitionBy := w.partitionBy.map fun _ => Blank.expr
            orderBy := w.orderBy.map fun _ => Blank.orderBy } }
  | .caseWhen c =>
    .caseWhen
      ⟨c.operand.map fun _ => Blank.expr, c.branches.map fun _ => ⟨Blank.expr, Blank.expr⟩,
        c.otherwise.map fun _ => Blank.expr⟩
  | .cast _ dataType style => .cast Blank.expr dataType style
  | .inList _ es negated => .inList Blank.expr (es.map fun _ => Blank.expr) negated
  | .inSubquery _ _ negated => .inSubquery Blank.expr Blank.query negated
  | .between _ _ _ negated => .between Blank.expr Blank.expr Blank.expr negated
  | .isNull _ negated => .isNull Blank.expr negated
  | .isBool _ value negated => .isBool Blank.expr value negated
  | .like _ _ negated ignoresCase => .like Blank.expr Blank.expr negated ignoresCase
  | .nested _ => .nested Blank.expr
  | .subquery _ => .subquery Blank.query
  | .existsIn _ negated => .existsIn Blank.query negated
  | .index _ _ => .index Blank.expr Blank.expr
  | .slice _ lower upper =>
    .slice Blank.expr (lower.map fun _ => Blank.expr) (upper.map fun _ => Blank.expr)
  | .list es => .list (es.map fun _ => Blank.expr)
  | .struct fields => .struct (fields.map fun f => { f with value := Blank.expr })
  | .lambda params _ => .lambda params Blank.expr
  | .field _ name => .field Blank.expr name
  | .star qualifier => .star qualifier
  | .raw sql => .raw sql

/-- The node with every child blank. -/
def Node.shell : Node → Node
  | .statement (.query _) => .statement (.query Blank.query)
  | .statement (.insert q span) => .statement (.insert (q.map fun _ => Blank.query) span)
  | .statement (.createView name _ span) => .statement (.createView name Blank.query span)
  | .statement (.createTableAs name _ span) => .statement (.createTableAs name Blank.query span)
  | .statement (.other kind span) => .statement (.other kind span)
  | .query q =>
    .query
      { q with
        ctes := q.ctes.map fun _ => Blank.cte
        body := Blank.body
        orderBy := q.orderBy.map fun _ => Blank.orderBy
        limit := q.limit.map fun _ => Blank.expr
        offset := q.offset.map fun _ => Blank.expr }
  | .cte c => .cte { c with query := Blank.query }
  | .body (.core _) => .body (.core Blank.core)
  | .body (.setOperation o) =>
    .body (.setOperation { o with left := Blank.body, right := Blank.body })
  | .body (.nested _) => .body (.nested Blank.query)
  | .body (.values rows span) => .body (.values (rows.map (·.map fun _ => Blank.expr)) span)
  | .core c =>
    .core
      { c with
        columns := c.columns.map fun _ => Blank.item
        source := c.source.map fun _ => Blank.source
        condition := c.condition.map fun _ => Blank.expr
        groupBy := c.groupBy.map fun _ => Blank.expr
        having := c.having.map fun _ => Blank.expr
        qualify := c.qualify.map fun _ => Blank.expr
        orderBy := c.orderBy.map fun _ => Blank.orderBy
        limit := c.limit.map fun _ => Blank.expr
        offset := c.offset.map fun _ => Blank.expr }
  | .item (.expr _ label) => .item (.expr Blank.expr label)
  | .item i => .item i
  | .source f => .source ⟨Blank.table, f.joins.map fun _ => Blank.join⟩
  | .join j =>
    .join { j with table := Blank.table, condition := j.condition.map fun _ => Blank.expr }
  | .table (.derived _ label span) => .table (.derived Blank.query label span)
  | .table (.lateral _ label span) => .table (.lateral Blank.query label span)
  | .table (.nestedJoin _ label span) => .table (.nestedJoin Blank.source label span)
  | .table t => .table t
  | .orderBy o => .orderBy { o with expr := Blank.expr }
  | .expr e => .expr ⟨e.kind.shell, e.span⟩

theorem Node.ctorIdx_shell (n : Node) : n.shell.ctorIdx = n.ctorIdx := by
  cases n with
  | statement s => cases s <;> rfl
  | body b => cases b <;> rfl
  | item i => cases i <;> rfl
  | table t => cases t <;> rfl
  | _ => rfl

theorem Node.ctorIdx_of_shell {n m : Node} (h : n.shell = m.shell) : n.ctorIdx = m.ctorIdx := by
  rw [← ctorIdx_shell n, h, ctorIdx_shell]

theorem Node.exists_of_shell {n : Node} {e : Expr} (h : n.shell = (Node.expr e).shell) :
    ∃ kind : ExprKind, n = .expr ⟨kind, e.span⟩ ∧ kind.shell = e.kind.shell := by
  have hidx := ctorIdx_of_shell h
  cases n with
  | expr x =>
    obtain ⟨kind, span⟩ := x
    simp only [shell, Node.expr.injEq, Expr.mk.injEq] at h
    exact ⟨kind, by rw [h.2], h.1⟩
  | _ => cases hidx

theorem Node.core?_eq_none_of_shell {n m : Node} (hshell : n.shell = m.shell)
    (h : m.core? = none) : n.core? = none := by
  have hidx := ctorIdx_of_shell hshell
  cases n with
  | core c =>
    cases m with
    | core c' => cases h
    | _ => cases hidx
  | _ => rfl

theorem Node.getElem?_children_condition {core : Core} {e : Expr}
    (h : core.condition = some e) :
    (Node.core core).children[core.columns.length + core.source.toList.length]?
      = some (.expr e) := by
  simp [children, h, List.append_assoc]

theorem Node.exists_core_of_shell {core : Core} {i : Nat} {n m m' : Node}
    (hshell : n.shell = (Node.core core).shell)
    (hm : (Node.core core).children[i]? = some m)
    (hchildren : n.children = (Node.core core).children.set i m') :
    ∃ core', n = .core core' ∧ (core'.condition = core.condition
      ∨ ∃ e e', core.condition = some e ∧ core'.condition = some e' ∧ m = .expr e
        ∧ m' = .expr e') := by
  have hidx := ctorIdx_of_shell hshell
  cases n with
  | core core' =>
    refine ⟨core', rfl, ?_⟩
    simp only [shell, Node.core.injEq, Core.mk.injEq] at hshell
    obtain ⟨-, hcolumns, hsource, hcondition, -⟩ := hshell
    replace hcolumns := congrArg List.length hcolumns
    replace hsource := congrArg (·.toList.length) hsource
    simp only [List.length_map, Option.toList_map] at hcolumns hsource
    cases h : core.condition with
    | none =>
      rw [h, Option.map_none, Option.map_eq_none_iff] at hcondition
      exact .inl hcondition
    | some e =>
      rw [h, Option.map_some, Option.map_eq_some_iff] at hcondition
      obtain ⟨e', h', -⟩ := hcondition
      -- The shells have as many children before the predicate, so it is the child of one number.
      have he := getElem?_children_condition h
      have he' := getElem?_children_condition h'
      rw [hchildren, hcolumns, hsource, List.getElem?_set] at he'
      split at he'
      · next hi =>
        subst hi
        rw [hm] at he
        split at he' <;> cases he'
        cases he
        exact .inr ⟨e, e', rfl, h', rfl, rfl⟩
      · rw [he] at he'
        cases he'
        exact .inl h'
  | _ => cases hidx

/-! ## Edits -/

/-- Whether the second node is the first with one node replaced, itself or one below it. -/
inductive Node.Edited (R : Node → Node → Prop) : Node → Node → Prop where
  | here {n n' : Node} (h : R n n') : Edited R n n'
  | inside {n n' m m' : Node} (i : Nat) (hshell : n'.shell = n.shell)
    (hm : n.children[i]? = some m) (hchildren : n'.children = n.children.set i m')
    (h : Edited R m m') : Edited R n n'

namespace Node.Edited

variable {R : Node → Node → Prop} {e left right : Expr} {op : BinaryOperator} {span : Span}
  {n : Node}

theorem of_expr (hR : ∀ e n, ¬ R (.expr e) n) (h : Edited R (.expr e) n) :
    ∃ kind : ExprKind, n = .expr ⟨kind, e.span⟩ ∧ kind.shell = e.kind.shell
      ∧ ∃ i m m', e.kind.children[i]? = some m ∧ kind.children = e.kind.children.set i m'
        ∧ Edited R m m' := by
  cases h with
  | here h => exact absurd h (hR e n)
  | @inside _ _ m m' i hshell hm hchildren h =>
    obtain ⟨kind, rfl, hkind⟩ := exists_of_shell hshell
    exact ⟨kind, rfl, hkind, i, m, m', hm, hchildren, h⟩

theorem literal?_eq_none (hR : ∀ e n, ¬ R (.expr e) n) {e' : Expr}
    (h : Edited R (.expr e) (.expr e')) : e.literal? = none ∧ e'.literal? = none := by
  obtain ⟨kind, span⟩ := e
  obtain ⟨kind', heq, hshell, i, m, m', hm, -, -⟩ := of_expr hR h
  cases heq
  -- A literal has no child that could be edited.
  have hkind : ∀ l, kind ≠ .literal l := by
    rintro l rfl
    cases hm
  have hkind' : ∀ l, kind' ≠ .literal l := by
    rintro l rfl
    cases kind <;> cases hshell
    exact hkind l rfl
  unfold Expr.literal?
  constructor
  · split
    · next l hl => exact absurd hl (hkind l)
    · rfl
  · split
    · next l hl => exact absurd hl (hkind' l)
    · rfl

theorem of_nested (hR : ∀ e n, ¬ R (.expr e) n) (h : Edited R (.expr ⟨.nested e, span⟩) n) :
    ∃ e', n = .expr ⟨.nested e', span⟩ ∧ Edited R (.expr e) (.expr e') := by
  obtain ⟨kind, rfl, hshell, i, m, m', hm, hchildren, hedit⟩ := of_expr hR h
  cases kind <;> cases hshell
  next e' =>
  match i, hm with
  | 0, hm =>
    cases hm
    cases hchildren
    exact ⟨e', rfl, hedit⟩

theorem of_binary (hR : ∀ e n, ¬ R (.expr e) n)
    (h : Edited R (.expr ⟨.binary left op right, span⟩) n) :
    ∃ left' right', n = .expr ⟨.binary left' op right', span⟩
      ∧ (Edited R (.expr left) (.expr left') ∧ right' = right
        ∨ left' = left ∧ Edited R (.expr right) (.expr right')) := by
  obtain ⟨kind, rfl, hshell, i, m, m', hm, hchildren, hedit⟩ := of_expr hR h
  cases kind <;> cases hshell
  match i, hm with
  | 0, hm =>
    cases hm
    cases hchildren
    exact ⟨_, _, rfl, .inl ⟨hedit, rfl⟩⟩
  | 1, hm =>
    cases hm
    cases hchildren
    exact ⟨_, _, rfl, .inr ⟨rfl, hedit⟩⟩

end Node.Edited

end SqlLint
