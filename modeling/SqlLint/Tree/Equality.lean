import SqlLint.Tree.Basic

/-! # Equality of expressions, spans included

One comparison for each type of the tree, and one for each list or option of them. -/

namespace SqlLint.Equal

mutual

def expr : Expr → Expr → Bool
  | ⟨a, s⟩, ⟨b, s'⟩ => exprKind a b && s == s'
termination_by structural a => a

def exprKind : ExprKind → ExprKind → Bool
  | .column a, .column b => a == b
  | .literal a, .literal b => a == b
  | .unary op a, .unary op' b => op == op' && expr a b
  | .binary l op r, .binary l' op' r' => expr l l' && op == op' && expr r r'
  | .function f, .function g => functionCall f g
  | .caseWhen c, .caseWhen d => caseExpr c d
  | .cast a type style, .cast b type' style' => expr a b && type == type' && style == style'
  | .inList a as neg, .inList b bs neg' => expr a b && exprs as bs && neg == neg'
  | .inSubquery a q neg, .inSubquery b q' neg' => expr a b && query q q' && neg == neg'
  | .between a l h neg, .between b l' h' neg' =>
    expr a b && expr l l' && expr h h' && neg == neg'
  | .isNull a neg, .isNull b neg' => expr a b && neg == neg'
  | .isBool a v neg, .isBool b v' neg' => expr a b && v == v' && neg == neg'
  | .like a p neg ci, .like b p' neg' ci' => expr a b && expr p p' && neg == neg' && ci == ci'
  | .nested a, .nested b => expr a b
  | .subquery q, .subquery q' => query q q'
  | .existsIn q neg, .existsIn q' neg' => query q q' && neg == neg'
  | .index a i, .index b i' => expr a b && expr i i'
  | .slice a l u, .slice b l' u' => expr a b && expr? l l' && expr? u u'
  | .list as, .list bs => exprs as bs
  | .struct fs, .struct gs => structFields fs gs
  | .lambda ps a, .lambda ps' b => ps == ps' && expr a b
  | .field a n, .field b n' => expr a b && n == n'
  | .star q, .star q' => q == q'
  | .raw t, .raw t' => t == t'
  | _, _ => false
termination_by structural a => a

def exprs : List Expr → List Expr → Bool
  | [], [] => true
  | a :: as, b :: bs => expr a b && exprs as bs
  | _, _ => false
termination_by structural a => a

def expr? : Option Expr → Option Expr → Bool
  | none, none => true
  | some a, some b => expr a b
  | _, _ => false
termination_by structural a => a

def rows : List (List Expr) → List (List Expr) → Bool
  | [], [] => true
  | a :: as, b :: bs => exprs a b && rows as bs
  | _, _ => false
termination_by structural a => a

def functionCall : FunctionCall → FunctionCall → Bool
  | ⟨n, as, d, f, o⟩, ⟨n', as', d', f', o'⟩ =>
    n == n' && exprs as as' && d == d' && expr? f f' && window? o o'
termination_by structural a => a

def window? : Option Window → Option Window → Bool
  | none, none => true
  | some a, some b => window a b
  | _, _ => false
termination_by structural a => a

def window : Window → Window → Bool
  | ⟨n, p, o⟩, ⟨n', p', o'⟩ => n == n' && exprs p p' && orderBys o o'
termination_by structural a => a

def caseExpr : CaseExpr → CaseExpr → Bool
  | ⟨o, bs, e⟩, ⟨o', bs', e'⟩ => expr? o o' && caseBranches bs bs' && expr? e e'
termination_by structural a => a

def caseBranches : List CaseBranch → List CaseBranch → Bool
  | [], [] => true
  | ⟨c, r⟩ :: bs, ⟨c', r'⟩ :: bs' => expr c c' && expr r r' && caseBranches bs bs'
  | _, _ => false
termination_by structural a => a

def structFields : List StructField → List StructField → Bool
  | [], [] => true
  | ⟨n, v⟩ :: fs, ⟨n', v'⟩ :: fs' => n == n' && expr v v' && structFields fs fs'
  | _, _ => false
termination_by structural a => a

def orderBy : OrderBy → OrderBy → Bool
  | ⟨e, a, n⟩, ⟨e', a', n'⟩ => expr e e' && a == a' && n == n'
termination_by structural a => a

def orderBys : List OrderBy → List OrderBy → Bool
  | [], [] => true
  | a :: as, b :: bs => orderBy a b && orderBys as bs
  | _, _ => false
termination_by structural a => a

def query : Query → Query → Bool
  | ⟨cs, r, b, o, l, f, s⟩, ⟨cs', r', b', o', l', f', s'⟩ =>
    cteList cs cs' && r == r' && body b b' && orderBys o o' && expr? l l' && expr? f f' && s == s'
termination_by structural a => a

def cte : Cte → Cte → Bool
  | ⟨n, q, s⟩, ⟨n', q', s'⟩ => n == n' && query q q' && s == s'
termination_by structural a => a

def cteList : List Cte → List Cte → Bool
  | [], [] => true
  | a :: as, b :: bs => cte a b && cteList as bs
  | _, _ => false
termination_by structural a => a

def body : Body → Body → Bool
  | .core c, .core c' => core c c'
  | .setOperation o, .setOperation o' => setOperation o o'
  | .nested q, .nested q' => query q q'
  | .values rs s, .values rs' s' => rows rs rs' && s == s'
  | _, _ => false
termination_by structural a => a

def setOperation : SetOperation → SetOperation → Bool
  | ⟨o, q, l, r, s⟩, ⟨o', q', l', r', s'⟩ =>
    o == o' && q == q' && body l l' && body r r' && s == s'
termination_by structural a => a

def core : Core → Core → Bool
  | ⟨d, cs, f, w, g, h, q, o, l, off, s⟩, ⟨d', cs', f', w', g', h', q', o', l', off', s'⟩ =>
    d == d' && items cs cs' && source? f f' && expr? w w' && exprs g g' && expr? h h'
      && expr? q q' && orderBys o o' && expr? l l' && expr? off off' && s == s'
termination_by structural a => a

def item : SelectItem → SelectItem → Bool
  | .expr e a, .expr e' a' => expr e e' && a == a'
  | .wildcard s, .wildcard s' => s == s'
  | .qualifiedWildcard q s, .qualifiedWildcard q' s' => q == q' && s == s'
  | _, _ => false
termination_by structural a => a

def items : List SelectItem → List SelectItem → Bool
  | [], [] => true
  | a :: as, b :: bs => item a b && items as bs
  | _, _ => false
termination_by structural a => a

def source : FromClause → FromClause → Bool
  | ⟨t, js⟩, ⟨t', js'⟩ => table t t' && joins js js'
termination_by structural a => a

def source? : Option FromClause → Option FromClause → Bool
  | none, none => true
  | some a, some b => source a b
  | _, _ => false
termination_by structural a => a

def join : Join → Join → Bool
  | ⟨k, n, t, c, u, s⟩, ⟨k', n', t', c', u', s'⟩ =>
    k == k' && n == n' && table t t' && expr? c c' && u == u' && s == s'
termination_by structural a => a

def joins : List Join → List Join → Bool
  | [], [] => true
  | a :: as, b :: bs => join a b && joins as bs
  | _, _ => false
termination_by structural a => a

def table : TableRef → TableRef → Bool
  | .named n a s, .named n' a' s' => n == n' && a == a' && s == s'
  | .derived q a s, .derived q' a' s' => query q q' && a == a' && s == s'
  | .lateral q a s, .lateral q' a' s' => query q q' && a == a' && s == s'
  | .nestedJoin f a s, .nestedJoin f' a' s' => source f f' && a == a' && s == s'
  | _, _ => false
termination_by structural a => a

end

end SqlLint.Equal

namespace SqlLint

instance : BEq Expr := ⟨Equal.expr⟩

end SqlLint
