import SqlLint.Span
import SqlLint.Text.Letters

/-! # Identifiers and names -/

namespace SqlLint

/-- An identifier as written, and whether it was quoted. -/
structure Ident where
  value : String
  quoted : Bool := false
  span : Span := .empty
deriving DecidableEq, Repr, Inhabited

namespace Ident

/-- Whether the identifier spells a name, ignoring letter case. -/
def spells (i : Ident) (name : String) : Bool := Text.same i.value name

/-- The key under which identifiers that differ in letter case only are one. -/
def key (i : Ident) : String := Text.lower i.value

/-- Whether two identifiers name one thing: a quoted one is taken literally. -/
def equivalent (a b : Ident) : Bool :=
  if a.quoted || b.quoted then a.value == b.value else Text.same a.value b.value

end Ident

/-- A name with its qualifying parts, such as `db.schema.table`. -/
structure ObjectName where
  parts : List Ident
deriving DecidableEq, Repr, Inhabited

namespace ObjectName

/-- The last part, which is the name proper. -/
def base? (n : ObjectName) : Option Ident := n.parts.getLast?

def span (n : ObjectName) : Span := .unions (n.parts.map Ident.span)

/-- The parts with a point between each two. -/
def text (n : ObjectName) : String := ".".intercalate (n.parts.map Ident.value)

/-- Whether two names agree part by part. -/
def equivalent (a b : ObjectName) : Bool :=
  a.parts.length == b.parts.length && (a.parts.zip b.parts).all fun (x, y) => x.equivalent y

end ObjectName

/-- A column reference such as `col`, `t.col` or `schema.t.col`. -/
structure ColumnRef where
  qualifier : List Ident
  name : Ident
deriving DecidableEq, Repr, Inhabited

namespace ColumnRef

def isQualified (c : ColumnRef) : Bool := !c.qualifier.isEmpty

/-- The part of the qualifier that names a table. -/
def table? (c : ColumnRef) : Option Ident := c.qualifier.getLast?

/-- The reference as written, with points between its parts. -/
def text (c : ColumnRef) : String :=
  String.join (c.qualifier.map (·.value ++ ".")) ++ c.name.value

end ColumnRef
end SqlLint
