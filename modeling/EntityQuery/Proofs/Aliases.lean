import EntityQuery.Query.Statement

/-!
# Statements under other aliases

A statement may call its from-elements otherwise (`Statement.rename`), and then reads them under
their other names. `Statement.aliases` are the names that it uses.
-/

set_option autoImplicit false

namespace EntityQuery

/-! ## Expressions of selections -/

namespace SelectionOf

variable {ε δ : Type}

mutual
/-- A selection with other expressions at its places. -/
def map (f : ε → δ) : SelectionOf ε → SelectionOf δ
  | .expression value => .expression (f value)
  | .instantiation target arguments => .instantiation target (mapItems f arguments)
/-- Named selections with other expressions at their places. -/
def mapItems (f : ε → δ) :
    List (SelectItemOf (SelectionOf ε)) → List (SelectItemOf (SelectionOf δ))
  | [] => []
  | ⟨value, name⟩ :: rest => ⟨value.map f, name⟩ :: mapItems f rest
end

mutual
/-- The expressions of a selection, from left to right. -/
def values : SelectionOf ε → List ε
  | .expression value => [value]
  | .instantiation _ arguments => itemValues arguments
/-- The expressions of named selections, from left to right. -/
def itemValues : List (SelectItemOf (SelectionOf ε)) → List ε
  | [] => []
  | ⟨value, _⟩ :: rest => value.values ++ itemValues rest
end

end SelectionOf

/-! ## Renaming -/

section

variable (f : String → String)

def AttributePath.rename (p : AttributePath) : AttributePath := { p with start := f p.start }

namespace Expression

mutual
/-- An expression that reads from-elements under other names. -/
def rename : Expression → Expression
  | .parameter binding expected => .parameter binding expected
  | .entityType name => .entityType name
  | .unary operator operand => .unary operator operand.rename
  | .path p => .path (p.rename f)
  | .element name => .element (f name)
  | .function name arguments result => .function name (renameAll arguments) result
  | .literal value => .literal value
  | .concatenation lhs rhs explicit => .concatenation lhs.rename rhs.rename explicit
  | .enumConstant constant storage => .enumConstant constant storage
  | .fieldConstant className fieldName value => .fieldConstant className fieldName value
  | .arithmetic lhs operator rhs explicit => .arithmetic lhs.rename operator rhs.rename explicit
def renameAll : List Expression → List Expression
  | [] => []
  | e :: es => e.rename :: renameAll es
end

end Expression

/-- A predicate that reads from-elements under other names. -/
def Predicate.rename : Predicate → Predicate
  | .grouped inner => .grouped inner.rename
  | .and left right => .and left.rename right.rename
  | .or left right => .or left.rename right.rename
  | .negated inner => .negated inner.rename
  | .relational lhs operator rhs => .relational (lhs.rename f) operator (rhs.rename f)
  | .isNull subject isNegated => .isNull (subject.rename f) isNegated
  | .isEmpty collection isNegated => .isEmpty (collection.rename f) isNegated
  | .between subject lower upper isNegated =>
    .between (subject.rename f) (lower.rename f) (upper.rename f) isNegated
  | .like subject pattern escape isNegated =>
    .like (subject.rename f) (pattern.rename f) (escape.map (·.rename f)) isNegated
  | .memberOf value collection isNegated =>
    .memberOf (value.rename f) (collection.rename f) isNegated

def SelectClause.rename (c : SelectClause) : SelectClause :=
  { c with items := SelectionOf.mapItems (·.rename f) c.items }

def SortKey.rename (k : SortKey) : SortKey := { k with expression := k.expression.rename f }

def Assignment.rename (a : Assignment) : Assignment := ⟨a.target.rename f, a.value.rename f⟩

def Root.rename (r : Root) : Root := { r with aliasName := r.aliasName.map f }

def JoinSource.rename : JoinSource → JoinSource
  | .attributeOf start dotted => .attributeOf (f start) dotted
  | .entity name => .entity name

def Join.rename (j : Join) : Join :=
  { j with
    aliasName := j.aliasName.map f
    source := j.source.rename f
    condition := j.condition.map (·.rename f) }

def Space.rename (s : Space) : Space := ⟨s.root.rename f, s.joins.map (·.rename f)⟩

/-- A statement whose from-elements have other aliases, wherever they are written. -/
def Statement.rename : Statement → Statement
  | .select q => .select ⟨⟨q.fromClause.spaces.map (·.rename f)⟩, q.select.map (·.rename f),
      q.condition.map (·.rename f), q.order.map (·.map (·.rename f))⟩
  | .update u => .update ⟨u.target.rename f, u.assignments.map (·.rename f),
      u.condition.map (·.rename f)⟩
  | .delete d => .delete ⟨d.target.rename f, d.condition.map (·.rename f)⟩

end

/-! ## Aliases of a statement -/

namespace Expression

mutual
/-- The from-elements that an expression reads, by their aliases. -/
def aliases : Expression → List String
  | .parameter .. => []
  | .entityType _ => []
  | .unary _ operand => operand.aliases
  | .path p => [p.start]
  | .element name => [name]
  | .function _ arguments _ => aliasesOfAll arguments
  | .literal _ => []
  | .concatenation lhs rhs _ => lhs.aliases ++ rhs.aliases
  | .enumConstant .. => []
  | .fieldConstant .. => []
  | .arithmetic lhs _ rhs _ => lhs.aliases ++ rhs.aliases
def aliasesOfAll : List Expression → List String
  | [] => []
  | e :: es => e.aliases ++ aliasesOfAll es
end

end Expression

/-- The from-elements that a predicate reads or whose collections it tests, by their aliases. -/
def Predicate.aliases : Predicate → List String
  | .grouped inner => inner.aliases
  | .and left right => left.aliases ++ right.aliases
  | .or left right => left.aliases ++ right.aliases
  | .negated inner => inner.aliases
  | .relational lhs _ rhs => lhs.aliases ++ rhs.aliases
  | .isNull subject _ => subject.aliases
  | .isEmpty collection _ => [collection.start]
  | .between subject lower upper _ => subject.aliases ++ lower.aliases ++ upper.aliases
  | .like subject pattern escape _ =>
    subject.aliases ++ pattern.aliases ++ escape.elim [] (·.aliases)
  | .memberOf value collection _ => value.aliases ++ [collection.start]

def JoinSource.aliases : JoinSource → List String
  | .attributeOf start _ => [start]
  | .entity _ => []

def Join.aliases (j : Join) : List String :=
  j.aliasName.toList ++ j.source.aliases ++ j.condition.elim [] (·.aliases)

def Space.aliases (s : Space) : List String :=
  s.root.aliasName.toList ++ s.joins.flatMap (·.aliases)

/-- The aliases that are written in a statement, where a from-element is called so and where one is
read. -/
def Statement.aliases : Statement → List String
  | .select q => q.fromClause.spaces.flatMap (·.aliases) ++
      q.select.elim [] (fun c => (SelectionOf.itemValues c.items).flatMap (·.aliases)) ++
      q.condition.elim [] (·.aliases) ++ (q.order.getD []).flatMap (·.expression.aliases)
  | .update u => u.target.aliasName.toList ++
      u.assignments.flatMap (fun a => a.target.start :: a.value.aliases) ++
      u.condition.elim [] (·.aliases)
  | .delete d => d.target.aliasName.toList ++ d.condition.elim [] (·.aliases)

/-! ## Statements as they are -/

namespace Expression

mutual
theorem rename_id : ∀ (e : Expression), e.rename id = e
  | .parameter .. | .entityType _ | .path _ | .element _ | .literal _ | .enumConstant ..
  | .fieldConstant .. => by simp only [rename, AttributePath.rename, id]
  | .unary _ operand => by simp only [rename, rename_id operand]
  | .function _ arguments _ => by simp only [rename, renameAll_id arguments]
  | .concatenation lhs rhs _ => by simp only [rename, rename_id lhs, rename_id rhs]
  | .arithmetic lhs _ rhs _ => by simp only [rename, rename_id lhs, rename_id rhs]
theorem renameAll_id : ∀ (es : List Expression), renameAll id es = es
  | [] => rfl
  | e :: es => by simp only [renameAll, rename_id e, renameAll_id es]
end

end Expression

theorem Predicate.rename_id (p : Predicate) : p.rename id = p := by
  induction p with
  | like subject pattern escape isNegated =>
    cases escape <;> simp [Predicate.rename, Expression.rename_id]
  | _ => simp_all [Predicate.rename, Expression.rename_id, AttributePath.rename]

mutual
theorem SelectionOf.map_rename_id : ∀ (e : Selection),
    SelectionOf.map (·.rename id) e = e
  | .expression e => by simp only [SelectionOf.map, Expression.rename_id]
  | .instantiation _ items => by
    simp only [SelectionOf.map, SelectionOf.mapItems_rename_id items]
theorem SelectionOf.mapItems_rename_id : ∀ (es : List SelectItem),
    SelectionOf.mapItems (·.rename id) es = es
  | [] => by simp only [SelectionOf.mapItems]
  | ⟨selection, _⟩ :: es => by
    simp only [SelectionOf.mapItems, SelectionOf.map_rename_id selection,
      SelectionOf.mapItems_rename_id es]
end

theorem JoinSource.rename_id (j : JoinSource) : j.rename id = j := by
  cases j <;> rfl

theorem SelectClause.rename_id (c : SelectClause) : c.rename id = c := by
  simp only [SelectClause.rename, SelectionOf.mapItems_rename_id]

theorem SortKey.rename_id (k : SortKey) : k.rename id = k := by
  simp only [SortKey.rename, Expression.rename_id]

theorem Assignment.rename_id (a : Assignment) : a.rename id = a := by
  simp only [Assignment.rename, AttributePath.rename, Expression.rename_id, id]

end EntityQuery
