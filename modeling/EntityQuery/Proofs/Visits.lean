import EntityQuery.Lowering.Node

/-!
# What visits come to

A part of a statement is visited, and the outcome of the visit is converted to the kind that is
expected. With the conversions taken out, what remains is how a clause is made of its parts
(`expression_eq`, `predicate_eq`, `items_instantiation`, …) and a step of its own steps
(`fromClause_eq`, `query_eq`, …). Other modules open clauses and steps by these equations.

Conversions can be taken out since every visit has an outcome of its own kind: it comes to what is
lowered, with the kind put to it (`visitExpression_eq`, `visitQuery_eq`, …).
-/

set_option autoImplicit false

namespace EntityQuery

theorem expecting_bind {α β : Type} {convert : Outcome → Except LoweringError β} (x : Clause α)
    (f : α → Clause Outcome) :
    expecting convert (x >>= f) = x >>= fun a => expecting convert (f a) :=
  bind_assoc x f _

namespace Scope

variable {s : Scope} {m : Metamodel}

/-! ## Expressions -/

/-- An expression, made of the values of its parts. -/
def expressionOfParts (s : Scope) (m : Metamodel) : Expression → Clause Sql.Expression
  | .parameter binding expected => do return .parameter (← newParameter binding expected)
  | .entityType name => do
    let e ← lookedUp (m.entity name)
    return .entityType e.name
  | .unary operator operand => do
    let operand ← s.expression m operand
    return .unary operator operand operand.type
  | .path p => settled (s.path m p)
  | .element name => settled do s.elementValue m (← s.index.resolve name)
  | .function name arguments result => do
    let arguments ← s.expressions m arguments
    return .function name arguments (result <|> resultType name (arguments.map (·.type)))
  | .literal value => return literalValue value
  | .concatenation lhs rhs explicit => do
    let lhs ← s.expression m lhs
    let rhs ← s.expression m rhs
    return .concatenation lhs rhs (explicit <|> lhs.type)
  | .enumConstant constant storage => return enumValue constant storage
  | .fieldConstant _ _ value => return literalValue value
  | .arithmetic lhs operator rhs explicit => do
    let lhs ← s.expression m lhs
    let rhs ← s.expression m rhs
    return .arithmetic lhs operator rhs (explicit <|> arithmeticType lhs.type rhs.type)

theorem expression_eq (e : Expression) : s.expression m e = s.expressionOfParts m e := by
  cases e with
  | literal | enumConstant | fieldConstant => rfl
  | path p => rw [expression, visitExpression, visitPath, expecting_bind]; exact bind_pure _
  | element name => rw [expression, visitExpression, expecting_bind]; exact bind_pure _
  | parameter | entityType | unary | function | concatenation | arithmetic =>
    simp only [expression, visitExpression, expressionOfParts, expecting_bind]
    rfl

theorem expressions_cons (e : Expression) (es : List Expression) :
    s.expressions m (e :: es) = do
      let v ← s.expression m e
      let vs ← s.expressions m es
      return v :: vs := by
  rw [expressions, expression]

/-! ## Predicates -/

/-- A predicate, made of its parts. -/
def predicateOfParts (s : Scope) (m : Metamodel) : Predicate → Clause Sql.Predicate
  | .grouped inner => do return .grouped (← s.predicate m inner)
  | .and left right => do
    let left ← s.predicate m left
    let right ← s.predicate m right
    return .junction .conjunction [left, right]
  | .or left right => do
    let left ← s.predicate m left
    let right ← s.predicate m right
    return .junction .disjunction [left, right]
  | .negated inner => do return .negated (← s.predicate m inner)
  | .relational lhs operator rhs => do
    let lhs ← s.expression m lhs
    let rhs ← s.expression m rhs
    return .comparison lhs operator rhs
  | .isNull subject isNegated => do return .nullness (← s.expression m subject) isNegated
  | .isEmpty collection isNegated => do
    return .nonempty (← s.subquery m collection .key) (!isNegated)
  | .between subject lower upper isNegated => do
    let subject ← s.expression m subject
    let lower ← s.expression m lower
    let upper ← s.expression m upper
    return .between subject lower upper isNegated
  | .like subject pattern escape isNegated => do
    let subject ← s.expression m subject
    let pattern ← s.expression m pattern
    let escape ← match escape with
      | none => pure none
      | some escape => some <$> s.expression m escape
    return .like subject pattern escape isNegated
  | .memberOf value collection isNegated => do
    let value ← s.expression m value
    let subquery ← s.subquery m collection .element
    return .among value subquery isNegated

theorem predicate_eq (p : Predicate) : s.predicate m p = s.predicateOfParts m p := by
  cases p with
  | like _ _ escape _ =>
    cases escape <;> simp only [predicate, visitPredicate, predicateOfParts, expecting_bind] <;> rfl
  | grouped | and | or | negated | relational | isNull | isEmpty | between | memberOf =>
    simp only [predicate, visitPredicate, predicateOfParts, expecting_bind]
    rfl

/-! ## Selections, order, assignments -/

theorem items_expression (value : Expression) (name : Option String) (rest : List SelectItem) :
    s.items m (⟨.expression value, name⟩ :: rest) = do
      let value ← s.expression m value
      let rest ← s.items m rest
      return ⟨.expression value, name⟩ :: rest := by
  simp only [items, visitSelection, expecting_bind, bind_assoc]
  rfl

theorem items_instantiation (target : InstantiationTarget) (arguments : List SelectItem)
    (name : Option String) (rest : List SelectItem) :
    s.items m (⟨.instantiation target arguments, name⟩ :: rest) = do
      let arguments ← s.items m arguments
      let rest ← s.items m rest
      return ⟨.instantiation target arguments, name⟩ :: rest := by
  simp only [items, visitSelection, expecting_bind, bind_assoc]
  rfl

theorem selectClause_eq (c : SelectClause) : s.selectClause m c = do
    return (c.distinct, ← s.items m c.items) := by
  simp only [selectClause, visitSelectClause, visitSelectList, expecting_bind, bind_assoc]
  rfl

theorem sortKey_eq (k : SortKey) : s.sortKey m k = do
    return ⟨← s.expression m k.expression, k.order⟩ := by
  simp only [sortKey, visitSortKey, expecting_bind]
  rfl

theorem sortKeys_eq (ks : List SortKey) : s.sortKeys m ks = ks.mapM (s.sortKey m) := by
  rw [sortKeys, visitOrderClause, expecting_bind]
  exact bind_pure _

theorem assignment_eq (a : Assignment) : s.assignment m a = do
    let target ← settled (s.path m a.target)
    let value ← s.expression m a.value
    return ⟨target.parts, value⟩ := by
  simp only [assignment, visitAssignment, visitPath, expecting_bind, bind_assoc]
  rfl

end Scope

/-! ## Steps -/

namespace Step

variable {m : Metamodel}

theorem expecting_bind {α β : Type} {convert : Outcome → Except LoweringError β} (x : Step α)
    (f : α → Step Outcome) : expecting convert (x >>= f) = x >>= fun a => expecting convert (f a) :=
  bind_assoc x f _

/-- From-elements are entered, and nothing more is to be converted. -/
theorem expecting_fromElements (x : Step Unit) :
    expecting (·.asFromElements) (do x; return .fromElements) = x :=
  (expecting_bind x _).trans (bind_pure x)

theorem expecting_visitRoot (r : Root) : expecting (·.asFromElements) (visitRoot m r) = root m r :=
  expecting_fromElements _

theorem expecting_visitJoin (j : Join) : expecting (·.asFromElements) (visitJoin m j) = join m j :=
  expecting_fromElements _

theorem space_eq (s : Space) : space m s = (do root m s.root; s.joins.forM (join m)) := by
  rw [space, visitSpace, expecting_bind, expecting_visitRoot]
  refine bind_congr fun _ => (expecting_fromElements _).trans ?_
  simp only [expecting_visitJoin]

theorem fromClause_eq (f : FromClause) : fromClause m f = (do
    if f.spaces.isEmpty then throw .emptyFromClause
    f.spaces.forM (space m)
    let pending := (← get).pending
    modify fun pass => { pass with pending := [] }
    pending.forM (pendingCondition m)) := by
  rw [fromClause, visitFromClause]
  split
  · rfl
  · simp only [expecting_bind]
    exact bind_congr fun _ => bind_congr fun _ => bind_congr fun _ => bind_pure _

theorem query_eq (q : Query) : query m q = do
    fromClause m q.fromClause
    let (distinct, selections) ← selections m q.select
    let predicate ← clause fun scope => scope.condition m q.condition
    let order ← order m q.order
    let spaces ← takeSpaces
    return ⟨distinct, selections, ⟨spaces⟩, predicate, order⟩ := by
  simp only [query, visitQuery, expecting_bind]
  rfl

theorem statement_select (q : Query) : statement m (.select q) = do
    let query ← query m q
    let parameters ← takeParameters
    return .select ⟨query, parameters⟩ := by
  simp only [statement, visitStatement, expecting_bind]
  rfl

theorem statement_update (u : Update) : statement m (.update u) = do
    return .update (← update m u) := by
  simp only [statement, visitStatement, expecting_bind]
  rfl

theorem statement_delete (d : Delete) : statement m (.delete d) = do
    return .delete (← delete m d) := by
  simp only [statement, visitStatement, expecting_bind]
  rfl

end Step

/-! ## Kinds of outcomes -/

namespace Scope

variable {s : Scope} {m : Metamodel}

theorem visitExpression_eq (e : Expression) :
    s.visitExpression m e = Outcome.expression <$> s.expression m e := by
  rw [expression_eq]
  cases e with
  | literal | enumConstant | fieldConstant => rfl
  | path | element => exact (map_eq_pure_bind _ _).symm
  | parameter | entityType | unary | function | concatenation | arithmetic =>
    simp only [visitExpression, expressionOfParts, expression, map_bind, map_pure]

theorem visitPredicate_eq (p : Predicate) :
    s.visitPredicate m p = Outcome.predicate <$> s.predicate m p := by
  rw [predicate_eq]
  cases p with
  | like _ _ escape _ =>
    cases escape <;> simp only [visitPredicate, predicateOfParts, map_bind, map_pure]
  | grouped | and | or | negated | relational | isNull | isEmpty | between | memberOf =>
    simp only [visitPredicate, predicateOfParts, predicate, map_bind, map_pure]

theorem visitSelection_eq (e : Selection) (name : Option String) :
    s.visitSelection m e name =
      Outcome.selection <$> expecting (·.asSelection) (s.visitSelection m e name) := by
  cases e <;> simp only [visitSelection, expecting_bind, map_bind] <;> rfl

theorem visitSelectList_eq (es : List SelectItem) :
    s.visitSelectList m es = Outcome.selectList <$> s.items m es :=
  (map_eq_pure_bind _ _).symm

theorem visitSelectClause_eq (c : SelectClause) : s.visitSelectClause m c =
    (fun r => Outcome.selectClause r.1 r.2) <$> s.selectClause m c := by
  simp only [selectClause, visitSelectClause, expecting_bind, map_bind]
  rfl

theorem visitSortKey_eq (k : SortKey) :
    s.visitSortKey m k = Outcome.sortKey <$> s.sortKey m k := by
  simp only [sortKey, visitSortKey, expecting_bind, map_bind]
  rfl

theorem visitOrderClause_eq (ks : List SortKey) :
    s.visitOrderClause m ks = Outcome.orderClause <$> s.sortKeys m ks := by
  simp only [sortKeys, visitOrderClause, expecting_bind, map_bind]
  rfl

theorem visitAssignment_eq (a : Assignment) :
    s.visitAssignment m a = Outcome.assignment <$> s.assignment m a := by
  simp only [assignment, visitAssignment, expecting_bind, map_bind]
  rfl

end Scope

namespace Step

variable {m : Metamodel}

theorem visitRoot_eq (r : Root) : visitRoot m r = (fun _ => Outcome.fromElements) <$> root m r :=
  (map_eq_pure_bind _ _).symm

theorem visitJoin_eq (j : Join) : visitJoin m j = (fun _ => Outcome.fromElements) <$> join m j :=
  (map_eq_pure_bind _ _).symm

theorem visitSpace_eq (s : Space) :
    visitSpace m s = (fun _ => Outcome.fromElements) <$> space m s := by
  simp only [space, visitSpace, expecting_bind, map_bind]
  rfl

theorem visitFromClause_eq (f : FromClause) :
    visitFromClause m f = (fun _ => Outcome.fromElements) <$> fromClause m f := by
  rw [fromClause, visitFromClause]
  split
  · rfl
  · simp only [expecting_bind, map_bind]
    rfl

theorem visitQuery_eq (q : Query) : visitQuery m q = Outcome.query <$> query m q := by
  simp only [query, visitQuery, expecting_bind, map_bind]
  rfl

theorem visitStatement_eq (s : Statement) :
    visitStatement m s = Outcome.statement <$> statement m s := by
  cases s <;> simp only [statement, visitStatement, expecting_bind, map_bind] <;> rfl

end Step

end EntityQuery
