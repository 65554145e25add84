import EntityQuery.Lowering.Pass

/-!
# Parts of statements, visited one by one

A pass may be run part by part. Every part of a statement is a `Node`, and visiting it is the visit
that lowering the whole statement would make.
-/

set_option autoImplicit false

namespace EntityQuery

/-- A part of a statement. -/
inductive Node
  | statement (s : Statement)
  | query (q : Query)
  | fromClause (f : FromClause)
  | space (s : Space)
  | root (r : Root)
  | join (j : Join)
  | selectClause (c : SelectClause)
  | selectList (items : List SelectItem)
  | selection (item : SelectItem)
  | orderClause (keys : List SortKey)
  | sortKey (k : SortKey)
  | assignment (a : Assignment)
  | predicate (p : Predicate)
  | expression (e : Expression)

namespace Step

/-- The visit of a part of a statement. -/
def node (m : Metamodel) : Node → Step Outcome
  | .statement s => visitStatement m s
  | .query q => visitQuery m q
  | .fromClause f => visitFromClause m f
  | .space s => visitSpace m s
  | .root r => visitRoot m r
  | .join j => visitJoin m j
  | .selectClause c => clause fun scope => scope.visitSelectClause m c
  | .selectList items => clause fun scope => scope.visitSelectList m items
  | .selection item => clause fun scope => scope.visitSelection m item.selection item.aliasName
  | .orderClause keys => clause fun scope => scope.visitOrderClause m keys
  | .sortKey k => clause fun scope => scope.visitSortKey m k
  | .assignment a => clause fun scope => scope.visitAssignment m a
  | .predicate p => clause fun scope => scope.visitPredicate m p
  | .expression e => clause fun scope => scope.visitExpression m e

end Step

end EntityQuery
