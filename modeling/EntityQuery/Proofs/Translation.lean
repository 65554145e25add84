import EntityQuery.Proofs.Aliases
import EntityQuery.Proofs.ColumnEqualities

/-!
# The form of statements

A statement keeps its form when it is lowered. The form of an expression is what is left of it when
types are forgotten and paths, from-elements and subqueries are holes (`ExpressionForm`,
`PredicateForm`). It is the same for a clause of a statement and for what the clause is lowered to,
except that the emptiness of a collection is lowered to the nonemptiness of a subquery, so that its
negation is turned around.

Spaces and joins keep their order. The predicate of a join is the equality that was made for it
followed by its condition (`Scope.TakesJoin`).

`lowering_keeps_form` says so of every lowered statement.
-/

set_option autoImplicit false

namespace EntityQuery

/-! ## Forms -/

/-- The form of an expression. -/
inductive ExpressionForm
  | hole
  | literal (value : Sql.Value)
  | parameter (binding : Binding)
  | entityType (name : String)
  | unary (operator : UnaryOperator) (operand : ExpressionForm)
  | arithmetic (lhs : ExpressionForm) (operator : ArithmeticOperator) (rhs : ExpressionForm)
  | concatenation (lhs rhs : ExpressionForm)
  | function (name : String) (arguments : List ExpressionForm)

/-- The form of a predicate. The subqueries of `nonempty` and `among` are left out. -/
inductive PredicateForm
  | junction (kind : Sql.JunctionKind) (predicates : List PredicateForm)
  | grouped (inner : PredicateForm)
  | negated (inner : PredicateForm)
  | comparison (lhs : ExpressionForm) (operator : RelationalOperator) (rhs : ExpressionForm)
  | between (subject lower upper : ExpressionForm) (negated : Bool)
  | like (subject pattern : ExpressionForm) (escape : Option ExpressionForm) (negated : Bool)
  | nullness (subject : ExpressionForm) (negated : Bool)
  | nonempty (negated : Bool)
  | among (subject : ExpressionForm) (negated : Bool)

/-- The form of a statement apart from its from-elements. -/
inductive StatementForm
  | select (distinct : Bool) (selections : List (SelectItemOf (SelectionOf ExpressionForm)))
      (condition : Option PredicateForm) (order : List (ExpressionForm × SortOrder))
  | update (assigned : List ExpressionForm) (condition : Option PredicateForm)
  | delete (condition : Option PredicateForm)

/-! ## Forms of statements -/

namespace Expression

mutual
/-- The form of an expression of a statement. A constant field is its value. -/
def form : Expression → ExpressionForm
  | .parameter binding _ => .parameter binding
  | .entityType name => .entityType name
  | .unary operator operand => .unary operator operand.form
  | .path _ => .hole
  | .element _ => .hole
  | .function name arguments _ => .function name (forms arguments)
  | .literal value => .literal (.plain value)
  | .concatenation lhs rhs _ => .concatenation lhs.form rhs.form
  | .enumConstant constant _ => .literal (.enum constant)
  | .fieldConstant _ _ value => .literal (.plain value)
  | .arithmetic lhs operator rhs _ => .arithmetic lhs.form operator rhs.form
def forms : List Expression → List ExpressionForm
  | [] => []
  | e :: es => e.form :: forms es
end

end Expression

/-- The form of a predicate of a statement. A collection is empty when it is not nonempty. -/
def Predicate.form : Predicate → PredicateForm
  | .grouped inner => .grouped inner.form
  | .and left right => .junction .conjunction [left.form, right.form]
  | .or left right => .junction .disjunction [left.form, right.form]
  | .negated inner => .negated inner.form
  | .relational lhs operator rhs => .comparison lhs.form operator rhs.form
  | .isNull subject isNegated => .nullness subject.form isNegated
  | .isEmpty _ isNegated => .nonempty (!isNegated)
  | .between subject lower upper isNegated => .between subject.form lower.form upper.form isNegated
  | .like subject pattern escape isNegated =>
    .like subject.form pattern.form (escape.map (·.form)) isNegated
  | .memberOf value _ isNegated => .among value.form isNegated

/-- The form of a statement. A query without a select clause selects one from-element. -/
def Statement.form : Statement → StatementForm
  | .select q => .select (q.select.elim false (·.distinct))
      (q.select.elim [⟨.expression .hole, none⟩] fun c => SelectionOf.mapItems (·.form) c.items)
      (q.condition.map (·.form)) ((q.order.getD []).map fun k => (k.expression.form, k.order))
  | .update u => .update (u.assignments.map (·.value.form)) (u.condition.map (·.form))
  | .delete d => .delete (d.condition.map (·.form))

/-- The spaces of a statement. An update or deletion has the one that its target opens. -/
def Statement.spaces : Statement → List Space
  | .select q => q.fromClause.spaces
  | .update u => [⟨u.target, []⟩]
  | .delete d => [⟨d.target, []⟩]

/-! ## Forms of lowered statements -/

namespace Sql

namespace Expression

mutual
/-- The form of a lowered expression. Columns are what is left of paths and from-elements. -/
def form : Expression → ExpressionForm
  | .column _ => .hole
  | .tuple _ _ => .hole
  | .literal value => .literal value.value
  | .parameter p => .parameter p.binding
  | .entityType name => .entityType name
  | .unary operator operand _ => .unary operator operand.form
  | .arithmetic lhs operator rhs _ => .arithmetic lhs.form operator rhs.form
  | .concatenation lhs rhs _ => .concatenation lhs.form rhs.form
  | .function name arguments _ => .function name (forms arguments)
def forms : List Expression → List ExpressionForm
  | [] => []
  | e :: es => e.form :: forms es
end

end Expression

namespace Predicate

mutual
/-- The form of a lowered predicate. -/
def form : Predicate → PredicateForm
  | .junction kind ps => .junction kind (forms ps)
  | .grouped inner => .grouped inner.form
  | .negated inner => .negated inner.form
  | .comparison lhs operator rhs => .comparison lhs.form operator rhs.form
  | .between subject lower upper isNegated => .between subject.form lower.form upper.form isNegated
  | .like subject pattern escape isNegated =>
    .like subject.form pattern.form (escape.map (·.form)) isNegated
  | .nullness subject isNegated => .nullness subject.form isNegated
  | .nonempty _ isNegated => .nonempty isNegated
  | .among subject _ isNegated => .among subject.form isNegated
def forms : List Predicate → List PredicateForm
  | [] => []
  | p :: ps => p.form :: forms ps
end

end Predicate

/-- The form of a lowered statement. -/
def Statement.form : Statement → StatementForm
  | .select s => .select s.query.distinct (SelectionOf.mapItems (·.form) s.query.selections)
      (s.query.predicate.map (·.form)) (s.query.order.map fun k => (k.expression.form, k.order))
  | .update u => .update (u.assignments.map (·.value.form)) (u.predicate.map (·.form))
  | .delete d => .delete (d.predicate.map (·.form))

end Sql

/-! ## Clauses -/

theorem Sql.Expression.form_ofColumns (type : Option DomainType) :
    ∀ columns : List Sql.ColumnReference, (ofColumns columns type).form = .hole
  | [] | [_] | _ :: _ :: _ => by simp [ofColumns, form]

theorem Metamodel.columnsAt_form {m : Metamodel} {g : Sql.TableGroup} {position : Nat}
    {ids : List ColumnId} {type : Option DomainType} {v : Sql.Expression}
    (h : m.columnsAt g position ids type = .ok v) : v.form = .hole := by
  obtain ⟨_, _, -, -, rfl⟩ := columnsAt_eq_ok.1 h
  exact Sql.Expression.form_ofColumns _ _

namespace Scope

variable {s : Scope} {m : Metamodel}

theorem path_form {p : AttributePath} {v : Sql.Expression} (h : s.path m p = .ok v) :
    v.form = .hole := by
  obtain ⟨x, -, hv⟩ := Except.bind_eq_ok.1 h
  obtain ⟨_, _, _, -, -, hv⟩ := pathValue_ok hv
  exact Metamodel.columnsAt_form hv

theorem elementValue_form {ref : GroupRef} {v : Sql.Expression}
    (h : s.elementValue m ref = .ok v) : v.form = .hole := by
  obtain ⟨_, _, _, _, -, hv⟩ := elementValue_columns h
  exact Metamodel.columnsAt_form hv

theorem expressions_keep_form : s.ExpressionCases m (fun e _ v _ => v.form = e.form)
    (fun es _ vs _ => Sql.Expression.forms vs = Expression.forms es) where
  parameter hp := by
    cases hp
    rfl
  entityType he := by
    simp only [Sql.Expression.form, Expression.form, Metamodel.entity_name he]
  unary ih := by simp only [Sql.Expression.form, Expression.form, ih]
  path hv := path_form hv
  element _ hv := elementValue_form hv
  function ih := by simp only [Sql.Expression.form, Expression.form, ih]
  literal := rfl
  concatenation ihl ihr := by simp only [Sql.Expression.form, Expression.form, ihl, ihr]
  enumConstant := rfl
  fieldConstant := rfl
  arithmetic ihl ihr := by simp only [Sql.Expression.form, Expression.form, ihl, ihr]
  nil := rfl
  cons ih ihs := by simp only [Sql.Expression.forms, Expression.forms, ih, ihs]

theorem expression_form {e : Expression} {supply supply' : Supply} {v : Sql.Expression}
    (h : s.expression m e supply = .ok v supply') : v.form = e.form :=
  expressions_keep_form.expression h

theorem predicates_keep_form : s.PredicateCases m fun p _ q _ => q.form = p.form where
  grouped ih := by simp only [Sql.Predicate.form, Predicate.form, ih]
  and ihl ihr := by
    simp only [Sql.Predicate.form, Sql.Predicate.forms, Predicate.form, ihl, ihr]
  or ihl ihr := by
    simp only [Sql.Predicate.form, Sql.Predicate.forms, Predicate.form, ihl, ihr]
  negated ih := by simp only [Sql.Predicate.form, Predicate.form, ih]
  relational hl hr := by
    simp only [Sql.Predicate.form, Predicate.form, expression_form hl, expression_form hr]
  isNull hv := by simp only [Sql.Predicate.form, Predicate.form, expression_form hv]
  isEmpty _ := rfl
  between hs hl hu := by
    simp only [Sql.Predicate.form, Predicate.form, expression_form hs, expression_form hl,
      expression_form hu]
  like hs hp := by
    simp only [Sql.Predicate.form, Predicate.form, expression_form hs, expression_form hp,
      Option.map_none]
  likeEscaping hs hp he := by
    simp only [Sql.Predicate.form, Predicate.form, expression_form hs, expression_form hp,
      Option.map_some, expression_form he]
  memberOf hv _ := by simp only [Sql.Predicate.form, Predicate.form, expression_form hv]

theorem predicate_form {p : Predicate} {supply supply' : Supply} {q : Sql.Predicate}
    (h : s.predicate m p supply = .ok q supply') : q.form = p.form :=
  predicates_keep_form.predicate h

theorem condition_form {p : Option Predicate} {q : Option Sql.Predicate} {supply supply' : Supply}
    (h : s.condition m p supply = .ok q supply') : q.map (·.form) = p.map (·.form) := by
  obtain ⟨rfl, rfl, -⟩ | ⟨p, q, rfl, rfl, hp⟩ := condition_ok h
  · rfl
  · rw [Option.map_some, Option.map_some, predicate_form hp]

theorem items_keep_form : s.ItemCases m fun es _ vs _ =>
    SelectionOf.mapItems Sql.Expression.form vs = SelectionOf.mapItems Expression.form es where
  nil := rfl
  expression hv ih := by
    simp only [SelectionOf.mapItems, SelectionOf.map, expression_form hv, ih]
  instantiation iha ih := by simp only [SelectionOf.mapItems, SelectionOf.map, iha, ih]

theorem selected_form {c : Option SelectClause} {r : Bool × List Sql.SelectItem}
    {supply supply' : Supply} (h : s.selected m c supply = .ok r supply') :
    r.1 = c.elim false (·.distinct) ∧ SelectionOf.mapItems (·.form) r.2 =
      c.elim [⟨.expression .hole, none⟩] fun c => SelectionOf.mapItems (·.form) c.items := by
  cases c with
  | none =>
    obtain ⟨_, v, hv, rfl, -⟩ := selected_none h
    simp only [SelectionOf.mapItems, SelectionOf.map, elementValue_form hv, Option.elim_none,
      and_self]
  | some c =>
    obtain ⟨hdistinct, hitems⟩ := selected_some h
    exact ⟨hdistinct, items_keep_form.items hitems⟩

theorem ordered_form {ks : Option (List SortKey)} {supply supply' : Supply} {vs : List Sql.SortKey}
    (h : s.ordered m ks supply = .ok vs supply') :
    vs.map (fun k => (k.expression.form, k.order)) =
      (ks.getD []).map fun k => (k.expression.form, k.order) := by
  rw [ordered_eq] at h
  refine EStateM.mapM_cases (P := fun ks _ vs _ =>
    vs.map (fun k => (k.expression.form, k.order)) = ks.map fun k => (k.expression.form, k.order))
    rfl (fun hk ih => ?_) h
  obtain ⟨hv, horder⟩ := sortKey_ok hk
  rw [List.map_cons, List.map_cons, expression_form hv, horder, ih]

theorem assignments_form {es : List Assignment} {supply supply' : Supply}
    {vs : List Sql.Assignment} (h : es.mapM (s.assignment m) supply = .ok vs supply') :
    vs.map (·.value.form) = es.map (·.value.form) := by
  refine EStateM.mapM_cases (P := fun es _ vs _ =>
    vs.map (·.value.form) = es.map (·.value.form)) rfl (fun ha ih => ?_) h
  obtain ⟨_, -, -, hv⟩ := assignment_ok ha
  rw [List.map_cons, List.map_cons, expression_form hv, ih]

theorem Clauses.form {statement : Statement} {out : Sql.Statement}
    (h : s.Clauses m statement out) : out.form = statement.form := by
  cases statement with
  | select q =>
    cases out with
    | select out =>
      obtain ⟨_, _, _, _, hs, hc, ho⟩ := h
      obtain ⟨hdistinct, hitems⟩ := selected_form hs
      simp only at hdistinct hitems
      simp only [Sql.Statement.form, Statement.form, hdistinct, hitems, condition_form hc,
        ordered_form ho]
    | update | delete => exact h.elim
  | update u =>
    cases out with
    | update out =>
      obtain ⟨_, _, _, ha, hc⟩ := h
      simp only [Sql.Statement.form, Statement.form, assignments_form ha, condition_form hc]
    | select | delete => exact h.elim
  | delete d =>
    cases out with
    | delete out =>
      obtain ⟨_, _, hc⟩ := h
      simp only [Sql.Statement.form, Statement.form, condition_form hc]
    | select | update => exact h.elim

end Scope

/-! ## Spaces and joins -/

/-- The join that a join of a statement becomes, by type. -/
inductive JoinType.Becomes : JoinType → Sql.JoinType → Prop
  | inner : Becomes .inner .inner
  | cross : Becomes .cross .inner
  | left : Becomes .left .left

theorem JoinType.lower_becomes {t : JoinType} {t' : Sql.JoinType} (h : t.lower = .ok t') :
    t.Becomes t' := by
  cases t with
  | inner | cross | left =>
    cases h
    constructor
  | right | full => cases h

/-- A join becomes one of the same type that is fetched if it is. -/
structure Join.Becomes (j : Join) (j' : Sql.GroupJoin) : Prop where
  joinType : j.joinType.Becomes j'.joinType
  fetched : j'.fetched = j.fetch

/-- A space becomes one whose root ranges over the same entity, with the same joins in order. -/
structure Space.Becomes (s : Space) (s' : Sql.TableSpace) : Prop where
  root : s'.root.kind = .entity s.root.entity
  joins : List.Forall₂ Join.Becomes s.joins s'.joins

namespace Step

variable {m : Metamodel} {pass pass' : Pass} {u : Unit}

theorem root_becomes {r : Root} (h : root m r pass = .ok u pass') :
    ∃ g : Sql.TableGroup, g.kind = .entity r.entity ∧
      pass'.scope.spaces = pass.scope.spaces ++ [⟨g, []⟩] := by
  obtain ⟨e, _, _, g, _, he, -, hg, -, rfl⟩ := root_ok h
  refine ⟨g, ?_, rfl⟩
  rw [(Metamodel.entityGroup_ok hg).2.1, Metamodel.entity_name he]

theorem join_becomes {j : Join} (h : join m j pass = .ok u pass') {before : List Sql.TableSpace}
    {s : Sql.TableSpace} (hs : pass.scope.spaces = before ++ [s]) :
    ∃ j', j.Becomes j' ∧ pass'.scope.spaces = before ++ [{ s with joins := s.joins ++ [j'] }] := by
  obtain ⟨joinType, space, _, _, joined, _, ht, hl, -, -, -, rfl⟩ := join_ok h
  obtain ⟨before', s', hspaces, -, hjoined⟩ :=
    joinedOnto_last ⟨joinType, joined.group, joined.predicate, j.fetch⟩ hl
  obtain ⟨rfl, hlast⟩ := List.append_inj' (hs.symm.trans hspaces) rfl
  cases hlast
  exact ⟨_, ⟨JoinType.lower_becomes ht, rfl⟩, hjoined⟩

theorem space_becomes {s : Space} (h : space m s pass = .ok u pass') :
    ∃ s', s.Becomes s' ∧ pass'.scope.spaces = pass.scope.spaces ++ [s'] := by
  obtain ⟨_, _, hroot, hjoins⟩ := space_ok h
  obtain ⟨g, hg, hspaces⟩ := root_becomes hroot
  obtain ⟨s', hr, hj, hs⟩ := EStateM.forM_inv
    (fun done p => ∃ s' : Sql.TableSpace, s'.root.kind = .entity s.root.entity ∧
      List.Forall₂ Join.Becomes done s'.joins ∧ p.scope.spaces = pass.scope.spaces ++ [s'])
    (by
      rintro done j p p' v ⟨s', hr, hj, hs⟩ h
      obtain ⟨j', hb, hs'⟩ := join_becomes h hs
      exact ⟨{ s' with joins := s'.joins ++ [j'] }, hr, List.rel_append hj (.cons hb .nil), hs'⟩)
    ⟨_, hg, .nil, hspaces⟩ hjoins
  exact ⟨s', ⟨hr, hj⟩, hs⟩

theorem spaces_become {spaces : List Space} (hp : pass.scope.spaces = [])
    (h : spaces.forM (space m) pass = .ok u pass') :
    List.Forall₂ Space.Becomes spaces pass'.scope.spaces := by
  refine EStateM.forM_inv (fun done p => List.Forall₂ Space.Becomes done p.scope.spaces)
    (fun hi hs => ?_) (by rw [hp]; exact .nil) h
  obtain ⟨s', hb, hs'⟩ := space_becomes hs
  rw [hs']
  exact List.rel_append hi (.cons hb .nil)

end Step

theorem forall₂_modify {α β : Type} {R : α → β → Prop} {f : β → β} (hf : ∀ a b, R a b → R a (f b))
    {xs : List α} {ys : List β} (h : List.Forall₂ R xs ys) (k : Nat) :
    List.Forall₂ R xs (ys.modify k f) := by
  induction h generalizing k with
  | nil => simp
  | cons hr hrest ih =>
    cases k with
    | zero => exact .cons (hf _ _ hr) hrest
    | succ k => exact .cons hr (ih k)

/-- Conditions that are tied to joins change neither spaces nor types of joins. -/
theorem Step.pendingConditions_become {m : Metamodel} {pass pass' : Pass} {u : Unit}
    {spaces : List Space} {pending : List PendingCondition}
    (h : pending.forM (pendingCondition m) pass = .ok u pass')
    (hb : List.Forall₂ Space.Becomes spaces pass.scope.spaces) :
    List.Forall₂ Space.Becomes spaces pass'.scope.spaces := by
  refine EStateM.forM_inv (fun _ p => List.Forall₂ Space.Becomes spaces p.scope.spaces)
    (fun hi hp => ?_) hb h
  obtain ⟨_, _, _, -, -, rfl⟩ := pendingCondition_ok hp
  refine forall₂_modify (fun s s' hs => ⟨hs.root, ?_⟩) hi _
  exact forall₂_modify (fun j j' hj => ⟨hj.joinType, hj.fetched⟩) hs.joins _

theorem lowerWith_spaces_become {settings : Settings} {m : Metamodel} {s : Statement} {l : Lowered}
    (h : lowerWith settings m s = .ok l) :
    List.Forall₂ Space.Becomes s.spaces l.scope.spaces := by
  obtain ⟨-, _, p, _, _, hf, hscope, -, -⟩ := lowerWith_ok h
  rw [hscope]
  have target {r : Root} {u : Unit} (hr : Step.root m r (.start settings) = .ok u p) :
      List.Forall₂ Space.Becomes [⟨r, []⟩] p.scope.spaces := by
    obtain ⟨g, hg, hs⟩ := Step.root_becomes hr
    rw [hs]
    exact .cons ⟨hg, .nil⟩ .nil
  cases s with
  | select q =>
    obtain ⟨-, _, p', hspaces, hpending⟩ := Step.fromClause_ok hf
    have hbecome : List.Forall₂ Space.Becomes q.fromClause.spaces p'.scope.spaces :=
      Step.spaces_become rfl hspaces
    exact Step.pendingConditions_become hpending hbecome
  | update x => exact target hf
  | delete x => exact target hf

/-! ## What ties joins -/

theorem Sql.Predicate.conjunction_eq_none {ps : List Sql.Predicate} :
    conjunction ps = none ↔ ps = [] := by
  match ps with
  | [] | [_] | _ :: _ :: _ => simp [conjunction]

namespace Scope

/-- A join of a statement becomes one of the query. Its predicate is the equality that was made for
it, then its condition as lowered in the scope of the whole statement; there is none exactly if there
is neither. -/
structure TakesJoin (t : Scope) (m : Metamodel) (j : Join) (j' : Sql.GroupJoin) : Prop
    extends j.Becomes j' where
  tied : ∃ generated condition supply supply', t.Connects m j.source j'.group generated ∧
    t.condition m j.condition supply = .ok condition supply' ∧
    condition.map (·.form) = j.condition.map (·.form) ∧
    j'.predicate = Sql.Predicate.conjunction (generated.toList ++ condition.toList) ∧
    (j'.predicate = none ↔ generated = none ∧ j.condition = none)

/-- A space becomes another one, join by join. -/
structure TakesSpace (t : Scope) (m : Metamodel) (s : Space) (s' : Sql.TableSpace) : Prop where
  root : s'.root.kind = .entity s.root.entity
  joins : List.Forall₂ (t.TakesJoin m) s.joins s'.joins

variable {t : Scope} {m : Metamodel}

theorem HasElement.takesJoin {j : Join} {j' : Sql.GroupJoin} {place : GroupLocator}
    (h : t.HasElement m ⟨j.source, j.condition⟩ place) (hb : j.Becomes j')
    (hg : groupAt? t.spaces place = some j'.group) (hj : joinAt? t.spaces place = some j') :
    t.TakesJoin m j j' := by
  obtain ⟨s, joined, condition, supply, supply', hentered, hcondition, htie⟩ := h
  have hgroup : joined.group = j'.group := Option.some.inj (hentered.groupAt.symm.trans hg)
  have hpredicate : j'.predicate =
      Sql.Predicate.conjunction (joined.predicate.toList ++ condition.toList) := by
    rw [← htie, tieAt?, hj, Option.bind_some]
  have hform := condition_form hcondition
  refine ⟨hb, joined.predicate, condition, supply, supply', ?_, hcondition, hform, hpredicate, ?_⟩
  · rw [← hgroup]
    exact (joinedGroup_connects hentered.built).grows hentered.grows
  · have hnone : condition = none ↔ j.condition = none := by
      rw [← Option.map_eq_none_iff, hform, Option.map_eq_none_iff]
    rw [hpredicate, Sql.Predicate.conjunction_eq_none, List.append_eq_nil_iff, ← hnone,
      Option.toList_eq_nil_iff, Option.toList_eq_nil_iff]

end Scope

theorem forall₂_append_inv {α β : Type} {R : α → β → Prop} {xs xs' : List α} {ys ys' : List β}
    (h : List.Forall₂ R (xs ++ xs') (ys ++ ys')) (hl : xs.length = ys.length) :
    List.Forall₂ R xs ys ∧ List.Forall₂ R xs' ys' := by
  have htake := List.forall₂_take_append _ _ _ h
  have hdrop := List.forall₂_drop_append _ _ _ h
  rw [← hl, List.take_left] at htake
  rw [← hl, List.drop_left] at hdrop
  exact ⟨htake, hdrop⟩

namespace Scope

variable {t : Scope} {m : Metamodel}

/-- The from-elements of a space stand at the places of the space it becomes. -/
theorem takesSpace_of {before rest : List Sql.TableSpace} {s : Space} {s' : Sql.TableSpace}
    (ht : t.spaces = before ++ s' :: rest) (hb : s.Becomes s')
    (h : List.Forall₂ (t.HasElement m) s.fromElements
      (spacePlaces before.length s'.joins.length)) : t.TakesSpace m s s' := by
  refine ⟨hb.root, ?_⟩
  -- the root comes first, and behind it the joins by their numbers
  obtain ⟨-, hjoins⟩ := List.forall₂_cons.1 h
  rw [List.forall₂_map_left_iff, List.forall₂_map_right_iff] at hjoins
  refine List.forall₂_iff_get.2 ⟨hb.joins.length_eq, fun i hi hi' => ?_⟩
  have helement := (List.forall₂_iff_get.1 hjoins).2 i hi (by simpa using hi')
  have hbecomes := (List.forall₂_iff_get.1 hb.joins).2 i hi hi'
  simp only [List.get_eq_getElem, List.getElem_range] at helement hbecomes ⊢
  refine helement.takesJoin hbecomes ?_ ?_
  · rw [ht, groupAt?_append]
    simp [hi']
  · rw [ht, joinAt?_append]
    simp [hi']

/-- The from-elements of spaces stand at the places of the spaces they become, so these are taken one
by one. -/
theorem takesSpaces {ss : List Space} {rest : List Sql.TableSpace}
    (hb : List.Forall₂ Space.Becomes ss rest) : ∀ before : List Sql.TableSpace,
      t.spaces = before ++ rest →
      List.Forall₂ (t.HasElement m) (ss.flatMap (·.fromElements))
        (placesFrom before.length (shape rest)) →
      List.Forall₂ (t.TakesSpace m) ss rest := by
  induction hb with
  | nil => exact fun _ _ _ => .nil
  | @cons s s' ss rest hs _ ih =>
    intro before ht h
    -- the first space has as many from-elements as places, so the lists part at the same point
    have hlength : s.fromElements.length = (spacePlaces before.length s'.joins.length).length := by
      simp [Space.fromElements, spacePlaces, hs.joins.length_eq]
    rw [shape, List.map_cons, placesFrom, List.flatMap_cons] at h
    obtain ⟨hfirst, hothers⟩ := forall₂_append_inv h hlength
    refine .cons (takesSpace_of ht hs hfirst) (ih (before ++ [s']) (by simp [ht]) ?_)
    rw [List.length_append]
    exact hothers

end Scope

theorem Statement.fromElements_eq (s : Statement) :
    s.fromElements = s.spaces.flatMap (·.fromElements) := by
  cases s <;> simp [fromElements, spaces, Space.fromElements]

/-- A statement keeps its form when it is lowered, clause by clause, and its spaces and joins keep
their order. Inner and cross joins become inner ones and left joins left ones. What ties a join is the
equality that was made for it and then its condition. -/
theorem lowering_keeps_form {settings : Settings} {m : Metamodel} {s : Statement} {l : Lowered}
    (h : lowerWith settings m s = .ok l) :
    l.statement.form = s.form ∧
      List.Forall₂ (l.scope.TakesSpace m) s.spaces l.statement.fromClause.spaces := by
  refine ⟨(lowerWith_clauses h).form, ?_⟩
  have helements := lowerWith_elements h
  rw [Statement.fromElements_eq] at helements
  exact Scope.takesSpaces (lowerWith_spaces_become h) [] rfl helements

/-- A report on orders, beside the customers who do not have them. -/
def salesReport : Statement :=
  .select ⟨⟨[⟨⟨"Order", some "o"⟩,
      [⟨some "c", .left, .attributeOf "o" "customer", true,
        some (.relational (.path ⟨"c", ["id"]⟩) .greaterThan (.parameter (.named "least") none))⟩,
       ⟨some "d", .cross, .entity "Customer", false, none⟩]⟩]⟩,
    some ⟨true, [⟨.instantiation (.named "Sale")
      [⟨.expression (.path ⟨"o", ["key", "region"]⟩), some "region"⟩,
       ⟨.expression (.function "count" [.element "c"] none), none⟩], some "sale"⟩]⟩,
    some (.and (.isEmpty ⟨"c", ["orders"]⟩ true)
      (.negated (.memberOf (.element "o") ⟨"d", ["orders"]⟩ false))),
    some [⟨.path ⟨"o", ["key", "number"]⟩, .descending⟩]⟩

theorem sales_report_keeps_form : ∃ m l, sales.metamodel = .ok m ∧
    lowerWith .default m salesReport = .ok l ∧ l.statement.form = salesReport.form ∧
    List.Forall₂ (l.scope.TakesSpace m) salesReport.spaces l.statement.fromClause.spaces := by
  have hrun : (sales.metamodel.toOption.bind fun m =>
      (lowerWith .default m salesReport).toOption).isSome := by
    decide +kernel
  obtain ⟨l, hrun⟩ := Option.isSome_iff_exists.1 hrun
  obtain ⟨m, hm, hl⟩ := Option.bind_eq_some_iff.1 hrun
  have hl := Except.toOption_eq_some.1 hl
  exact ⟨m, l, Except.toOption_eq_some.1 hm, hl, lowering_keeps_form hl⟩

/-- Customers who have no orders. -/
def customersWithoutOrders : Statement :=
  .select ⟨⟨[⟨⟨"Customer", some "c"⟩, []⟩]⟩, none, some (.isEmpty ⟨"c", ["orders"]⟩ false), none⟩

/-- A test whether a collection is empty, which is not negated, is lowered to one that is: a subquery
must not have a row. -/
theorem emptiness_turned_around : ∃ m l q, sales.metamodel = .ok m ∧
    lowerWith .default m customersWithoutOrders = .ok l ∧
    customersWithoutOrders.condition = some (.isEmpty ⟨"c", ["orders"]⟩ false) ∧
    l.statement.predicate = some (.nonempty q true) := by
  have hrun : (sales.metamodel.toOption.bind fun m =>
      (lowerWith .default m customersWithoutOrders).toOption).isSome := by
    decide +kernel
  obtain ⟨l, hrun⟩ := Option.isSome_iff_exists.1 hrun
  obtain ⟨m, hm, hl⟩ := Option.bind_eq_some_iff.1 hrun
  have hl := Except.toOption_eq_some.1 hl
  obtain ⟨-, _, _, _, _, -, -, -, hc⟩ := lowerWith_ok hl
  simp only [Statement.condition, customersWithoutOrders, Scope.condition, Scope.predicate_eq,
    Scope.predicateOfParts, EStateM.bind_eq_ok, EStateM.pure_eq_ok] at hc
  obtain ⟨_, _, ⟨q, _, -, rfl, -⟩, hp, -⟩ := hc
  exact ⟨m, l, q, Except.toOption_eq_some.1 hm, hl, rfl, hp.symm⟩

end EntityQuery
