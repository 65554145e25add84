import EntityQuery.Proofs.Aliases
import EntityQuery.Proofs.TwoRuns
import EntityQuery.Proofs.Visits

/-!
# Clauses side by side

A clause is lowered over one scope, and over another scope under other aliases. The two runs stay
coupled (`EStateM.Coupled`) if they do so where a from-element is read, a parameter is numbered or a
subquery is opened, and if the relation between values is closed under the forms of expressions
(`ExpressionPairs`), that between predicates under the forms of predicates (`PredicatePairs`), and
that between lists of items under the forms of items (`ItemPairs`). The inductions over clauses are
made here, once for all pairs of runs.
-/

set_option autoImplicit false

namespace EntityQuery

open EStateM (Coupled)

theorem settled_coupled {α β : Type} {S : Supply → Supply → Prop}
    {E : LoweringError → LoweringError → Prop} {R : α → β → Prop} {x : Except LoweringError α}
    {y : Except LoweringError β} (h : Except.Related E R x y) :
    Coupled S E R (settled x) (settled y) := by
  cases h with
  | ok related => exact .pure related
  | error related => exact ⟨fun _ => .error related⟩

namespace Scope

/-! ## Expressions -/

/-- Two scopes in which expressions have related values, where those on the right read from-elements
under other aliases. Supplies stay related by `S` and errors are related by `E`; `A` holds of the
aliases that may be read. -/
structure ExpressionPairs (S : Supply → Supply → Prop) (E : LoweringError → LoweringError → Prop)
    (A : String → Prop) (f : String → String) (m : Metamodel) (s t : Scope)
    (V : Sql.Expression → Sql.Expression → Prop) : Prop where
  parameter : ∀ binding expected, Coupled S E (fun p q => V (.parameter p) (.parameter q))
    (newParameter binding expected) (newParameter binding expected)
  entityType : ∀ name, Coupled S E (fun d e => V (.entityType d.name) (.entityType e.name))
    (settled (lookedUp (m.entity name))) (settled (lookedUp (m.entity name)))
  unary : ∀ {operator v w}, V v w → V (.unary operator v v.type) (.unary operator w w.type)
  path : ∀ {p}, A p.start →
    Coupled S E V (settled (s.path m p)) (settled (t.path m (p.rename f)))
  element : ∀ {name}, A name → Coupled S E V
    (settled do s.elementValue m (← s.index.resolve name))
    (settled do t.elementValue m (← t.index.resolve (f name)))
  function : ∀ {name result vs ws}, List.Forall₂ V vs ws →
    V (.function name vs (result <|> resultType name (vs.map (·.type))))
      (.function name ws (result <|> resultType name (ws.map (·.type))))
  literal : ∀ value, V (literalValue value) (literalValue value)
  concatenation : ∀ {explicit v v' w w'}, V v w → V v' w' →
    V (.concatenation v v' (explicit <|> v.type)) (.concatenation w w' (explicit <|> w.type))
  enumConstant : ∀ constant storage, V (enumValue constant storage) (enumValue constant storage)
  arithmetic : ∀ {operator explicit v v' w w'}, V v w → V v' w' →
    V (.arithmetic v operator v' (explicit <|> arithmeticType v.type v'.type))
      (.arithmetic w operator w' (explicit <|> arithmeticType w.type w'.type))

variable {S : Supply → Supply → Prop} {E : LoweringError → LoweringError → Prop}
  {A : String → Prop} {f : String → String} {m : Metamodel} {s t : Scope}
  {V : Sql.Expression → Sql.Expression → Prop}

namespace ExpressionPairs

mutual
theorem expression (pairs : ExpressionPairs S E A f m s t V) : ∀ {e : Expression},
    (∀ a ∈ e.aliases, A a) → Coupled S E V (s.expression m e) (t.expression m (e.rename f))
  | .parameter binding expected, _ => by
    rw [Expression.rename, expression_eq, expression_eq]
    exact (pairs.parameter binding expected).bind .pure
  | .entityType name, _ => by
    rw [Expression.rename, expression_eq, expression_eq]
    exact (pairs.entityType name).bind .pure
  | .unary _ _, he => by
    rw [Expression.aliases] at he
    rw [Expression.rename, expression_eq, expression_eq]
    exact (expression pairs he).bind fun hv => .pure (pairs.unary hv)
  | .path _, he => by
    simp only [Expression.aliases, List.forall_mem_singleton] at he
    rw [Expression.rename, expression_eq, expression_eq]
    exact pairs.path he
  | .element _, he => by
    simp only [Expression.aliases, List.forall_mem_singleton] at he
    rw [Expression.rename, expression_eq, expression_eq]
    exact pairs.element he
  | .function .., he => by
    rw [Expression.aliases] at he
    rw [Expression.rename, expression_eq, expression_eq]
    exact (expressions pairs he).bind fun hvs => .pure (pairs.function hvs)
  | .literal value, _ => by
    rw [Expression.rename, expression_eq, expression_eq]
    exact .pure (pairs.literal value)
  | .concatenation .., he => by
    simp only [Expression.aliases, List.forall_mem_append] at he
    rw [Expression.rename, expression_eq, expression_eq]
    exact (expression pairs he.1).bind fun hl => (expression pairs he.2).bind fun hr =>
      .pure (pairs.concatenation hl hr)
  | .enumConstant constant storage, _ => by
    rw [Expression.rename, expression_eq, expression_eq]
    exact .pure (pairs.enumConstant constant storage)
  | .fieldConstant _ _ value, _ => by
    rw [Expression.rename, expression_eq, expression_eq]
    exact .pure (pairs.literal value)
  | .arithmetic .., he => by
    simp only [Expression.aliases, List.forall_mem_append] at he
    rw [Expression.rename, expression_eq, expression_eq]
    exact (expression pairs he.1).bind fun hl => (expression pairs he.2).bind fun hr =>
      .pure (pairs.arithmetic hl hr)
theorem expressions (pairs : ExpressionPairs S E A f m s t V) : ∀ {es : List Expression},
    (∀ a ∈ Expression.aliasesOfAll es, A a) → Coupled S E (List.Forall₂ V) (s.expressions m es)
      (t.expressions m (Expression.renameAll f es))
  | [], _ => .pure .nil
  | _ :: _, hes => by
    simp only [Expression.aliasesOfAll, List.forall_mem_append] at hes
    rw [Expression.renameAll, expressions_cons, expressions_cons]
    exact (expression pairs hes.1).bind fun hv => (expressions pairs hes.2).bind fun hvs =>
      .pure (.cons hv hvs)
end

theorem sortKeys (pairs : ExpressionPairs S E A f m s t V) (ks : List SortKey)
    (hks : ∀ a ∈ ks.flatMap (·.expression.aliases), A a) :
    Coupled S E (List.Forall₂ fun k l => V k.expression l.expression ∧ k.order = l.order)
      (s.sortKeys m ks) (t.sortKeys m (ks.map (·.rename f))) := by
  rw [sortKeys_eq, sortKeys_eq]
  refine .mapM fun k hk => ?_
  have hkey : ∀ a ∈ k.expression.aliases, A a :=
    fun a ha => hks a (List.mem_flatMap.2 ⟨k, hk, ha⟩)
  rw [sortKey_eq, sortKey_eq]
  exact (expression pairs hkey).bind fun hv => .pure ⟨hv, rfl⟩

/-- The target of an assignment may be of several columns. -/
theorem assignments (pairs : ExpressionPairs S E A f m s t V) (as : List Assignment)
    (has : ∀ x ∈ as.flatMap fun a => a.target.start :: a.value.aliases, A x) :
    Coupled S E (List.Forall₂ fun x y =>
        (∃ v w, V v w ∧ x.columns = v.parts ∧ y.columns = w.parts) ∧ V x.value y.value)
      (as.mapM (s.assignment m)) ((as.map (·.rename f)).mapM (t.assignment m)) := by
  refine .mapM fun a ha => ?_
  obtain ⟨htarget, hvalue⟩ := List.forall_mem_cons.1 fun x hx =>
    has x (List.mem_flatMap.2 ⟨a, ha, hx⟩)
  rw [assignment_eq, assignment_eq]
  exact (pairs.path htarget).bind fun ht => (expression pairs hvalue).bind fun hv =>
    .pure ⟨⟨_, _, ht, rfl, rfl⟩, hv⟩

/-! Under the same aliases nothing is renamed. -/

theorem expression_id (pairs : ExpressionPairs S E (fun _ => True) id m s t V) (e : Expression) :
    Coupled S E V (s.expression m e) (t.expression m e) := by
  simpa only [Expression.rename_id] using pairs.expression (e := e) fun _ _ => trivial

theorem sortKeys_id (pairs : ExpressionPairs S E (fun _ => True) id m s t V) (ks : List SortKey) :
    Coupled S E (List.Forall₂ fun k l => V k.expression l.expression ∧ k.order = l.order)
      (s.sortKeys m ks) (t.sortKeys m ks) := by
  simpa only [SortKey.rename_id, List.map_id'] using pairs.sortKeys ks fun _ _ => trivial

theorem assignments_id (pairs : ExpressionPairs S E (fun _ => True) id m s t V)
    (as : List Assignment) :
    Coupled S E (List.Forall₂ fun x y =>
        (∃ v w, V v w ∧ x.columns = v.parts ∧ y.columns = w.parts) ∧ V x.value y.value)
      (as.mapM (s.assignment m)) (as.mapM (t.assignment m)) := by
  simpa only [Assignment.rename_id, List.map_id'] using pairs.assignments as fun _ _ => trivial

end ExpressionPairs

/-! ## Predicates -/

/-- Two scopes in which predicates are lowered to related ones. Their subqueries are related by
`Q`. -/
structure PredicatePairs (S : Supply → Supply → Prop) (E : LoweringError → LoweringError → Prop)
    (A : String → Prop) (f : String → String) (m : Metamodel) (s t : Scope)
    (V : Sql.Expression → Sql.Expression → Prop) (Q : Sql.Query → Sql.Query → Prop)
    (W : Sql.Predicate → Sql.Predicate → Prop) : Prop
    extends ExpressionPairs S E A f m s t V where
  subquery : ∀ {collection selected}, A collection.start → Coupled S E Q
    (s.subquery m collection selected) (t.subquery m (collection.rename f) selected)
  grouped : ∀ {p q}, W p q → W (.grouped p) (.grouped q)
  junction : ∀ {kind p p' q q'}, W p q → W p' q' →
    W (.junction kind [p, p']) (.junction kind [q, q'])
  negated : ∀ {p q}, W p q → W (.negated p) (.negated q)
  comparison : ∀ {operator v v' w w'}, V v w → V v' w' →
    W (.comparison v operator v') (.comparison w operator w')
  nullness : ∀ {isNegated v w}, V v w → W (.nullness v isNegated) (.nullness w isNegated)
  nonempty : ∀ {isNegated q r}, Q q r → W (.nonempty q isNegated) (.nonempty r isNegated)
  between : ∀ {isNegated u u' v v' w w'}, V u u' → V v v' → V w w' →
    W (.between u v w isNegated) (.between u' v' w' isNegated)
  like : ∀ {isNegated u u' v v' w w'}, V u u' → V v v' → Option.Rel V w w' →
    W (.like u v w isNegated) (.like u' v' w' isNegated)
  among : ∀ {isNegated v w q r}, V v w → Q q r → W (.among v q isNegated) (.among w r isNegated)

variable {Q : Sql.Query → Sql.Query → Prop} {W : Sql.Predicate → Sql.Predicate → Prop}

namespace PredicatePairs

theorem predicate (pairs : PredicatePairs S E A f m s t V Q W) : ∀ {p : Predicate},
    (∀ a ∈ p.aliases, A a) → Coupled S E W (s.predicate m p) (t.predicate m (p.rename f))
  | .grouped _, hp => by
    rw [Predicate.aliases] at hp
    rw [Predicate.rename, predicate_eq, predicate_eq]
    exact (predicate pairs hp).bind fun h => .pure (pairs.grouped h)
  | .and _ _, hp => by
    simp only [Predicate.aliases, List.forall_mem_append] at hp
    rw [Predicate.rename, predicate_eq, predicate_eq]
    exact (predicate pairs hp.1).bind fun hl => (predicate pairs hp.2).bind fun hr =>
      .pure (pairs.junction hl hr)
  | .or _ _, hp => by
    simp only [Predicate.aliases, List.forall_mem_append] at hp
    rw [Predicate.rename, predicate_eq, predicate_eq]
    exact (predicate pairs hp.1).bind fun hl => (predicate pairs hp.2).bind fun hr =>
      .pure (pairs.junction hl hr)
  | .negated _, hp => by
    rw [Predicate.aliases] at hp
    rw [Predicate.rename, predicate_eq, predicate_eq]
    exact (predicate pairs hp).bind fun h => .pure (pairs.negated h)
  | .relational .., hp => by
    simp only [Predicate.aliases, List.forall_mem_append] at hp
    rw [Predicate.rename, predicate_eq, predicate_eq]
    exact (pairs.expression hp.1).bind fun hl => (pairs.expression hp.2).bind fun hr =>
      .pure (pairs.comparison hl hr)
  | .isNull .., hp => by
    rw [Predicate.aliases] at hp
    rw [Predicate.rename, predicate_eq, predicate_eq]
    exact (pairs.expression hp).bind fun h => .pure (pairs.nullness h)
  | .isEmpty .., hp => by
    simp only [Predicate.aliases, List.forall_mem_singleton] at hp
    rw [Predicate.rename, predicate_eq, predicate_eq]
    exact (pairs.subquery hp).bind fun h => .pure (pairs.nonempty h)
  | .between .., hp => by
    simp only [Predicate.aliases, List.forall_mem_append] at hp
    rw [Predicate.rename, predicate_eq, predicate_eq]
    exact (pairs.expression hp.1.1).bind fun hs => (pairs.expression hp.1.2).bind fun hl =>
      (pairs.expression hp.2).bind fun hu => .pure (pairs.between hs hl hu)
  | .like _ _ none _, hp => by
    simp only [Predicate.aliases, List.forall_mem_append] at hp
    rw [Predicate.rename, predicate_eq, predicate_eq]
    exact (pairs.expression hp.1.1).bind fun hs => (pairs.expression hp.1.2).bind fun ht =>
      .pure (pairs.like hs ht .none)
  | .like _ _ (some _) _, hp => by
    simp only [Predicate.aliases, List.forall_mem_append, Option.elim_some] at hp
    rw [Predicate.rename, predicate_eq, predicate_eq]
    refine (pairs.expression hp.1.1).bind fun hs => (pairs.expression hp.1.2).bind fun ht => ?_
    exact ((pairs.expression hp.2).map .some).bind fun he => .pure (pairs.like hs ht he)
  | .memberOf .., hp => by
    simp only [Predicate.aliases, List.forall_mem_append, List.forall_mem_singleton] at hp
    rw [Predicate.rename, predicate_eq, predicate_eq]
    exact (pairs.expression hp.1).bind fun hv => (pairs.subquery hp.2).bind fun hq =>
      .pure (pairs.among hv hq)

theorem condition (pairs : PredicatePairs S E A f m s t V Q W) {p : Option Predicate}
    (hp : ∀ a ∈ p.elim [] (·.aliases), A a) : Coupled S E (Option.Rel W) (s.condition m p)
      (t.condition m (p.map (·.rename f))) := by
  cases p with
  | none => exact .pure .none
  | some p => exact (pairs.predicate hp).bind fun h => .pure (.some h)

theorem predicate_id (pairs : PredicatePairs S E (fun _ => True) id m s t V Q W) (p : Predicate) :
    Coupled S E W (s.predicate m p) (t.predicate m p) := by
  simpa only [Predicate.rename_id] using pairs.predicate (p := p) fun _ _ => trivial

theorem condition_id (pairs : PredicatePairs S E (fun _ => True) id m s t V Q W)
    (p : Option Predicate) : Coupled S E (Option.Rel W) (s.condition m p) (t.condition m p) := by
  simpa only [Predicate.rename_id, Option.map_id'] using pairs.condition (p := p) fun _ _ => trivial

end PredicatePairs

/-! ## Items of select lists -/

/-- A relation between lists of items that holds as the values of their expressions are related. -/
structure ItemPairs (V : Sql.Expression → Sql.Expression → Prop)
    (I : List Sql.SelectItem → List Sql.SelectItem → Prop) : Prop where
  nil : I [] []
  expression : ∀ {name v w vs ws}, V v w → I vs ws →
    I (⟨.expression v, name⟩ :: vs) (⟨.expression w, name⟩ :: ws)
  instantiation : ∀ {target name as bs vs ws}, I as bs → I vs ws →
    I (⟨.instantiation target as, name⟩ :: vs) (⟨.instantiation target bs, name⟩ :: ws)

theorem ItemPairs.items {I : List Sql.SelectItem → List Sql.SelectItem → Prop}
    (related : ItemPairs V I) (pairs : ExpressionPairs S E A f m s t V) : ∀ es : List SelectItem,
    (∀ a ∈ (SelectionOf.itemValues es).flatMap (·.aliases), A a) →
    Coupled S E I (s.items m es) (t.items m (SelectionOf.mapItems (·.rename f) es))
  | [], _ => .pure related.nil
  | ⟨.expression _, _⟩ :: _, hes => by
    simp only [SelectionOf.itemValues, SelectionOf.values, List.flatMap_append,
      List.forall_mem_append, List.flatMap_cons, List.flatMap_nil, List.append_nil] at hes
    rw [SelectionOf.mapItems, SelectionOf.map, items_expression, items_expression]
    exact (pairs.expression hes.1).bind fun hv => (items related pairs _ hes.2).bind fun hvs =>
      .pure (related.expression hv hvs)
  | ⟨.instantiation .., _⟩ :: _, hes => by
    simp only [SelectionOf.itemValues, SelectionOf.values, List.flatMap_append,
      List.forall_mem_append] at hes
    rw [SelectionOf.mapItems, SelectionOf.map, items_instantiation, items_instantiation]
    exact (items related pairs _ hes.1).bind fun has =>
      (items related pairs _ hes.2).bind fun hvs => .pure (related.instantiation has hvs)

theorem ItemPairs.items_id {I : List Sql.SelectItem → List Sql.SelectItem → Prop}
    (related : ItemPairs V I) (pairs : ExpressionPairs S E (fun _ => True) id m s t V)
    (es : List SelectItem) : Coupled S E I (s.items m es) (t.items m es) := by
  simpa only [SelectionOf.mapItems_rename_id] using
    related.items pairs es fun _ _ => trivial

end Scope

end EntityQuery
