import EntityQuery.Proofs.Pass

/-!
# Clauses, form by form

What holds of every clause that is lowered, together with what it is lowered to and the supplies
before and behind it, is seen form by form: for an expression of each form from its parts
(`ExpressionCases`), likewise for a predicate (`PredicateCases`) and for the items of a select list
(`ItemCases`). The inductions are made here, once for all such properties.
-/

set_option autoImplicit false

namespace EntityQuery

namespace Scope

variable {s : Scope} {m : Metamodel}

/-! ## Expressions -/

/-- A property of an expression and its value, and one of lists of them, that hold for every form of
expression if they hold for its parts. -/
structure ExpressionCases (s : Scope) (m : Metamodel)
    (P : Expression → Supply → Sql.Expression → Supply → Prop)
    (Ps : List Expression → Supply → List Sql.Expression → Supply → Prop) : Prop where
  parameter : ∀ {binding expected supply p supply'},
    newParameter binding expected supply = .ok p supply' →
    P (.parameter binding expected) supply (.parameter p) supply'
  entityType : ∀ {name e supply}, m.entity name = .ok e →
    P (.entityType name) supply (.entityType e.name) supply
  unary : ∀ {operator operand v supply supply'}, P operand supply v supply' →
    P (.unary operator operand) supply (.unary operator v v.type) supply'
  path : ∀ {p v supply}, s.path m p = .ok v → P (.path p) supply v supply
  element : ∀ {name ref v supply}, s.index.resolve name = .ok ref →
    s.elementValue m ref = .ok v → P (.element name) supply v supply
  function : ∀ {name arguments result vs supply supply'}, Ps arguments supply vs supply' →
    P (.function name arguments result) supply
      (.function name vs (result <|> resultType name (vs.map (·.type)))) supply'
  literal : ∀ {value supply}, P (.literal value) supply (literalValue value) supply
  concatenation : ∀ {lhs rhs explicit v w s1 s2 s3}, P lhs s1 v s2 → P rhs s2 w s3 →
    P (.concatenation lhs rhs explicit) s1 (.concatenation v w (explicit <|> v.type)) s3
  enumConstant : ∀ {constant storage supply},
    P (.enumConstant constant storage) supply (enumValue constant storage) supply
  fieldConstant : ∀ {className fieldName value supply},
    P (.fieldConstant className fieldName value) supply (literalValue value) supply
  arithmetic : ∀ {lhs operator rhs explicit v w s1 s2 s3}, P lhs s1 v s2 → P rhs s2 w s3 →
    P (.arithmetic lhs operator rhs explicit) s1
      (.arithmetic v operator w (explicit <|> arithmeticType v.type w.type)) s3
  nil : ∀ {supply}, Ps [] supply [] supply
  cons : ∀ {e es v vs s1 s2 s3}, P e s1 v s2 → Ps es s2 vs s3 → Ps (e :: es) s1 (v :: vs) s3

namespace ExpressionCases

variable {P : Expression → Supply → Sql.Expression → Supply → Prop}
  {Ps : List Expression → Supply → List Sql.Expression → Supply → Prop}

mutual
theorem expression (each : s.ExpressionCases m P Ps) : ∀ {e : Expression} {v : Sql.Expression}
    {supply supply' : Supply}, s.expression m e supply = .ok v supply' → P e supply v supply'
  | .parameter .., _, _, _, h => by
    rw [expression_eq] at h
    simp only [expressionOfParts, EStateM.bind_eq_ok, EStateM.pure_eq_ok] at h
    obtain ⟨_, _, hp, rfl, rfl⟩ := h
    exact each.parameter hp
  | .entityType .., _, _, _, h => by
    rw [expression_eq] at h
    simp only [expressionOfParts, EStateM.bind_eq_ok, EStateM.pure_eq_ok] at h
    obtain ⟨_, _, he, rfl, rfl⟩ := h
    obtain ⟨hentity, rfl⟩ := settled_ok.1 he
    exact each.entityType (lookedUp_ok hentity)
  | .unary .., _, _, _, h => by
    rw [expression_eq] at h
    simp only [expressionOfParts, EStateM.bind_eq_ok, EStateM.pure_eq_ok] at h
    obtain ⟨_, _, he, rfl, rfl⟩ := h
    exact each.unary (expression each he)
  | .path .., _, _, _, h => by
    rw [expression_eq] at h
    obtain ⟨hv, rfl⟩ := settled_ok.1 h
    exact each.path hv
  | .element .., _, _, _, h => by
    rw [expression_eq] at h
    obtain ⟨hv, rfl⟩ := settled_ok.1 h
    obtain ⟨ref, href, hv⟩ := Except.bind_eq_ok.1 hv
    exact each.element href hv
  | .function .., _, _, _, h => by
    rw [expression_eq] at h
    simp only [expressionOfParts, EStateM.bind_eq_ok, EStateM.pure_eq_ok] at h
    obtain ⟨_, _, hes, rfl, rfl⟩ := h
    exact each.function (expressions each hes)
  | .literal .., _, _, _, h => by
    rw [expression_eq] at h
    obtain ⟨rfl, rfl⟩ := EStateM.pure_eq_ok.1 h
    exact each.literal
  | .concatenation .., _, _, _, h => by
    rw [expression_eq] at h
    simp only [expressionOfParts, EStateM.bind_eq_ok, EStateM.pure_eq_ok] at h
    obtain ⟨_, _, hl, _, _, hr, rfl, rfl⟩ := h
    exact each.concatenation (expression each hl) (expression each hr)
  | .enumConstant .., _, _, _, h => by
    rw [expression_eq] at h
    obtain ⟨rfl, rfl⟩ := EStateM.pure_eq_ok.1 h
    exact each.enumConstant
  | .fieldConstant .., _, _, _, h => by
    rw [expression_eq] at h
    obtain ⟨rfl, rfl⟩ := EStateM.pure_eq_ok.1 h
    exact each.fieldConstant
  | .arithmetic .., _, _, _, h => by
    rw [expression_eq] at h
    simp only [expressionOfParts, EStateM.bind_eq_ok, EStateM.pure_eq_ok] at h
    obtain ⟨_, _, hl, _, _, hr, rfl, rfl⟩ := h
    exact each.arithmetic (expression each hl) (expression each hr)
theorem expressions (each : s.ExpressionCases m P Ps) : ∀ {es : List Expression}
    {vs : List Sql.Expression} {supply supply' : Supply},
    s.expressions m es supply = .ok vs supply' → Ps es supply vs supply'
  | [], _, _, _, h => by
    obtain ⟨rfl, rfl⟩ := EStateM.pure_eq_ok.1 h
    exact each.nil
  | _ :: _, _, _, _, h => by
    simp only [expressions_cons, EStateM.bind_eq_ok, EStateM.pure_eq_ok] at h
    obtain ⟨_, _, he, _, _, hes, rfl, rfl⟩ := h
    exact each.cons (expression each he) (expressions each hes)
end

end ExpressionCases

/-! ## Predicates -/

/-- A property of a predicate and what it is lowered to, that holds for every form of predicate if
it holds for the predicates it is made of. -/
structure PredicateCases (s : Scope) (m : Metamodel)
    (P : Predicate → Supply → Sql.Predicate → Supply → Prop) : Prop where
  grouped : ∀ {p q s1 s2}, P p s1 q s2 → P (.grouped p) s1 (.grouped q) s2
  and : ∀ {p p' q q' s1 s2 s3}, P p s1 q s2 → P p' s2 q' s3 →
    P (.and p p') s1 (.junction .conjunction [q, q']) s3
  or : ∀ {p p' q q' s1 s2 s3}, P p s1 q s2 → P p' s2 q' s3 →
    P (.or p p') s1 (.junction .disjunction [q, q']) s3
  negated : ∀ {p q s1 s2}, P p s1 q s2 → P (.negated p) s1 (.negated q) s2
  relational : ∀ {lhs operator rhs v w s1 s2 s3}, s.expression m lhs s1 = .ok v s2 →
    s.expression m rhs s2 = .ok w s3 →
    P (.relational lhs operator rhs) s1 (.comparison v operator w) s3
  isNull : ∀ {subject isNegated v supply supply'}, s.expression m subject supply = .ok v supply' →
    P (.isNull subject isNegated) supply (.nullness v isNegated) supply'
  isEmpty : ∀ {collection isNegated q supply supply'},
    s.subquery m collection .key supply = .ok q supply' →
    P (.isEmpty collection isNegated) supply (.nonempty q (!isNegated)) supply'
  between : ∀ {subject lower upper isNegated u v w s1 s2 s3 s4},
    s.expression m subject s1 = .ok u s2 → s.expression m lower s2 = .ok v s3 →
    s.expression m upper s3 = .ok w s4 →
    P (.between subject lower upper isNegated) s1 (.between u v w isNegated) s4
  like : ∀ {subject pattern isNegated u v s1 s2 s3}, s.expression m subject s1 = .ok u s2 →
    s.expression m pattern s2 = .ok v s3 →
    P (.like subject pattern none isNegated) s1 (.like u v none isNegated) s3
  likeEscaping : ∀ {subject pattern escape isNegated u v w s1 s2 s3 s4},
    s.expression m subject s1 = .ok u s2 → s.expression m pattern s2 = .ok v s3 →
    s.expression m escape s3 = .ok w s4 →
    P (.like subject pattern (some escape) isNegated) s1 (.like u v (some w) isNegated) s4
  memberOf : ∀ {value collection isNegated v q s1 s2 s3}, s.expression m value s1 = .ok v s2 →
    s.subquery m collection .element s2 = .ok q s3 →
    P (.memberOf value collection isNegated) s1 (.among v q isNegated) s3

theorem PredicateCases.predicate {P : Predicate → Supply → Sql.Predicate → Supply → Prop}
    (each : s.PredicateCases m P) : ∀ {p : Predicate} {q : Sql.Predicate} {supply supply' : Supply},
    s.predicate m p supply = .ok q supply' → P p supply q supply'
  | .grouped _, _, _, _, h => by
    rw [predicate_eq] at h
    simp only [predicateOfParts, EStateM.bind_eq_ok, EStateM.pure_eq_ok] at h
    obtain ⟨_, _, hp, rfl, rfl⟩ := h
    exact each.grouped (predicate each hp)
  | .and _ _, _, _, _, h => by
    rw [predicate_eq] at h
    simp only [predicateOfParts, EStateM.bind_eq_ok, EStateM.pure_eq_ok] at h
    obtain ⟨_, _, hl, _, _, hr, rfl, rfl⟩ := h
    exact each.and (predicate each hl) (predicate each hr)
  | .or _ _, _, _, _, h => by
    rw [predicate_eq] at h
    simp only [predicateOfParts, EStateM.bind_eq_ok, EStateM.pure_eq_ok] at h
    obtain ⟨_, _, hl, _, _, hr, rfl, rfl⟩ := h
    exact each.or (predicate each hl) (predicate each hr)
  | .negated _, _, _, _, h => by
    rw [predicate_eq] at h
    simp only [predicateOfParts, EStateM.bind_eq_ok, EStateM.pure_eq_ok] at h
    obtain ⟨_, _, hp, rfl, rfl⟩ := h
    exact each.negated (predicate each hp)
  | .relational .., _, _, _, h => by
    rw [predicate_eq] at h
    simp only [predicateOfParts, EStateM.bind_eq_ok, EStateM.pure_eq_ok] at h
    obtain ⟨_, _, hl, _, _, hr, rfl, rfl⟩ := h
    exact each.relational hl hr
  | .isNull .., _, _, _, h => by
    rw [predicate_eq] at h
    simp only [predicateOfParts, EStateM.bind_eq_ok, EStateM.pure_eq_ok] at h
    obtain ⟨_, _, hv, rfl, rfl⟩ := h
    exact each.isNull hv
  | .isEmpty .., _, _, _, h => by
    rw [predicate_eq] at h
    simp only [predicateOfParts, EStateM.bind_eq_ok, EStateM.pure_eq_ok] at h
    obtain ⟨_, _, hq, rfl, rfl⟩ := h
    exact each.isEmpty hq
  | .between .., _, _, _, h => by
    rw [predicate_eq] at h
    simp only [predicateOfParts, EStateM.bind_eq_ok, EStateM.pure_eq_ok] at h
    obtain ⟨_, _, hs, _, _, hl, _, _, hu, rfl, rfl⟩ := h
    exact each.between hs hl hu
  | .like _ _ none _, _, _, _, h => by
    rw [predicate_eq] at h
    simp only [predicateOfParts, EStateM.bind_eq_ok, EStateM.pure_eq_ok] at h
    obtain ⟨_, _, hs, _, _, hp, _, _, ⟨rfl, rfl⟩, rfl, rfl⟩ := h
    exact each.like hs hp
  | .like _ _ (some _) _, _, _, _, h => by
    rw [predicate_eq] at h
    simp only [predicateOfParts, EStateM.bind_eq_ok, EStateM.pure_eq_ok, EStateM.map_eq_ok] at h
    obtain ⟨_, _, hs, _, _, hp, _, _, ⟨_, he, rfl⟩, rfl, rfl⟩ := h
    exact each.likeEscaping hs hp he
  | .memberOf .., _, _, _, h => by
    rw [predicate_eq] at h
    simp only [predicateOfParts, EStateM.bind_eq_ok, EStateM.pure_eq_ok] at h
    obtain ⟨_, _, hv, _, _, hq, rfl, rfl⟩ := h
    exact each.memberOf hv hq

/-- A predicate that may be missing is missing on both sides, or is lowered. -/
theorem condition_ok {p : Option Predicate} {q : Option Sql.Predicate} {supply supply' : Supply}
    (h : s.condition m p supply = .ok q supply') : (p = none ∧ q = none ∧ supply = supply') ∨
      ∃ p' q', p = some p' ∧ q = some q' ∧ s.predicate m p' supply = .ok q' supply' := by
  cases p with
  | none =>
    obtain ⟨rfl, rfl⟩ := EStateM.pure_eq_ok.1 h
    exact .inl ⟨rfl, rfl, rfl⟩
  | some p =>
    simp only [condition, EStateM.bind_eq_ok, EStateM.pure_eq_ok] at h
    obtain ⟨q, _, hp, rfl, rfl⟩ := h
    exact .inr ⟨p, q, rfl, rfl, hp⟩

/-! ## Selections and order -/

/-- A property of the items of a select list and what they are lowered to, that holds for every list
if it holds for its rest and, where an instantiation comes first, for the arguments. -/
structure ItemCases (s : Scope) (m : Metamodel)
    (P : List SelectItem → Supply → List Sql.SelectItem → Supply → Prop) : Prop where
  nil : ∀ {supply}, P [] supply [] supply
  expression : ∀ {value name rest v vs s1 s2 s3}, s.expression m value s1 = .ok v s2 →
    P rest s2 vs s3 → P (⟨.expression value, name⟩ :: rest) s1 (⟨.expression v, name⟩ :: vs) s3
  instantiation : ∀ {target arguments name rest ws vs s1 s2 s3}, P arguments s1 ws s2 →
    P rest s2 vs s3 → P (⟨.instantiation target arguments, name⟩ :: rest) s1
      (⟨.instantiation target ws, name⟩ :: vs) s3

theorem ItemCases.items {P : List SelectItem → Supply → List Sql.SelectItem → Supply → Prop}
    (each : s.ItemCases m P) : ∀ {es : List SelectItem} {vs : List Sql.SelectItem}
    {supply supply' : Supply}, s.items m es supply = .ok vs supply' → P es supply vs supply'
  | [], _, _, _, h => by
    obtain ⟨rfl, rfl⟩ := EStateM.pure_eq_ok.1 h
    exact each.nil
  | ⟨.expression _, _⟩ :: _, _, _, _, h => by
    simp only [items_expression, EStateM.bind_eq_ok, EStateM.pure_eq_ok] at h
    obtain ⟨_, _, he, _, _, hes, rfl, rfl⟩ := h
    exact each.expression he (items each hes)
  | ⟨.instantiation .., _⟩ :: _, _, _, _, h => by
    simp only [items_instantiation, EStateM.bind_eq_ok, EStateM.pure_eq_ok] at h
    obtain ⟨_, _, ha, _, _, hes, rfl, rfl⟩ := h
    exact each.instantiation (items each ha) (items each hes)

/-- Without a select clause the from-element that opens the first space is selected. -/
theorem selected_none {r : Bool × List Sql.SelectItem} {supply supply' : Supply}
    (h : s.selected m none supply = .ok r supply') :
    ∃ ref v, s.elementValue m ref = .ok v ∧ r = (false, [⟨.expression v, none⟩]) ∧
      supply = supply' := by
  simp only [selected, EStateM.bind_eq_ok, EStateM.pure_eq_ok] at h
  obtain ⟨item, _, hitem, rfl, rfl⟩ := h
  obtain ⟨hdefault, rfl⟩ := settled_ok.1 hitem
  unfold defaultSelection at hdefault
  split at hdefault
  · rename_i ref _
    simp only [Except.bind_eq_ok, Except.pure_eq_ok] at hdefault
    obtain ⟨v, hv, rfl⟩ := hdefault
    exact ⟨ref, v, hv, rfl, rfl⟩
  · cases hdefault

theorem selected_some {c : SelectClause} {r : Bool × List Sql.SelectItem} {supply supply' : Supply}
    (h : s.selected m (some c) supply = .ok r supply') :
    r.1 = c.distinct ∧ s.items m c.items supply = .ok r.2 supply' := by
  simp only [selected, EStateM.bind_eq_ok, EStateM.pure_eq_ok] at h
  obtain ⟨items, _, hitems, rfl, rfl⟩ := h
  exact ⟨rfl, hitems⟩

/-- A missing order clause is one without keys. -/
theorem ordered_eq (ks : Option (List SortKey)) :
    s.ordered m ks = (ks.getD []).mapM (s.sortKey m) := by
  cases ks with
  | none => rfl
  | some ks => exact sortKeys_eq ks

theorem sortKey_ok {k : SortKey} {v : Sql.SortKey} {supply supply' : Supply}
    (h : s.sortKey m k supply = .ok v supply') :
    s.expression m k.expression supply = .ok v.expression supply' ∧ v.order = k.order := by
  simp only [sortKey_eq, EStateM.bind_eq_ok, EStateM.pure_eq_ok] at h
  obtain ⟨_, _, he, rfl, rfl⟩ := h
  exact ⟨he, rfl⟩

theorem assignment_ok {a : Assignment} {v : Sql.Assignment} {supply supply' : Supply}
    (h : s.assignment m a supply = .ok v supply') :
    ∃ target, s.path m a.target = .ok target ∧ v.columns = target.parts ∧
      s.expression m a.value supply = .ok v.value supply' := by
  simp only [assignment_eq, EStateM.bind_eq_ok, EStateM.pure_eq_ok] at h
  obtain ⟨target, _, ht, value, _, hv, rfl, rfl⟩ := h
  obtain ⟨htarget, rfl⟩ := settled_ok.1 ht
  exact ⟨target, htarget, rfl, hv⟩

end Scope

end EntityQuery
