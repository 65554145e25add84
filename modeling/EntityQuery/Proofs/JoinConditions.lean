import EntityQuery.Proofs.Correspondence
import EntityQuery.Proofs.Parameters

/-!
# Conditions of joins stay where they are

The condition of a join adds to the predicate of that join and changes nothing else of a from
clause. So two queries whose from clauses differ in conditions of joins only have the same index and
the same groups, their joins without conditions have the same predicates, and what one of them reads
at a path or a from-element, the other one reads too (`join_conditions_local`).

Every path and every from-element that is written in a clause becomes a value made of columns at the
same place of the lowered clause (`Scope.Reads`).
-/

set_option autoImplicit false

namespace EntityQuery

/-! ## From clauses without conditions -/

def Join.bare (j : Join) : Join := { j with condition := none }

def Space.bare (s : Space) : Space := { s with joins := s.joins.map (·.bare) }

/-- A from clause without the conditions of its joins. -/
def FromClause.bare (f : FromClause) : FromClause := ⟨f.spaces.map (·.bare)⟩

/-- The condition of the join at a place of a from clause. -/
def FromClause.conditionAt? (f : FromClause) (l : GroupLocator) : Option Predicate :=
  match l.position with
  | .root => none
  | .join index => do (← (← f.spaces[l.space]?).joins[index]?).condition

namespace Sql

variable {π : Type}

def GroupJoinOf.bare (j : GroupJoinOf π) : GroupJoinOf π := { j with predicate := none }

def TableSpaceOf.bare (s : TableSpaceOf π) : TableSpaceOf π := { s with joins := s.joins.map (·.bare) }

/-- A lowered from clause without the predicates of its joins. -/
def FromClauseOf.bare (f : FromClauseOf π) : FromClauseOf π := ⟨f.spaces.map (·.bare)⟩

end Sql

/-- What is joined is the same if it is once conditions are left out. -/
theorem Join.alike_of_bare {j k : Join} (h : j.bare = k.bare) : j.Alike Eq k := by
  simp only [Join.bare, Join.mk.injEq] at h
  obtain ⟨-, hjoinType, hsource, hfetch, -⟩ := h
  refine ⟨hjoinType, ?_, hfetch⟩
  rw [hsource]
  cases k.source with
  | entity name => exact .entity name
  | attributeOf start dotted => exact .attributeOf rfl dotted

theorem forall₂_of_map_eq {α β : Type} {f : α → β} {xs ys : List α} (h : xs.map f = ys.map f) :
    List.Forall₂ (fun x y => f x = f y) xs ys := by
  rw [← List.forall₂_eq_eq_eq, List.forall₂_map_left_iff, List.forall₂_map_right_iff] at h
  exact h

theorem Space.alike_of_bare {s t : Space} (h : s.bare = t.bare) : s.Alike Eq t := by
  simp only [Space.bare, Space.mk.injEq] at h
  obtain ⟨hroot, hjoins⟩ := h
  exact ⟨by rw [hroot], (forall₂_of_map_eq hjoins).imp fun _ _ => Join.alike_of_bare⟩

theorem Space.elements_bare (s : Space) : s.bare.elements = s.elements := by
  simp [Space.elements, Space.bare, Join.bare, Function.comp_def]

/-- The conditions that are left for later are those at the places of the from clause. -/
theorem mem_pendingOf_iff_conditionAt? {f : FromClause} {p : PendingCondition} :
    p ∈ pendingOf f.spaces ↔ f.conditionAt? p.place = some p.condition := by
  rw [mem_pendingOf]
  simp only [FromClause.conditionAt?, PendingCondition.place, Option.bind_eq_bind,
    Option.bind_eq_some_iff, exists_and_left]

theorem map_modify_eq {α β : Type} {f : α → α} {g : α → β} (h : ∀ x, g (f x) = g x) (xs : List α)
    (k : Nat) : (xs.modify k f).map g = xs.map g := by
  apply List.ext_getElem?
  intro i
  simp only [List.getElem?_map, List.getElem?_modify]
  split
  · cases xs[i]? <;> simp [h]
  · simp

theorem bare_tied (space position : Nat) (condition : Sql.Predicate)
    (spaces : List Sql.TableSpace) :
    (Step.tied space position condition spaces).map (·.bare) = spaces.map (·.bare) := by
  refine map_modify_eq (fun s => ?_) spaces space
  have hjoins := map_modify_eq (f := fun j : Sql.GroupJoin =>
      { j with predicate := Sql.Predicate.conjunction (j.predicate.toList ++ [condition]) })
    (g := (·.bare)) (fun _ => rfl) s.joins position
  simp only [Sql.TableSpaceOf.bare, hjoins]

theorem Step.pendingConditions_bare {m : Metamodel} {pass pass' : Pass} {u : Unit}
    {pending : List PendingCondition}
    (h : pending.forM (pendingCondition m) pass = .ok u pass') :
    pass'.scope.spaces.map (·.bare) = pass.scope.spaces.map (·.bare) := by
  refine EStateM.forM_inv
    (fun _ p => p.scope.spaces.map (·.bare) = pass.scope.spaces.map (·.bare))
    (fun hi hp => ?_) rfl h
  obtain ⟨condition, _, _, -, -, rfl⟩ := pendingCondition_ok hp
  rw [bare_tied, hi]

/-! ## What clauses read -/

/-- What a clause can read: the attribute that a path reaches, or a from-element itself. -/
inductive Reference
  | path (path : AttributePath)
  | element (aliasName : String)
deriving DecidableEq

namespace Expression

mutual
/-- The paths and from-elements that an expression reads, from left to right. -/
def references : Expression → List Reference
  | .parameter .. => []
  | .entityType _ => []
  | .unary _ operand => operand.references
  | .path p => [.path p]
  | .element name => [.element name]
  | .function _ arguments _ => referencesOfAll arguments
  | .literal _ => []
  | .concatenation lhs rhs _ => lhs.references ++ rhs.references
  | .enumConstant .. => []
  | .fieldConstant .. => []
  | .arithmetic lhs _ rhs _ => lhs.references ++ rhs.references
def referencesOfAll : List Expression → List Reference
  | [] => []
  | e :: es => e.references ++ referencesOfAll es
end

end Expression

/-- The paths and from-elements whose values a predicate reads. A tested collection has no value. -/
def Predicate.references : Predicate → List Reference
  | .grouped inner => inner.references
  | .and left right => left.references ++ right.references
  | .or left right => left.references ++ right.references
  | .negated inner => inner.references
  | .relational lhs _ rhs => lhs.references ++ rhs.references
  | .isNull subject _ => subject.references
  | .isEmpty .. => []
  | .between subject lower upper _ => subject.references ++ lower.references ++ upper.references
  | .like subject pattern escape _ =>
    subject.references ++ pattern.references ++ escape.elim [] (·.references)
  | .memberOf value _ _ => value.references

namespace Sql

namespace Expression

mutual
/-- The values made of columns in an expression, from left to right. -/
def columnValues : Expression → List Expression
  | .column reference => [.column reference]
  | .tuple parts type => [.tuple parts type]
  | .literal _ => []
  | .parameter _ => []
  | .entityType _ => []
  | .unary _ operand _ => operand.columnValues
  | .arithmetic lhs _ rhs _ => lhs.columnValues ++ rhs.columnValues
  | .concatenation lhs rhs _ => lhs.columnValues ++ rhs.columnValues
  | .function _ arguments _ => columnValuesOfAll arguments
def columnValuesOfAll : List Expression → List Expression
  | [] => []
  | e :: es => e.columnValues ++ columnValuesOfAll es
end

theorem columnValues_ofColumns (type : Option DomainType) : ∀ columns : List ColumnReference,
    (ofColumns columns type).columnValues = [ofColumns columns type]
  | [] | [_] | _ :: _ :: _ => by simp [ofColumns, columnValues]

end Expression

namespace Predicate

mutual
/-- The values made of columns in a predicate, those in subqueries left out. -/
def columnValues : Predicate → List Expression
  | .junction _ ps => columnValuesOfAll ps
  | .grouped inner => inner.columnValues
  | .negated inner => inner.columnValues
  | .comparison lhs _ rhs => lhs.columnValues ++ rhs.columnValues
  | .between subject lower upper _ =>
    subject.columnValues ++ lower.columnValues ++ upper.columnValues
  | .like subject pattern escape _ =>
    subject.columnValues ++ pattern.columnValues ++ escape.elim [] (·.columnValues)
  | .nullness subject _ => subject.columnValues
  | .nonempty .. => []
  | .among subject _ _ => subject.columnValues
def columnValuesOfAll : List Predicate → List Expression
  | [] => []
  | p :: ps => p.columnValues ++ columnValuesOfAll ps
end

end Predicate

end Sql

namespace Scope

/-- The value at a path or from-element. -/
def value (s : Scope) (m : Metamodel) : Reference → Except LoweringError Sql.Expression
  | .path p => s.path m p
  | .element name => do s.elementValue m (← s.index.resolve name)

/-- References are read as the given values, one each and in order. -/
def ReadsAs (s : Scope) (m : Metamodel) (references : List Reference)
    (values : List Sql.Expression) : Prop :=
  List.Forall₂ (fun r v => s.value m r = .ok v) references values

/-- A lowered query reads what the query reads at the same places, the conditions of its joins
behind what else ties them. -/
structure Reads (s : Scope) (m : Metamodel) (q : Query) (out : Sql.Query) : Prop where
  selections : ∀ c, q.select = some c →
    s.ReadsAs m ((SelectionOf.itemValues c.items).flatMap (·.references))
      ((SelectionOf.itemValues out.selections).flatMap (·.columnValues))
  condition : s.ReadsAs m (q.condition.toList.flatMap (·.references))
    (out.predicate.toList.flatMap (·.columnValues))
  order : s.ReadsAs m ((q.order.getD []).flatMap (·.expression.references))
    (out.order.flatMap (·.expression.columnValues))
  joins : ∀ l c, q.fromClause.conditionAt? l = some c →
    ∃ tie c', tieAt? out.fromClause.spaces l = Sql.Predicate.conjunction (tie ++ [c']) ∧
      s.ReadsAs m c.references c'.columnValues

variable {s t : Scope} {m : Metamodel}

theorem ReadsAs.append {rs rs' : List Reference} {vs vs' : List Sql.Expression}
    (h : s.ReadsAs m rs vs) (h' : s.ReadsAs m rs' vs') : s.ReadsAs m (rs ++ rs') (vs ++ vs') :=
  List.rel_append h h'

theorem value_congr (hi : s.index = t.index) (hg : groupAt? s.spaces = groupAt? t.spaces) :
    s.value m = t.value m := by
  funext r
  cases r with
  | path p => rw [value, value, path_congr hi hg]
  | element name => rw [value, value, elementValue_congr hg, hi]

/-- A value is made of columns. -/
theorem columnValues_value {r : Reference} {v : Sql.Expression} (h : s.value m r = .ok v) :
    v.columnValues = [v] := by
  have hcolumns : ∃ g position ids type, m.columnsAt g position ids type = .ok v := by
    cases r with
    | path p =>
      obtain ⟨x, -, hv⟩ := Except.bind_eq_ok.1 h
      obtain ⟨g, ids, type, -, -, hv⟩ := pathValue_ok hv
      exact ⟨g, _, _, _, hv⟩
    | element name =>
      obtain ⟨ref, -, hv⟩ := Except.bind_eq_ok.1 h
      obtain ⟨g, position, ids, type, -, hv⟩ := elementValue_columns hv
      exact ⟨g, position, ids, type, hv⟩
  obtain ⟨g, position, ids, type, hv⟩ := hcolumns
  obtain ⟨_, _, -, -, rfl⟩ := Metamodel.columnsAt_eq_ok.1 hv
  exact Sql.Expression.columnValues_ofColumns _ _

theorem readsAs_value {r : Reference} {v : Sql.Expression} (h : s.value m r = .ok v) :
    s.ReadsAs m [r] v.columnValues := by
  rw [columnValues_value h]
  exact .cons h .nil

theorem expressions_read : s.ExpressionCases m
    (fun e _ v _ => s.ReadsAs m e.references v.columnValues)
    (fun es _ vs _ => s.ReadsAs m (Expression.referencesOfAll es)
      (Sql.Expression.columnValuesOfAll vs)) where
  parameter _ := .nil
  entityType _ := .nil
  unary ih := ih
  path hv := readsAs_value (r := .path _) hv
  element href hv := readsAs_value (r := .element _) (Except.bind_eq_ok.2 ⟨_, href, hv⟩)
  function ih := ih
  literal := .nil
  concatenation ihl ihr := ihl.append ihr
  enumConstant := .nil
  fieldConstant := .nil
  arithmetic ihl ihr := ihl.append ihr
  nil := .nil
  cons ih ihs := ih.append ihs

theorem expression_reads {e : Expression} {supply supply' : Supply} {v : Sql.Expression}
    (h : s.expression m e supply = .ok v supply') : s.ReadsAs m e.references v.columnValues :=
  expressions_read.expression h

theorem predicates_read : s.PredicateCases m fun p _ q _ =>
    s.ReadsAs m p.references q.columnValues where
  grouped ih := ih
  and ihl ihr := by
    simpa [Predicate.references, Sql.Predicate.columnValues, Sql.Predicate.columnValuesOfAll] using
      ihl.append ihr
  or ihl ihr := by
    simpa [Predicate.references, Sql.Predicate.columnValues, Sql.Predicate.columnValuesOfAll] using
      ihl.append ihr
  negated ih := ih
  relational hl hr := (expression_reads hl).append (expression_reads hr)
  isNull hv := expression_reads hv
  isEmpty _ := .nil
  between hs hl hu :=
    ((expression_reads hs).append (expression_reads hl)).append (expression_reads hu)
  like hs hp := by
    simpa [Predicate.references, Sql.Predicate.columnValues] using
      (expression_reads hs).append (expression_reads hp)
  likeEscaping hs hp he :=
    ((expression_reads hs).append (expression_reads hp)).append (expression_reads he)
  memberOf hv _ := expression_reads hv

theorem predicate_reads {p : Predicate} {supply supply' : Supply} {q : Sql.Predicate}
    (h : s.predicate m p supply = .ok q supply') : s.ReadsAs m p.references q.columnValues :=
  predicates_read.predicate h

theorem condition_reads {p : Option Predicate} {q : Option Sql.Predicate} {supply supply' : Supply}
    (h : s.condition m p supply = .ok q supply') :
    s.ReadsAs m (p.toList.flatMap (·.references)) (q.toList.flatMap (·.columnValues)) := by
  obtain ⟨rfl, rfl, -⟩ | ⟨p, q, rfl, rfl, hp⟩ := condition_ok h
  · exact .nil
  · simpa using predicate_reads hp

theorem items_read : s.ItemCases m fun es _ vs _ =>
    s.ReadsAs m ((SelectionOf.itemValues es).flatMap (·.references))
      ((SelectionOf.itemValues vs).flatMap (·.columnValues)) where
  nil := .nil
  expression hv ih := by
    simpa [SelectionOf.itemValues, SelectionOf.values] using (expression_reads hv).append ih
  instantiation iha ih := by
    simpa [SelectionOf.itemValues, SelectionOf.values] using iha.append ih

theorem ordered_reads {ks : Option (List SortKey)} {supply supply' : Supply}
    {vs : List Sql.SortKey} (h : s.ordered m ks supply = .ok vs supply') :
    s.ReadsAs m ((ks.getD []).flatMap (·.expression.references))
      (vs.flatMap (·.expression.columnValues)) := by
  rw [ordered_eq] at h
  refine EStateM.mapM_cases (P := fun ks _ vs _ => s.ReadsAs m
    (ks.flatMap (·.expression.references)) (vs.flatMap (·.expression.columnValues)))
    .nil (fun hk ih => ?_) h
  rw [List.flatMap_cons, List.flatMap_cons]
  exact (expression_reads (sortKey_ok hk).1).append ih

end Scope

/-! ## Queries -/

/-- What a lowered query owes to its from-elements, registered in `p`, apart from the conditions of
the joins. -/
structure Lowered.Registered (l : Lowered) (m : Metamodel) (q : Query) (p : Pass) : Prop where
  index : l.index = p.scope.index
  groups : groupAt? l.scope.spaces = groupAt? p.scope.spaces
  bare : l.scope.spaces.map (·.bare) = p.scope.spaces.map (·.bare)
  ties : ∀ place, q.fromClause.conditionAt? place = none →
    tieAt? l.scope.spaces place = tieAt? p.scope.spaces place
  reads : ∃ out, l.statement = .select out ∧ l.scope.Reads m q out.query

theorem lowerWith_registered {settings : Settings} {m : Metamodel} {q : Query} {l : Lowered}
    (h : lowerWith settings m (.select q) = .ok l) :
    ∃ u p, q.fromClause.spaces.forM (Step.space m) (.start settings) = .ok u p ∧
      l.Registered m q p := by
  obtain ⟨statement, index⟩ := l
  obtain ⟨-, pass, hs, rfl⟩ := lowerWith_run h
  simp only [Step.statement_select, EStateM.bind_eq_ok, EStateM.pure_eq_ok] at hs
  obtain ⟨out, _, hq, _, _, ht, rfl, rfl⟩ := hs
  obtain ⟨_, p', selected, _, _, _, _, _, hf, hsel, hcond, horder, rfl, rfl⟩ := Step.query_ok hq
  cases ht
  obtain ⟨-, u, p, hspaces, hpending⟩ := Step.fromClause_ok hf
  have hdefers := Step.spaces_defer (Pass.defers_start settings) hspaces
  have hconditions := Step.pendingConditions_conditions hpending
    (hdefers.ordered.nodup (places_nodup _))
  have hwritten : p.pending = pendingOf q.fromClause.spaces := Step.spaces_pending hspaces
  have hbare := Step.pendingConditions_bare hpending
  refine ⟨u, p, hspaces, hconditions.index, hconditions.groups, hbare, fun place hnone => ?_, _, rfl,
    ?_⟩
  · refine hconditions.others place fun hmem => ?_
    obtain ⟨x, hx, rfl⟩ := List.mem_map.1 hmem
    rw [hwritten, mem_pendingOf_iff_conditionAt?, hnone] at hx
    cases hx
  · refine ⟨fun c hc => ?_, Scope.condition_reads hcond, Scope.ordered_reads horder,
      fun place c hc => ?_⟩
    · rw [hc] at hsel
      exact Scope.items_read.items (Scope.selected_some hsel).2
    · obtain ⟨space, position⟩ := place
      cases position with
      | root => cases hc
      | join index =>
        have hmem : (⟨space, index, c⟩ : PendingCondition) ∈ p.pending := by
          rw [hwritten, mem_pendingOf_iff_conditionAt?]
          exact hc
        obtain ⟨c', _, _, hp, htie⟩ := hconditions.tied _ hmem
        rw [← Scope.predicate_congr hconditions.index hconditions.groups] at hp
        exact ⟨_, c', htie, Scope.predicate_reads hp⟩

/-- From clauses that differ in the conditions of their joins only register the same from-elements. -/
theorem Step.spaces_bare {m : Metamodel} {settings : Settings} {f f' : FromClause}
    (hbare : f.bare = f'.bare) {u u' : PUnit} {p p' : Pass}
    (h : f.spaces.forM (space m) (.start settings) = .ok u p)
    (h' : f'.spaces.forM (space m) (.start settings) = .ok u' p') : p.scope = p'.scope := by
  simp only [FromClause.bare, FromClause.mk.injEq] at hbare
  have helements : f.spaces.flatMap (·.elements) = f'.spaces.flatMap (·.elements) := by
    have := congrArg (List.flatMap Space.elements) hbare
    simpa only [List.flatMap_map, Space.elements_bare] using this
  have hspaces := (forall₂_of_map_eq hbare).imp fun _ _ => Space.alike_of_bare
  have hnames : List.Forall₂ Eq (namesFrom 0 (f.spaces.flatMap (·.elements)))
      (namesFrom 0 (f'.spaces.flatMap (·.elements))) := by
    rw [helements, List.forall₂_eq_eq_eq]
  have hunique : Relator.BiUnique (Eq : String → String → Prop) :=
    ⟨fun _ _ _ hab hcb => hab.trans hcb.symm, fun _ _ _ hab hac => hab.symm.trans hac⟩
  have hagree := spaces_agree (m := m) hunique hspaces (Pass.matches_start settings hnames)
  obtain ⟨_, q, hq, hmatches⟩ := hagree.of_ok h
  cases h'.symm.trans hq
  exact hmatches.scope.eq

/-- Two queries whose from clauses are the same but for the conditions of their joins have the same
index, and the same from clause but for the predicates of the joins. Where neither of them has a
condition the predicates are the same. Paths and from-elements have the same values in both, and
these are what the clauses of both read. -/
theorem join_conditions_local {settings : Settings} {m : Metamodel} {q q' : Query} {l l' : Lowered}
    (hbare : q.fromClause.bare = q'.fromClause.bare)
    (h : lowerWith settings m (.select q) = .ok l)
    (h' : lowerWith settings m (.select q') = .ok l') :
    l.index = l'.index ∧ l.statement.fromClause.bare = l'.statement.fromClause.bare ∧
    (∀ place, q.fromClause.conditionAt? place = none → q'.fromClause.conditionAt? place = none →
      tieAt? l.statement.fromClause.spaces place = tieAt? l'.statement.fromClause.spaces place) ∧
    l.scope.value m = l'.scope.value m ∧
    ∃ out out', l.statement = .select out ∧ l'.statement = .select out' ∧
      l.scope.Reads m q out.query ∧ l'.scope.Reads m q' out'.query := by
  obtain ⟨_, p, hp, hr⟩ := lowerWith_registered h
  obtain ⟨_, p', hp', hr'⟩ := lowerWith_registered h'
  have hscope := Step.spaces_bare hbare hp hp'
  have hindex : l.index = l'.index := by rw [hr.index, hr'.index, hscope]
  refine ⟨hindex, ?_, fun place hnone hnone' => ?_, ?_, ?_⟩
  · refine congrArg Sql.FromClauseOf.mk ?_
    exact hr.bare.trans (by rw [hscope]; exact hr'.bare.symm)
  · exact (hr.ties place hnone).trans (by rw [hscope]; exact (hr'.ties place hnone').symm)
  · exact Scope.value_congr hindex (hr.groups.trans (by rw [hscope]; exact hr'.groups.symm))
  · obtain ⟨out, hout, hreads⟩ := hr.reads
    obtain ⟨out', hout', hreads'⟩ := hr'.reads
    exact ⟨out, out', hout, hout', hreads, hreads'⟩

/-- Authors with their books, the first time under the given condition. -/
def booksTwice (condition : Option Predicate) : Query :=
  ⟨⟨[⟨⟨"Author", some "a"⟩, [⟨some "b", .left, .attributeOf "a" "books", false, condition⟩,
      ⟨none, .inner, .attributeOf "a" "books", true, none⟩]⟩]⟩,
    some ⟨false, [⟨.expression (.path ⟨"b", ["id"]⟩), none⟩]⟩, none, none⟩

theorem join_conditions_local_in_library :
    ∃ l l', lowerWith .default library (.select (booksTwice none)) = .ok l ∧
      lowerWith .default library
        (.select (booksTwice (some (.isEmpty ⟨"b", ["tags"]⟩ true)))) = .ok l' ∧
      l.index = l'.index ∧ l.statement.fromClause.bare = l'.statement.fromClause.bare ∧
      tieAt? l.statement.fromClause.spaces ⟨0, .join 1⟩ =
        tieAt? l'.statement.fromClause.spaces ⟨0, .join 1⟩ ∧
      l.scope.path library ⟨"b", ["id"]⟩ = l'.scope.path library ⟨"b", ["id"]⟩ := by
  obtain ⟨l, hl⟩ := Except.exists_ok_of_isSome
    (by decide +kernel :
      (lowerWith .default library (.select (booksTwice none))).toOption.isSome)
  obtain ⟨l', hl'⟩ := Except.exists_ok_of_isSome
    (by decide +kernel : (lowerWith .default library
      (.select (booksTwice (some (.isEmpty ⟨"b", ["tags"]⟩ true))))).toOption.isSome)
  have hfrom : (booksTwice none).fromClause.bare =
      (booksTwice (some (.isEmpty ⟨"b", ["tags"]⟩ true))).fromClause.bare := rfl
  obtain ⟨hindex, hbare, hties, hvalues, -⟩ := join_conditions_local hfrom hl hl'
  exact ⟨l, l', hl, hl', hindex, hbare, hties ⟨0, .join 1⟩ rfl rfl,
    congrFun hvalues (.path ⟨"b", ["id"]⟩)⟩

end EntityQuery
