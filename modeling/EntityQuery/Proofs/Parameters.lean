import EntityQuery.Proofs.Translation

/-!
# The numbering of parameters

A statement keeps its parameters when it is lowered, in the order in which they are written: first
those in the conditions of the joins, then those of the select clause or the assignments, of the
condition and of the sort keys. A lowered statement lists them in that order, each under its place
in the list (`parameters_numbered`).

Every clause puts the parameters it holds at the end of the list (`Supply.Numbers`). What is made
for a statement, the groups with their tables, what ties them and the subqueries over collections,
holds columns only (`Metamodel.Composes.plain`, `Scope.Connects.plain`).
-/

set_option autoImplicit false

namespace EntityQuery

/-! ## Parameters of statements -/

/-- A parameter as it is written: what it is bound to, and the type that is expected there. -/
structure Placeholder where
  binding : Binding
  expected : Option DomainType
deriving DecidableEq

namespace Expression

mutual
/-- The parameters of an expression, from left to right. -/
def placeholders : Expression → List Placeholder
  | .parameter binding expected => [⟨binding, expected⟩]
  | .entityType _ => []
  | .unary _ operand => operand.placeholders
  | .path _ => []
  | .element _ => []
  | .function _ arguments _ => placeholdersOfAll arguments
  | .literal _ => []
  | .concatenation lhs rhs _ => lhs.placeholders ++ rhs.placeholders
  | .enumConstant .. => []
  | .fieldConstant .. => []
  | .arithmetic lhs _ rhs _ => lhs.placeholders ++ rhs.placeholders
def placeholdersOfAll : List Expression → List Placeholder
  | [] => []
  | e :: es => e.placeholders ++ placeholdersOfAll es
end

end Expression

/-- The parameters of a predicate, from left to right. -/
def Predicate.placeholders : Predicate → List Placeholder
  | .grouped inner => inner.placeholders
  | .and left right => left.placeholders ++ right.placeholders
  | .or left right => left.placeholders ++ right.placeholders
  | .negated inner => inner.placeholders
  | .relational lhs _ rhs => lhs.placeholders ++ rhs.placeholders
  | .isNull subject _ => subject.placeholders
  | .isEmpty .. => []
  | .between subject lower upper _ =>
    subject.placeholders ++ lower.placeholders ++ upper.placeholders
  | .like subject pattern escape _ =>
    subject.placeholders ++ pattern.placeholders ++ escape.elim [] (·.placeholders)
  | .memberOf value _ _ => value.placeholders

/-- The parameters of a predicate that may be missing. -/
def placeholdersOf (p : Option Predicate) : List Placeholder := p.elim [] Predicate.placeholders

/-- The parameters in the conditions of the joins of a space. -/
def Space.placeholders (s : Space) : List Placeholder :=
  s.joins.flatMap (placeholdersOf ·.condition)

/-- The parameters of a statement: those of its joins, of what it selects or sets, of its condition
and of its sort keys. -/
def Statement.placeholders : Statement → List Placeholder
  | .select q => q.fromClause.spaces.flatMap (·.placeholders) ++
      q.select.elim [] (fun c => (SelectionOf.itemValues c.items).flatMap (·.placeholders)) ++
      placeholdersOf q.condition ++ (q.order.getD []).flatMap (·.expression.placeholders)
  | .update u => u.assignments.flatMap (·.value.placeholders) ++ placeholdersOf u.condition
  | .delete d => placeholdersOf d.condition

/-! ## Parameters of lowered statements -/

namespace Sql

namespace Expression

mutual
/-- The parameters that occur in an expression, from left to right. -/
def occurrences : Expression → List Parameter
  | .column _ => []
  | .tuple parts _ => occurrencesInAll parts
  | .literal _ => []
  | .parameter p => [p]
  | .entityType _ => []
  | .unary _ operand _ => operand.occurrences
  | .arithmetic lhs _ rhs _ => lhs.occurrences ++ rhs.occurrences
  | .concatenation lhs rhs _ => lhs.occurrences ++ rhs.occurrences
  | .function _ arguments _ => occurrencesInAll arguments
def occurrencesInAll : List Expression → List Parameter
  | [] => []
  | e :: es => e.occurrences ++ occurrencesInAll es
end

end Expression

namespace Predicate

mutual
/-- The parameters that occur in a predicate, from left to right. Those in the from clause of a
subquery come first, then those of what it selects, of its condition and of its sort keys. -/
def occurrences : Predicate → List Parameter
  | .junction _ ps => occurrencesInAll ps
  | .grouped inner => occurrences inner
  | .negated inner => occurrences inner
  | .comparison lhs _ rhs => lhs.occurrences ++ rhs.occurrences
  | .between subject lower upper _ =>
    subject.occurrences ++ lower.occurrences ++ upper.occurrences
  | .like subject pattern escape _ =>
    subject.occurrences ++ pattern.occurrences ++ escape.elim [] (·.occurrences)
  | .nullness subject _ => subject.occurrences
  | .nonempty subquery _ => inQuery subquery
  | .among subject subquery _ => subject.occurrences ++ inQuery subquery
def occurrencesInAll : List Predicate → List Parameter
  | [] => []
  | p :: ps => occurrences p ++ occurrencesInAll ps
/-- The parameters that occur in a predicate that may be missing. -/
def occurrencesIn : Option Predicate → List Parameter
  | none => []
  | some p => occurrences p
def inQuery : QueryOf Predicate → List Parameter
  | ⟨_, selections, ⟨spaces⟩, predicate, order⟩ =>
    inSpaces spaces ++ (SelectionOf.itemValues selections).flatMap (·.occurrences) ++
      occurrencesIn predicate ++ order.flatMap (·.expression.occurrences)
def inSpaces : List (TableSpaceOf Predicate) → List Parameter
  | [] => []
  | ⟨root, joins⟩ :: rest => inGroup root ++ inJoins joins ++ inSpaces rest
def inJoins : List (GroupJoinOf Predicate) → List Parameter
  | [] => []
  | ⟨_, group, predicate, _⟩ :: rest => inGroup group ++ occurrencesIn predicate ++ inJoins rest
def inGroup : TableGroupOf Predicate → List Parameter
  | ⟨_, _, _, tableJoins, _⟩ => inTableJoins tableJoins
def inTableJoins : List (TableJoinOf Predicate) → List Parameter
  | [] => []
  | ⟨_, _, predicate⟩ :: rest => occurrencesIn predicate ++ inTableJoins rest
end

end Predicate

/-- The parameters that occur in a query: those of its joins, by space and by place in the space,
then those of its selections, its condition and its sort keys. -/
def Query.occurrences (q : Query) : List Parameter := Predicate.inQuery q

/-- The parameters that occur in a from clause. -/
def FromClause.occurrences (f : FromClause) : List Parameter := Predicate.inSpaces f.spaces

/-- The parameters that occur in a statement. -/
def Statement.occurrences : Statement → List Parameter
  | .select s => Query.occurrences s.query
  | .update u => FromClause.occurrences u.fromClause ++
      u.assignments.flatMap
        (fun a => a.columns.flatMap (·.occurrences) ++ a.value.occurrences) ++
      Predicate.occurrencesIn u.predicate
  | .delete d => FromClause.occurrences d.fromClause ++ Predicate.occurrencesIn d.predicate

/-! ## Parts without parameters -/

theorem Expression.occurrencesInAll_eq (es : List Expression) :
    occurrencesInAll es = es.flatMap occurrences := by
  induction es with
  | nil => rfl
  | cons e es ih => rw [occurrencesInAll, ih, List.flatMap_cons]

theorem Expression.occurrences_columns (references : List ColumnReference) :
    (references.map Expression.column).flatMap occurrences = [] := by
  rw [List.flatMap_eq_nil_iff]
  intro e he
  obtain ⟨c, -, rfl⟩ := List.mem_map.1 he
  rw [occurrences]

/-- A value whose parts are columns holds no parameters. -/
theorem Expression.occurrences_of_parts {v : Expression} {references : List ColumnReference}
    (h : v.parts = references.map .column) : v.occurrences = [] := by
  have hparts : v.parts.flatMap occurrences = [] := by rw [h, occurrences_columns]
  cases v with
  | tuple parts type => rwa [occurrences, occurrencesInAll_eq]
  | _ => simpa [parts] using hparts

namespace Predicate

theorem occurrencesInAll_eq (ps : List Predicate) :
    occurrencesInAll ps = ps.flatMap occurrences := by
  induction ps with
  | nil => rfl
  | cons p ps ih => rw [occurrencesInAll, ih, List.flatMap_cons]

theorem occurrencesIn_conjunction (ps : List Predicate) :
    occurrencesIn (conjunction ps) = ps.flatMap occurrences := by
  match ps with
  | [] => rfl
  | [p] => simp [conjunction, occurrencesIn]
  | p :: p' :: ps => simp [conjunction, occurrencesIn, occurrences, occurrencesInAll_eq]

theorem occurrencesIn_eq (p : Option Predicate) : occurrencesIn p = p.toList.flatMap occurrences := by
  cases p <;> simp [occurrencesIn]

theorem inTableJoins_eq (joins : List TableJoin) :
    inTableJoins joins = joins.flatMap (occurrencesIn ·.predicate) := by
  induction joins with
  | nil => rfl
  | cons j js ih => rw [inTableJoins, ih, List.flatMap_cons]

theorem inGroup_eq (g : TableGroup) :
    inGroup g = g.tableJoins.flatMap (occurrencesIn ·.predicate) := by
  rw [← inTableJoins_eq, inGroup]

theorem inJoins_eq (joins : List GroupJoin) :
    inJoins joins = joins.flatMap fun j => inGroup j.group ++ occurrencesIn j.predicate := by
  induction joins with
  | nil => rfl
  | cons j js ih => rw [inJoins, ih, List.flatMap_cons]

theorem inSpaces_eq (spaces : List TableSpace) :
    inSpaces spaces = spaces.flatMap fun s => inGroup s.root ++ inJoins s.joins := by
  induction spaces with
  | nil => rfl
  | cons s spaces ih => rw [inSpaces, ih, List.flatMap_cons]

end Predicate

end Sql

namespace Metamodel

variable {m : Metamodel} {ids ids' : List ColumnId} {g : Sql.TableGroup}

theorem Composes.plain {v : Sql.Expression} (h : m.Composes ids v) : v.occurrences = [] := by
  obtain ⟨references, -, hparts⟩ := h
  exact Sql.Expression.occurrences_of_parts hparts

theorem Composes.parts_plain {v : Sql.Expression} (h : m.Composes ids v) :
    v.parts.flatMap (·.occurrences) = [] := by
  obtain ⟨references, -, hparts⟩ := h
  rw [hparts, Sql.Expression.occurrences_columns]

theorem Compares.plain {p : Option Sql.Predicate} (h : m.Compares ids ids' p) :
    Sql.Predicate.occurrencesIn p = [] := by
  obtain ⟨pairs, -, -, rfl⟩ := h.paired
  rw [Sql.Predicate.occurrencesIn_conjunction, List.flatMap_eq_nil_iff]
  intro q hq
  obtain ⟨pair, -, rfl⟩ := List.mem_map.1 hq
  simp [Sql.Predicate.occurrences, Sql.Expression.occurrences]

theorem Plain.occurrences {joins : List Sql.TableJoin} (h : Plain joins) :
    joins.flatMap (Sql.Predicate.occurrencesIn ·.predicate) = [] := by
  rw [List.flatMap_eq_nil_iff]
  intro j hj
  rw [h j hj, Sql.Predicate.occurrencesIn]

theorem Links.occurrences {p : PluralAttribute} {joins : List Sql.TableJoin}
    (h : m.Links p joins) : joins.flatMap (Sql.Predicate.occurrencesIn ·.predicate) = [] := by
  cases h with
  | linked _ _ compares plain => rw [List.flatMap_cons, compares.plain, plain.occurrences]; rfl
  | direct _ plain => exact plain.occurrences

theorem keyValue_plain {p : PluralAttribute} {v : Sql.Expression} (h : m.keyValue p g = .ok v) :
    v.occurrences = [] :=
  (keyValue_composes h).plain

theorem elementValue_plain {p : PluralAttribute} {v : Sql.Expression}
    (h : m.elementValue p g = .ok v) : v.occurrences = [] := by
  unfold elementValue at h
  split at h
  · obtain ⟨e, -, hv⟩ := Except.bind_eq_ok.1 h
    exact (columnsAt_composes hv).plain
  · obtain ⟨e, -, hv⟩ := Except.bind_eq_ok.1 h
    exact (columnsAt_composes hv).plain
  · exact (columnsAt_composes h).plain
  · exact (columnsAt_composes h).plain
  · cases h

end Metamodel

namespace Scope

variable {s : Scope} {m : Metamodel}

theorem path_composes {p : AttributePath} {v : Sql.Expression} (h : s.path m p = .ok v) :
    ∃ ids, m.Composes ids v := by
  obtain ⟨x, -, hv⟩ := Except.bind_eq_ok.1 h
  obtain ⟨_, _, _, -, -, hv⟩ := pathValue_ok hv
  exact ⟨_, Metamodel.columnsAt_composes hv⟩

theorem elementValue_composes {ref : GroupRef} {v : Sql.Expression}
    (h : s.elementValue m ref = .ok v) : ∃ ids, m.Composes ids v := by
  obtain ⟨_, _, ids, _, -, hv⟩ := elementValue_columns h
  exact ⟨ids, Metamodel.columnsAt_composes hv⟩

/-- The group of a from-element and what ties it hold no parameters. -/
theorem Connects.plain {source : JoinSource} {g : Sql.TableGroup} {predicate : Option Sql.Predicate}
    (h : s.Connects m source g predicate) :
    Sql.Predicate.inGroup g = [] ∧ Sql.Predicate.occurrencesIn predicate = [] := by
  rw [Sql.Predicate.inGroup_eq]
  cases h with
  | entity _ _ plain => exact ⟨plain.occurrences, rfl⟩
  | association _ _ _ _ _ plain compares => exact ⟨plain.occurrences, compares.plain⟩
  | collection owned =>
    obtain ⟨_, _, _, -, -, -, hlinks, -, hcompares⟩ := owned
    exact ⟨hlinks.occurrences, hcompares.plain⟩

/-- The subquery over a collection holds no parameters. -/
theorem subquery_plain {collection : AttributePath} {selected : Selected} {q : Sql.Query}
    {supply supply' : Supply} (h : s.subquery m collection selected supply = .ok q supply') :
    Sql.Predicate.inQuery q = [] ∧ supply'.parameters = supply.parameters := by
  simp only [subquery, EStateM.bind_eq_ok] at h
  obtain ⟨⟨p, owner⟩, _, ho, base, _, hb, hq⟩ := h
  obtain ⟨howned, rfl⟩ := settled_ok.1 ho
  cases hb
  obtain ⟨hquery, rfl⟩ := settled_ok.1 hq
  refine ⟨?_, rfl⟩
  obtain ⟨g, predicate, value, hg, hp, hv, rfl⟩ := collectionQuery_parts (lookedUp_ok hquery)
  obtain ⟨ids, howner⟩ : ∃ ids, m.Composes ids owner := by
    simp only [owned, Except.bind_eq_ok] at howned
    obtain ⟨x, -, hx⟩ := howned
    split at hx
    · simp only [Except.bind_eq_ok, Except.pure_eq_ok, Prod.mk.injEq] at hx
      obtain ⟨_, hvalue, -, rfl⟩ := hx
      exact elementValue_composes hvalue
    · cases hx
  have hvalue : value.occurrences = [] := by
    cases selected with
    | key => exact Metamodel.keyValue_plain hv
    | element => exact Metamodel.elementValue_plain hv
  have hgroup : Sql.Predicate.inGroup g = [] := by
    rw [Sql.Predicate.inGroup_eq, (Metamodel.collectionGroup_links hg).occurrences]
  simp [Sql.Predicate.inQuery, Sql.Predicate.inSpaces, Sql.Predicate.inJoins, hgroup,
    SelectionOf.itemValues, SelectionOf.values, hvalue,
    (Metamodel.keyPredicate_compares howner hp).plain]

end Scope

/-! ## Clauses -/

/-- The parameters that placeholders become when they are numbered from `index` on. -/
def numberedFrom : Nat → List Placeholder → List Sql.Parameter
  | _, [] => []
  | index, p :: ps => ⟨index, p.binding, p.expected⟩ :: numberedFrom (index + 1) ps

theorem numberedFrom_append : ∀ (index : Nat) (ps qs : List Placeholder),
    numberedFrom index (ps ++ qs) = numberedFrom index ps ++ numberedFrom (index + ps.length) qs
  | _, [], _ => rfl
  | index, p :: ps, qs => by
    simp only [List.cons_append, numberedFrom, numberedFrom_append (index + 1) ps qs,
      List.length_cons, Nat.add_comm, Nat.add_left_comm]

theorem length_numberedFrom : ∀ (index : Nat) (ps : List Placeholder),
    (numberedFrom index ps).length = ps.length
  | _, [] => rfl
  | index, _ :: ps => congrArg (· + 1) (length_numberedFrom (index + 1) ps)

theorem placeholders_numberedFrom : ∀ (index : Nat) (ps : List Placeholder),
    (numberedFrom index ps).map (fun p => ⟨p.binding, p.expected⟩) = ps
  | _, [] => rfl
  | index, p :: ps => congrArg (p :: ·) (placeholders_numberedFrom (index + 1) ps)

theorem index_numberedFrom : ∀ (index : Nat) (ps : List Placeholder) {k : Nat} {p : Sql.Parameter},
    (numberedFrom index ps)[k]? = some p → p.index = index + k
  | _, [], _, _, h => by simp [numberedFrom] at h
  | index, q :: qs, 0, p, h => by
    cases h
    rfl
  | index, q :: qs, k + 1, p, h => by
    have := index_numberedFrom (index + 1) qs (by simpa [numberedFrom] using h)
    omega

/-- Clauses with the given placeholders have been lowered between two supplies, and hold the given
parameters: these have been put at the end of the list, numbered by their places. -/
structure Supply.Numbers (supply supply' : Supply) (written : List Placeholder)
    (held : List Sql.Parameter) : Prop where
  appended : supply'.parameters = supply.parameters ++ held
  numbered : held = numberedFrom supply.parameters.length written

namespace Supply

variable {s1 s2 s3 : Supply} {ps qs : List Placeholder} {held held' : List Sql.Parameter}

theorem Numbers.none (h : s2.parameters = s1.parameters) : s1.Numbers s2 [] [] :=
  ⟨by simp [h], rfl⟩

theorem Numbers.append (h : s1.Numbers s2 ps held) (h' : s2.Numbers s3 qs held') :
    s1.Numbers s3 (ps ++ qs) (held ++ held') := by
  refine ⟨by rw [h'.appended, h.appended, List.append_assoc], ?_⟩
  have hlength : s2.parameters.length = s1.parameters.length + ps.length := by
    rw [h.appended, h.numbered, List.length_append, length_numberedFrom]
  rw [numberedFrom_append, ← h.numbered, ← hlength, ← h'.numbered]

end Supply

namespace Scope

variable {s : Scope} {m : Metamodel}

theorem newParameter_numbers {binding : Binding} {expected : Option DomainType}
    {supply supply' : Supply} {p : Sql.Parameter}
    (h : newParameter binding expected supply = .ok p supply') :
    supply.Numbers supply' [⟨binding, expected⟩] [p] := by
  cases h
  exact ⟨rfl, rfl⟩

theorem expressions_number_parameters : s.ExpressionCases m
    (fun e supply v supply' => supply.Numbers supply' e.placeholders v.occurrences)
    (fun es supply vs supply' => supply.Numbers supply' (Expression.placeholdersOfAll es)
      (Sql.Expression.occurrencesInAll vs)) where
  parameter hp := newParameter_numbers hp
  entityType _ := .none rfl
  unary ih := ih
  path hv := by
    obtain ⟨_, hc⟩ := path_composes hv
    rw [hc.plain]
    exact .none rfl
  element _ hv := by
    obtain ⟨_, hc⟩ := elementValue_composes hv
    rw [hc.plain]
    exact .none rfl
  function ih := ih
  literal := .none rfl
  concatenation ihl ihr := ihl.append ihr
  enumConstant := .none rfl
  fieldConstant := .none rfl
  arithmetic ihl ihr := ihl.append ihr
  nil := .none rfl
  cons ih ihs := ih.append ihs

theorem expression_numbers {e : Expression} {supply supply' : Supply} {v : Sql.Expression}
    (h : s.expression m e supply = .ok v supply') :
    supply.Numbers supply' e.placeholders v.occurrences :=
  expressions_number_parameters.expression h

theorem subquery_numbers {collection : AttributePath} {selected : Selected} {q : Sql.Query}
    {supply supply' : Supply} (h : s.subquery m collection selected supply = .ok q supply') :
    supply.Numbers supply' [] (Sql.Predicate.inQuery q) := by
  obtain ⟨hq, hparameters⟩ := subquery_plain h
  rw [hq]
  exact .none hparameters

theorem predicates_number_parameters : s.PredicateCases m fun p supply q supply' =>
    supply.Numbers supply' p.placeholders q.occurrences where
  grouped ih := ih
  and ihl ihr := by
    simpa [Predicate.placeholders, Sql.Predicate.occurrences, Sql.Predicate.occurrencesInAll] using
      ihl.append ihr
  or ihl ihr := by
    simpa [Predicate.placeholders, Sql.Predicate.occurrences, Sql.Predicate.occurrencesInAll] using
      ihl.append ihr
  negated ih := ih
  relational hl hr := (expression_numbers hl).append (expression_numbers hr)
  isNull hv := expression_numbers hv
  isEmpty hq := subquery_numbers hq
  between hs hl hu :=
    ((expression_numbers hs).append (expression_numbers hl)).append (expression_numbers hu)
  like hs hp := by
    simpa [Predicate.placeholders, Sql.Predicate.occurrences] using
      (expression_numbers hs).append (expression_numbers hp)
  likeEscaping hs hp he :=
    ((expression_numbers hs).append (expression_numbers hp)).append (expression_numbers he)
  memberOf hv hq := by
    simpa [Predicate.placeholders, Sql.Predicate.occurrences] using
      (expression_numbers hv).append (subquery_numbers hq)

theorem predicate_numbers {p : Predicate} {supply supply' : Supply} {q : Sql.Predicate}
    (h : s.predicate m p supply = .ok q supply') :
    supply.Numbers supply' p.placeholders q.occurrences :=
  predicates_number_parameters.predicate h

theorem condition_numbers {p : Option Predicate} {q : Option Sql.Predicate} {supply supply' : Supply}
    (h : s.condition m p supply = .ok q supply') :
    supply.Numbers supply' (placeholdersOf p) (Sql.Predicate.occurrencesIn q) := by
  obtain ⟨rfl, rfl, rfl⟩ | ⟨p, q, rfl, rfl, hp⟩ := condition_ok h
  · exact .none rfl
  · exact predicate_numbers hp

theorem items_number_parameters : s.ItemCases m fun es supply vs supply' =>
    supply.Numbers supply' ((SelectionOf.itemValues es).flatMap (·.placeholders))
      ((SelectionOf.itemValues vs).flatMap (·.occurrences)) where
  nil := .none rfl
  expression hv ih := by
    simpa [SelectionOf.itemValues, SelectionOf.values] using (expression_numbers hv).append ih
  instantiation iha ih := by
    simpa [SelectionOf.itemValues, SelectionOf.values] using iha.append ih

theorem selected_numbers {c : Option SelectClause} {r : Bool × List Sql.SelectItem}
    {supply supply' : Supply} (h : s.selected m c supply = .ok r supply') :
    supply.Numbers supply'
      (c.elim [] fun c => (SelectionOf.itemValues c.items).flatMap (·.placeholders))
      ((SelectionOf.itemValues r.2).flatMap (·.occurrences)) := by
  cases c with
  | none =>
    obtain ⟨_, v, hv, rfl, rfl⟩ := selected_none h
    obtain ⟨_, hc⟩ := elementValue_composes hv
    simpa [SelectionOf.itemValues, SelectionOf.values, hc.plain] using Supply.Numbers.none rfl
  | some c => exact items_number_parameters.items (selected_some h).2

/-- Clauses that are lowered one after the other number their parameters in that order. -/
theorem mapM_numbers {α β : Type} {f : α → Clause β} {written : α → List Placeholder}
    {held : β → List Sql.Parameter}
    (hf : ∀ a b supply supply', f a supply = .ok b supply' →
      supply.Numbers supply' (written a) (held b))
    {as : List α} {bs : List β} {supply supply' : Supply} (h : as.mapM f supply = .ok bs supply') :
    supply.Numbers supply' (as.flatMap written) (bs.flatMap held) :=
  EStateM.mapM_cases
    (P := fun as supply bs supply' =>
      supply.Numbers supply' (as.flatMap written) (bs.flatMap held))
    (.none rfl) (fun ha ih => (hf _ _ _ _ ha).append ih) h

theorem ordered_numbers {ks : Option (List SortKey)} {supply supply' : Supply}
    {vs : List Sql.SortKey} (h : s.ordered m ks supply = .ok vs supply') :
    supply.Numbers supply' ((ks.getD []).flatMap (·.expression.placeholders))
      (vs.flatMap (·.expression.occurrences)) := by
  rw [ordered_eq] at h
  exact mapM_numbers (f := s.sortKey m) (fun _ _ _ _ hk => expression_numbers (sortKey_ok hk).1) h

theorem assignment_numbers {a : Assignment} {v : Sql.Assignment} {supply supply' : Supply}
    (h : s.assignment m a supply = .ok v supply') :
    supply.Numbers supply' a.value.placeholders
      (v.columns.flatMap (·.occurrences) ++ v.value.occurrences) := by
  obtain ⟨_, ht, hcolumns, hv⟩ := assignment_ok h
  obtain ⟨_, hc⟩ := path_composes ht
  rw [hcolumns, hc.parts_plain, List.nil_append]
  exact expression_numbers hv

end Scope

/-! ## From-elements -/

/-- What is registered for from-elements holds no parameters. -/
theorem Pass.Collects.plain {pass : Pass} {m : Metamodel} {elements : List FromElement}
    (h : pass.Collects m elements) :
    (∀ g ∈ groupsOf pass.scope.spaces, Sql.Predicate.inGroup g = []) ∧
      ∀ l ∈ places pass.scope.spaces,
        Sql.Predicate.occurrencesIn (tieAt? pass.scope.spaces l) = [] := by
  have hplace (l : GroupLocator) (hl : l ∈ places pass.scope.spaces) :
      ∃ g, groupAt? pass.scope.spaces l = some g ∧ Sql.Predicate.inGroup g = [] ∧
        Sql.Predicate.occurrencesIn (tieAt? pass.scope.spaces l) = [] := by
    obtain ⟨e, -, s, joined, he, ht, -⟩ := h.elements.exists_left hl
    obtain ⟨hgroup, hpredicate⟩ := (Scope.joinedGroup_connects he.built).plain
    exact ⟨joined.group, he.groupAt, hgroup, by rw [ht, hpredicate]⟩
  refine ⟨fun g hg => ?_, fun l hl => ?_⟩
  · have hmem : some g ∈ (places pass.scope.spaces).map (groupAt? pass.scope.spaces) := by
      rw [places_map_groupAt]
      exact List.mem_map_of_mem hg
    obtain ⟨l, hl, hat⟩ := List.mem_map.1 hmem
    obtain ⟨g', hg', hplain, -⟩ := hplace l hl
    cases hat.symm.trans hg'
    exact hplain
  · obtain ⟨_, -, -, hplain⟩ := hplace l hl
    exact hplain

/-- The parameters of a from clause whose groups hold none are those that tie its joins. -/
theorem inSpaces_eq_flatMap_places {spaces : List Sql.TableSpace}
    (h : ∀ g ∈ groupsOf spaces, Sql.Predicate.inGroup g = []) :
    Sql.Predicate.inSpaces spaces =
      (places spaces).flatMap fun l => Sql.Predicate.occurrencesIn (tieAt? spaces l) := by
  have hjoins : (places spaces).flatMap (fun l => Sql.Predicate.occurrencesIn (tieAt? spaces l)) =
      (spaces.flatMap (·.joins)).flatMap (Sql.Predicate.occurrencesIn ·.predicate) := by
    rw [flatMap_joins_eq]
    refine List.flatMap_congr fun l _ => ?_
    cases hl : joinAt? spaces l <;> simp [tieAt?, hl, Sql.Predicate.occurrencesIn]
  rw [hjoins, Sql.Predicate.inSpaces_eq, List.flatMap_assoc]
  refine List.flatMap_congr fun s hs => ?_
  have hroot := h s.root (List.mem_flatMap.2 ⟨s, hs, List.mem_cons_self⟩)
  rw [hroot, List.nil_append, Sql.Predicate.inJoins_eq]
  refine List.flatMap_congr fun j hj => ?_
  have hgroup := h j.group
    (List.mem_flatMap.2 ⟨s, hs, List.mem_cons_of_mem _ (List.mem_map_of_mem hj)⟩)
  rw [hgroup, List.nil_append]

namespace Step

variable {m : Metamodel} {pass pass' : Pass} {u : Unit}

/-- From-elements draw on no parameters. -/
theorem spaces_parameters {spaces : List Space} (h : spaces.forM (space m) pass = .ok u pass') :
    pass'.supply.parameters = pass.supply.parameters := by
  refine EStateM.forM_inv (fun _ p => p.supply.parameters = pass.supply.parameters)
    (fun {_ s p p' _} hi hs => ?_) rfl h
  obtain ⟨_, q, hroot, hjoins⟩ := space_ok hs
  refine EStateM.forM_inv (fun _ p => p.supply.parameters = pass.supply.parameters)
    (fun hi hj => ?_) ?_ hjoins
  · obtain ⟨_, _, _, _, _, _, -, -, -, -, -, rfl⟩ := join_ok hj
    exact hi
  · obtain ⟨_, _, _, _, _, -, -, -, -, rfl⟩ := root_ok hroot
    exact hi

end Step

/-! ## Conditions of joins -/

/-- Conditions have been lowered one after the other since `start`, and each stands behind what
tied its join before. -/
structure Pass.Threads (pass start : Pass) (m : Metamodel) (done : List PendingCondition)
    (conditions : List Sql.Predicate) : Prop where
  kept : pass.Conditions start m done
  lowered : done.mapM (fun p => start.scope.predicate m p.condition) start.supply =
    .ok conditions pass.supply
  behind : List.Forall₂ (fun p c => tieAt? pass.scope.spaces p.place =
    Sql.Predicate.conjunction ((tieAt? start.scope.spaces p.place).toList ++ [c])) done conditions

namespace Step

variable {m : Metamodel}

theorem pendingCondition_threads {start pass pass' : Pass} {u : Unit}
    {done : List PendingCondition} {conditions : List Sql.Predicate} {p : PendingCondition}
    (ht : pass.Threads start m done conditions) (hn : p.place ∉ done.map (·.place))
    (h : pendingCondition m p pass = .ok u pass') :
    ∃ c, pass'.Threads start m (done ++ [p]) (conditions ++ [c]) := by
  have hkept := pendingCondition_conditions ht.kept hn h
  obtain ⟨c, supply, group, hc, hg, rfl⟩ := pendingCondition_ok h
  have htie (l : GroupLocator) : tieAt? (tied p.space p.position c pass.scope.spaces) l =
      if l = p.place then
        Sql.Predicate.conjunction ((tieAt? pass.scope.spaces l).toList ++ [c])
      else tieAt? pass.scope.spaces l := tieAt?_tied hg l
  rw [Scope.predicate_congr ht.kept.index ht.kept.groups] at hc
  refine ⟨c, hkept, ?_, List.rel_append ?_ (.cons ?_ .nil)⟩
  · rw [List.mapM_append]
    refine EStateM.bind_eq_ok.2 ⟨conditions, _, ht.lowered, ?_⟩
    simp only [List.mapM_cons, List.mapM_nil, EStateM.bind_eq_ok, EStateM.pure_eq_ok]
    exact ⟨[c], supply, ⟨c, supply, hc, [], supply, ⟨rfl, rfl⟩, rfl, rfl⟩, rfl, rfl⟩
  · refine ((List.forall₂_and_left _ _).2 ⟨fun p' (hp' : p' ∈ done) => hp', ht.behind⟩).imp ?_
    rintro p' c' ⟨hp', hb⟩
    have hne : p'.place ≠ p.place := fun heq => hn (heq ▸ List.mem_map_of_mem hp')
    rw [htie, if_neg hne, hb]
  · rw [htie, if_pos rfl, ht.kept.others _ hn]

theorem pendingConditions_thread {start pass : Pass} {u : Unit} {pending : List PendingCondition}
    (h : pending.forM (pendingCondition m) start = .ok u pass)
    (hn : (pending.map (·.place)).Nodup) : ∃ conditions, pass.Threads start m pending conditions := by
  have hinitial : start.Threads start m [] [] :=
    ⟨⟨rfl, rfl, rfl, fun l _ => rfl, by simp⟩, rfl, .nil⟩
  refine EStateM.forM_inv (fun done pass => (done.map (·.place)).Nodup →
      ∃ conditions, Pass.Threads pass start m done conditions)
    (fun {done p _ _ _} hi hp hn => ?_) (fun _ => ⟨[], hinitial⟩) h hn
  rw [List.map_append, List.nodup_append] at hn
  obtain ⟨conditions, ht⟩ := hi hn.1
  obtain ⟨c, hc⟩ := pendingCondition_threads ht
    (fun hmem => hn.2.2 _ hmem p.place (by simp) rfl) hp
  exact ⟨conditions ++ [c], hc⟩

end Step

/-- The parameters of a from clause are those of the conditions that were lowered for it. -/
theorem Pass.Threads.occurrences {start pass : Pass} {m : Metamodel}
    {pending : List PendingCondition} {conditions : List Sql.Predicate}
    (ht : pass.Threads start m pending conditions)
    (hplain : (∀ g ∈ groupsOf start.scope.spaces, Sql.Predicate.inGroup g = []) ∧
      ∀ l ∈ places start.scope.spaces,
        Sql.Predicate.occurrencesIn (tieAt? start.scope.spaces l) = [])
    (ho : (pending.map (·.place)).Sublist (places start.scope.spaces)) :
    Sql.Predicate.inSpaces pass.scope.spaces = conditions.flatMap (·.occurrences) := by
  obtain ⟨hgroups, hties⟩ := hplain
  have hplaces : places pass.scope.spaces = places start.scope.spaces := by
    rw [places, ht.kept.shaped, places]
  rw [inSpaces_eq_flatMap_places, hplaces]
  · rw [flatMap_eq_of_sublist ho (places_nodup _)]
    · have hsubset : ∀ p ∈ pending, p.place ∈ places start.scope.spaces :=
        fun p hp => ho.subset (List.mem_map_of_mem hp)
      have hall : List.Forall₂ (fun p (c : Sql.Predicate) =>
          Sql.Predicate.occurrencesIn (tieAt? pass.scope.spaces p.place) = c.occurrences)
          pending conditions := by
        refine ((List.forall₂_and_left _ _).2 ⟨hsubset, ht.behind⟩).imp ?_
        rintro p c ⟨hl, hb⟩
        have htie := hties _ hl
        rw [Sql.Predicate.occurrencesIn_eq] at htie
        rw [hb, Sql.Predicate.occurrencesIn_conjunction, List.flatMap_append, htie]
        simp
      rw [List.flatMap_map, List.flatMap_def, hall.map_eq, ← List.flatMap_def]
    · intro l hl hnot
      rw [ht.kept.others l hnot, hties l hl]
  · rwa [groupsOf_eq_of_groupAt ht.kept.shaped ht.kept.groups]

/-! ## Statements -/

theorem Space.placeholders_eq (s : Space) :
    s.placeholders = (s.joins.filterMap (·.condition)).flatMap (·.placeholders) := by
  rw [Space.placeholders]
  induction s.joins with
  | nil => rfl
  | cons j js ih =>
    rw [List.flatMap_cons, ih]
    cases hc : j.condition <;> simp [placeholdersOf, hc]

namespace Step

variable {m : Metamodel} {settings : Settings} {pass : Pass} {u : Unit}

theorem fromClause_numbers {f : FromClause} (h : fromClause m f (.start settings) = .ok u pass) :
    (Pass.start settings).supply.Numbers pass.supply (f.spaces.flatMap (·.placeholders))
      (Sql.Predicate.inSpaces pass.scope.spaces) := by
  obtain ⟨-, v, p, hspaces, hpending⟩ := fromClause_ok h
  have hcollects := spaces_collect (Pass.collects_start settings m) hspaces
  have hdefers := spaces_defer (Pass.defers_start settings) hspaces
  have hregistered : (Pass.start settings).supply.Numbers p.supply [] [] :=
    .none (spaces_parameters hspaces)
  obtain ⟨conditions, ht⟩ :=
    pendingConditions_thread hpending (hdefers.ordered.nodup (places_nodup _))
  have hlowered := Scope.mapM_numbers (fun _ _ _ _ hp => Scope.predicate_numbers hp) ht.lowered
  have hwritten : p.pending.flatMap (·.condition.placeholders) =
      f.spaces.flatMap (·.placeholders) := by
    rw [← List.flatMap_map, hdefers.conditions, List.flatMap_assoc]
    exact List.flatMap_congr fun s _ => s.placeholders_eq.symm
  rw [hwritten, ← ht.occurrences hcollects.plain hdefers.ordered] at hlowered
  exact hregistered.append hlowered

theorem root_numbers {r : Root} (h : root m r (.start settings) = .ok u pass) :
    (Pass.start settings).supply.Numbers pass.supply []
      (Sql.Predicate.inSpaces pass.scope.spaces) := by
  obtain ⟨hgroups, hties⟩ := (root_collects (Pass.collects_start settings m) h).plain
  rw [inSpaces_eq_flatMap_places hgroups, List.flatMap_eq_nil_iff.2 hties]
  obtain ⟨_, _, _, _, _, -, -, -, -, rfl⟩ := root_ok h
  exact .none rfl

end Step

/-- A lowered statement lists the parameters that occur in it, numbered in order. -/
theorem lowerWith_numbers {settings : Settings} {m : Metamodel} {s : Statement} {l : Lowered}
    (h : lowerWith settings m s = .ok l) :
    l.statement.parameters = l.statement.occurrences ∧
      l.statement.occurrences = numberedFrom 0 s.placeholders := by
  obtain ⟨statement, index⟩ := l
  obtain ⟨-, pass, hs, rfl⟩ := lowerWith_run h
  cases s with
  | select q =>
    simp only [Step.statement_select, EStateM.bind_eq_ok, EStateM.pure_eq_ok] at hs
    obtain ⟨out, _, hq, _, _, ht, rfl, rfl⟩ := hs
    obtain ⟨_, _, _, _, _, _, _, _, hf, hsel, hc, ho, rfl, rfl⟩ := Step.query_ok hq
    cases ht
    have hn := (((Step.fromClause_numbers hf).append (Scope.selected_numbers hsel)).append
      (Scope.condition_numbers hc)).append (Scope.ordered_numbers ho)
    exact ⟨hn.appended, hn.numbered⟩
  | update x =>
    simp only [Step.statement_update, EStateM.bind_eq_ok, EStateM.pure_eq_ok] at hs
    obtain ⟨out, _, hu, rfl, rfl⟩ := hs
    obtain ⟨_, _, _, _, _, _, hr, ha, hc, rfl, -⟩ := Step.update_ok hu
    have hassigned := Scope.mapM_numbers (fun _ _ _ _ ha => Scope.assignment_numbers ha) ha
    have hn := ((Step.root_numbers hr).append hassigned).append (Scope.condition_numbers hc)
    exact ⟨hn.appended, hn.numbered⟩
  | delete x =>
    simp only [Step.statement_delete, EStateM.bind_eq_ok, EStateM.pure_eq_ok] at hs
    obtain ⟨out, _, hd, rfl, rfl⟩ := hs
    obtain ⟨_, _, _, _, hr, hc, rfl, -⟩ := Step.delete_ok hd
    have hn := (Step.root_numbers hr).append (Scope.condition_numbers hc)
    exact ⟨hn.appended, hn.numbered⟩

/-- Each parameter of a lowered statement has its place in the list as its index. The list is that
of the parameters that occur in the statement, in order, and these are the parameters of the
statement that was lowered, in order. -/
theorem parameters_numbered {settings : Settings} {m : Metamodel} {s : Statement} {l : Lowered}
    (h : lowerWith settings m s = .ok l) :
    (∀ (i : Nat) (p : Sql.Parameter), l.statement.parameters[i]? = some p → p.index = i) ∧
    l.statement.occurrences = l.statement.parameters ∧
    l.statement.parameters.map (fun p => ⟨p.binding, p.expected⟩) = s.placeholders := by
  obtain ⟨hlist, hnumbered⟩ := lowerWith_numbers h
  refine ⟨fun i p hp => ?_, hlist.symm, ?_⟩
  · rw [hlist, hnumbered] at hp
    have hindex := index_numberedFrom 0 _ hp
    omega
  · rw [hlist, hnumbered, placeholders_numberedFrom]

/-- Authors with some of their books, with a parameter in each clause and one in the condition of the
join. -/
def bookSearch : Statement :=
  .select ⟨⟨[⟨⟨"Author", some "a"⟩, [⟨some "b", .left, .attributeOf "a" "books", false,
      some (.relational (.path ⟨"b", ["id"]⟩) .greaterThan (.parameter (.named "after") none))⟩]⟩]⟩,
    some ⟨true, [⟨.expression (.parameter (.positional 1) none), some "tag"⟩]⟩,
    some (.memberOf (.parameter (.named "tag") (some (.basic (.standard .string)))) ⟨"b", ["tags"]⟩
      false),
    some [⟨.parameter (.positional 1) none, .ascending⟩]⟩

theorem parameters_numbered_in_library : ∃ l, lowerWith .default library bookSearch = .ok l ∧
    (∀ (i : Nat) (p : Sql.Parameter), l.statement.parameters[i]? = some p → p.index = i) ∧
    l.statement.occurrences = l.statement.parameters ∧
    l.statement.parameters.map (·.binding) =
      [.named "after", .positional 1, .named "tag", .positional 1] := by
  obtain ⟨l, hl⟩ := Except.exists_ok_of_isSome
    (by decide +kernel : (lowerWith .default library bookSearch).toOption.isSome)
  obtain ⟨hindexes, hoccurrences, hwritten⟩ := parameters_numbered hl
  refine ⟨l, hl, hindexes, hoccurrences, ?_⟩
  have hbindings := congrArg (List.map Placeholder.binding) hwritten
  rw [List.map_map] at hbindings
  exact hbindings.trans (by decide +kernel)

end EntityQuery
