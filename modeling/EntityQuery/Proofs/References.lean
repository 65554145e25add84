import EntityQuery.Proofs.FromElements

/-!
# References to columns

Every column that a lowered statement refers to belongs to a table of a group in scope
(`references_in_scope`): to a group of the from clause, or in a subquery to the group of the
subquery too. What ties the tables of a group together speaks of that group only, and what ties a
joined group without a condition of its own speaks of that group and the ones before it.

`Sql.Within groups references` says that references are to tables of the groups. It holds of each
value when it is made (`Metamodel.columnsAt_within`, `Metamodel.locatedReferences_within`), hence of
every expression and predicate over a scope (`Scope.expression_within`, `Scope.predicate_within`).
-/

set_option autoImplicit false

namespace EntityQuery

/-! ## The references of a lowered statement -/

namespace Sql

namespace Expression

mutual
/-- The columns that an expression refers to. -/
def references : Expression → List ColumnReference
  | .column reference => [reference]
  | .tuple parts _ => referencesOfAll parts
  | .literal _ | .parameter _ | .entityType _ => []
  | .unary _ operand _ => operand.references
  | .arithmetic lhs _ rhs _ => lhs.references ++ rhs.references
  | .concatenation lhs rhs _ => lhs.references ++ rhs.references
  | .function _ arguments _ => referencesOfAll arguments
def referencesOfAll : List Expression → List ColumnReference
  | [] => []
  | e :: es => e.references ++ referencesOfAll es
end

theorem referencesOfAll_eq (es : List Expression) : referencesOfAll es = es.flatMap references := by
  induction es with
  | nil => rfl
  | cons e es ih => rw [referencesOfAll, ih, List.flatMap_cons]

theorem references_parts (e : Expression) : e.parts.flatMap references = e.references := by
  cases e with
  | tuple es type => rw [parts, references, referencesOfAll_eq]
  | _ => simp [parts]

/-- A value that columns make up refers to their slots, in their tables. -/
theorem slots_ofColumns (columns : List ColumnReference) (type : Option DomainType) :
    (ofColumns columns type).references.map (fun c => (c.variableName, c.expression, c.sqlCode)) =
      columns.map fun c => (c.variableName, c.expression, c.sqlCode) := by
  have htuple (columns : List ColumnReference) : referencesOfAll (columns.map .column) = columns := by
    rw [referencesOfAll_eq, List.flatMap_map]
    simp [references]
  match columns with
  | [reference] => rfl
  | [] => rfl
  | c :: c' :: cs => simp only [ofColumns, references, htuple]

theorem variables_ofColumns (columns : List ColumnReference) (type : Option DomainType) :
    (ofColumns columns type).references.map (·.variableName) = columns.map (·.variableName) := by
  have hslots := congrArg (List.map Prod.fst) (slots_ofColumns columns type)
  simpa only [List.map_map, Function.comp_def] using hslots

end Expression

mutual
/-- The columns that a selection refers to, those of the selections within an object included. -/
def Selection.references : Selection → List ColumnReference
  | .expression value => value.references
  | .instantiation _ arguments => Selection.referencesOfAll arguments
def Selection.referencesOfAll : List SelectItem → List ColumnReference
  | [] => []
  | ⟨selection, _⟩ :: rest => Selection.references selection ++ Selection.referencesOfAll rest
end

namespace Predicate

mutual
/-- The columns that a predicate refers to outside of its subqueries. -/
def references : Predicate → List ColumnReference
  | .junction _ ps => referencesOfAll ps
  | .grouped p => p.references
  | .negated p => p.references
  | .comparison lhs _ rhs => lhs.references ++ rhs.references
  | .between subject lower upper _ => subject.references ++ lower.references ++ upper.references
  | .like subject pattern escape _ =>
    subject.references ++ pattern.references ++ escape.elim [] Expression.references
  | .nullness subject _ => subject.references
  | .nonempty _ _ => []
  | .among subject _ _ => subject.references
def referencesOfAll : List Predicate → List ColumnReference
  | [] => []
  | p :: ps => p.references ++ referencesOfAll ps
end

/-- The columns that a predicate refers to, which may be missing. -/
def referencesOf (p : Option Predicate) : List ColumnReference := p.elim [] references

theorem referencesOfAll_eq (ps : List Predicate) : referencesOfAll ps = ps.flatMap references := by
  induction ps with
  | nil => rfl
  | cons p ps ih => rw [referencesOfAll, ih, List.flatMap_cons]

theorem referencesOf_conjunction (ps : List Predicate) :
    referencesOf (conjunction ps) = ps.flatMap references := by
  match ps with
  | [] => rfl
  | [p] => simp [conjunction, referencesOf]
  | p :: p' :: ps => simp [conjunction, referencesOf, references, referencesOfAll_eq]

theorem mem_referencesOf_equality {lhs rhs : List Expression} {c : ColumnReference}
    (h : c ∈ referencesOf (equality lhs rhs)) :
    c ∈ lhs.flatMap Expression.references ∨ c ∈ rhs.flatMap Expression.references := by
  rw [equality, referencesOf_conjunction, ← List.map_uncurry_zip_eq_zipWith] at h
  obtain ⟨p, hp, hc⟩ := List.mem_flatMap.1 h
  obtain ⟨⟨l, r⟩, hlr, rfl⟩ := List.mem_map.1 hp
  obtain ⟨hl, hr⟩ := List.of_mem_zip hlr
  rcases List.mem_append.1 hc with hc | hc
  · exact .inl (List.mem_flatMap.2 ⟨l, hl, hc⟩)
  · exact .inr (List.mem_flatMap.2 ⟨r, hr, hc⟩)

end Predicate

/-- The columns that the conditions between the tables of a group refer to. -/
def TableGroup.references (g : TableGroup) : List ColumnReference :=
  g.tableJoins.flatMap fun j => Predicate.referencesOf j.predicate

def GroupJoin.references (j : GroupJoin) : List ColumnReference :=
  TableGroup.references j.group ++ Predicate.referencesOf j.predicate

def TableSpace.references (s : TableSpace) : List ColumnReference :=
  TableGroup.references s.root ++ s.joins.flatMap GroupJoin.references

def FromClause.references (f : FromClause) : List ColumnReference :=
  f.spaces.flatMap TableSpace.references

def Assignment.references (a : Assignment) : List ColumnReference :=
  a.columns.flatMap Expression.references ++ a.value.references

/-- The columns that a query refers to outside of its subqueries. -/
def Query.references (q : Query) : List ColumnReference :=
  Selection.referencesOfAll q.selections ++ FromClause.references q.fromClause ++
    Predicate.referencesOf q.predicate ++ q.order.flatMap (·.expression.references)

/-- The columns that a statement refers to outside of its subqueries. -/
def Statement.references : Statement → List ColumnReference
  | .select s => Query.references s.query
  | .update u => FromClause.references u.fromClause ++ u.assignments.flatMap Assignment.references ++
      Predicate.referencesOf u.predicate
  | .delete d => FromClause.references d.fromClause ++ Predicate.referencesOf d.predicate

/-- The references are to tables of the groups. -/
def Within (groups : List TableGroup) (references : List ColumnReference) : Prop :=
  ∀ c ∈ references, c.variableName ∈ variablesOf groups

namespace Within

variable {groups groups' : List TableGroup} {cs cs' : List ColumnReference}

theorem nil (groups : List TableGroup) : Within groups [] := by simp [Within]

theorem append (h : Within groups cs) (h' : Within groups cs') : Within groups (cs ++ cs') := by
  intro c hc
  rcases List.mem_append.1 hc with hc | hc
  · exact h c hc
  · exact h' c hc

theorem flatMap {α : Type} {f : α → List ColumnReference} {xs : List α}
    (h : ∀ x ∈ xs, Within groups (f x)) : Within groups (xs.flatMap f) := by
  intro c hc
  obtain ⟨x, hx, hc⟩ := List.mem_flatMap.1 hc
  exact h x hx c hc

theorem mono (h : Within groups cs) (hg : groups ⊆ groups') : Within groups' cs := by
  intro c hc
  obtain ⟨use, huse, hv⟩ := List.mem_map.1 (h c hc)
  obtain ⟨g, hmem, huse⟩ := List.mem_flatMap.1 huse
  exact List.mem_map.2 ⟨use, List.mem_flatMap.2 ⟨g, hg hmem, huse⟩, hv⟩

theorem of_mem {g : TableGroup} (h : Within [g] cs) (hg : g ∈ groups) : Within groups cs :=
  h.mono (by simpa using hg)

theorem equality {lhs rhs : List Expression} (hl : Within groups (lhs.flatMap Expression.references))
    (hr : Within groups (rhs.flatMap Expression.references)) :
    Within groups (Predicate.referencesOf (Predicate.equality lhs rhs)) := by
  intro c hc
  rcases Predicate.mem_referencesOf_equality hc with hc | hc
  · exact hl c hc
  · exact hr c hc

end Within

end Sql

open Sql (Within)

/-! ## Values of groups -/

namespace Metamodel

variable {m : Metamodel} {g : Sql.TableGroup} {base : String}

theorem columnReference_variable {name : String} {id : ColumnId} {c : Sql.ColumnReference}
    (h : m.columnReference name id = .ok c) : c.variableName = name := by
  unfold columnReference at h
  split at h
  · cases h
    rfl
  · cases h

theorem columnReferences_variable {name : String} {ids : List ColumnId}
    {cs : List Sql.ColumnReference} (h : m.columnReferences name ids = .ok cs) :
    ∀ c ∈ cs, c.variableName = name := by
  intro c hc
  obtain ⟨id, -, hid⟩ := (Except.mapM_ok h).exists_left hc
  exact columnReference_variable hid

theorem ofColumns_within {groups : List Sql.TableGroup} {cs : List Sql.ColumnReference}
    {type : Option DomainType} (h : Within groups cs) :
    Within groups (Sql.Expression.ofColumns cs type).references := by
  intro c hc
  have hmem : c.variableName ∈ (Sql.Expression.ofColumns cs type).references.map (·.variableName) :=
    List.mem_map_of_mem hc
  rw [Sql.Expression.variables_ofColumns] at hmem
  obtain ⟨c', hc', hv⟩ := List.mem_map.1 hmem
  rw [← hv]
  exact h c' hc'

theorem columnReferences_within {use : Sql.TableUse} (hu : use ∈ g.tables) {ids : List ColumnId}
    {cs : List Sql.ColumnReference} (h : m.columnReferences use.variableName ids = .ok cs) :
    Within [g] cs := by
  intro c hc
  rw [columnReferences_variable h c hc]
  exact List.mem_map.2 ⟨use, by simpa using hu, rfl⟩

theorem columnsAt_within {position : Nat} {ids : List ColumnId} {type : Option DomainType}
    {e : Sql.Expression} (h : m.columnsAt g position ids type = .ok e) : Within [g] e.references := by
  unfold columnsAt at h
  split at h
  · rename_i use hu
    simp only [Except.bind_eq_ok, Except.pure_eq_ok] at h
    obtain ⟨cs, hcs, rfl⟩ := h
    exact ofColumns_within (columnReferences_within (List.mem_of_getElem? hu) hcs)
  · cases h

theorem locatedReferences_within {ids : List ColumnId} {cs : List Sql.ColumnReference}
    (h : m.locatedReferences g ids = .ok cs) : Within [g] cs := by
  intro c hc
  obtain ⟨id, -, hid⟩ := (Except.mapM_ok h).exists_left hc
  unfold locatedReference at hid
  split at hid
  · rename_i use hu
    rw [columnReference_variable hid]
    exact List.mem_map.2 ⟨use, by simpa using List.mem_of_find?_eq_some hu, rfl⟩
  · cases hid

theorem elementValue_within {p : PluralAttribute} {e : Sql.Expression}
    (h : m.elementValue p g = .ok e) : Within [g] e.references := by
  unfold elementValue at h
  split at h
  · obtain ⟨element, -, hv⟩ := Except.bind_eq_ok.1 h
    exact columnsAt_within hv
  · obtain ⟨element, -, hv⟩ := Except.bind_eq_ok.1 h
    exact columnsAt_within hv
  · exact columnsAt_within h
  · exact columnsAt_within h
  · cases h

theorem keyValue_within {p : PluralAttribute} {e : Sql.Expression}
    (h : m.keyValue p g = .ok e) : Within [g] e.references := by
  simp only [keyValue, Except.bind_eq_ok, Except.pure_eq_ok] at h
  obtain ⟨cs, hcs, rfl⟩ := h
  exact ofColumns_within (locatedReferences_within hcs)

theorem matching_within {groups : List Sql.TableGroup} {role : String} {lhs rhs : Sql.Expression}
    {p : Option Sql.Predicate} (h : matching role lhs rhs = .ok p)
    (hl : Within groups lhs.references) (hr : Within groups rhs.references) :
    Within groups (Sql.Predicate.referencesOf p) := by
  unfold matching at h
  split at h
  · cases h
    refine Within.equality ?_ ?_
    · rwa [Sql.Expression.references_parts]
    · rwa [Sql.Expression.references_parts]
  · cases h

theorem keyPredicate_within {groups : List Sql.TableGroup} {p : PluralAttribute}
    {owner : Sql.Expression} {predicate : Option Sql.Predicate}
    (h : m.keyPredicate p g owner = .ok predicate) (hg : g ∈ groups)
    (ho : Within groups owner.references) : Within groups (Sql.Predicate.referencesOf predicate) := by
  simp only [keyPredicate, Except.bind_eq_ok] at h
  obtain ⟨key, hk, hp⟩ := h
  exact matching_within hp ((keyValue_within hk).of_mem hg) ho

/-! ## Ties between the tables of a group -/

/-- The tables behind a link table: the first is joined by the columns of the elements, the others
from the left. -/
theorem linkGroup_joins {p : PluralAttribute} {link : TableId} {e : Entity}
    (h : m.linkGroup p link e base = .ok g) :
    ∃ (first : Sql.TableUse) (more : List Sql.TableUse)
      (references identifiers : List Sql.ColumnReference),
      m.columnReferences (variableAt base 0) p.element.columns = .ok references ∧
      m.columnReferences (variableAt base 1) e.identifier.columns = .ok identifiers ∧
      g.tableJoins = ⟨.inner, first, Sql.Predicate.equality (references.map .column)
        (identifiers.map .column)⟩ :: more.map (⟨.left, ·, none⟩) := by
  simp only [linkGroup, Except.bind_eq_ok, Except.pure_eq_ok] at h
  obtain ⟨root, hr, first, hf, references, hrs, identifiers, his, more, -, rfl⟩ := h
  rw [(tableUse_ok hr).2.1] at hrs
  rw [(tableUse_ok hf).2.1] at his
  exact ⟨first, more, references, identifiers, hrs, his, rfl⟩

theorem entityGroup_within {e : Entity} (h : m.entityGroup e base = .ok g) :
    Within [g] (Sql.TableGroup.references g) := by
  refine Within.flatMap fun j hj => ?_
  rw [((entityGroup_ok h).2.2.2 j hj).2]
  exact .nil _

theorem linkGroup_within {p : PluralAttribute} {link : TableId} {e : Entity}
    (h : m.linkGroup p link e base = .ok g) : Within [g] (Sql.TableGroup.references g) := by
  have hc := (linkGroup_ok h).1
  obtain ⟨first, more, references, identifiers, hrs, his, hjoins⟩ := linkGroup_joins h
  have hcolumns {position : Nat} (hp : position < (link :: e.tables).length) {ids : List ColumnId}
      {cs : List Sql.ColumnReference}
      (hcs : m.columnReferences (variableAt base position) ids = .ok cs) :
      Within [g] ((cs.map Sql.Expression.column).flatMap Sql.Expression.references) := by
    obtain ⟨use, -, hu, -, hv, -⟩ := hc.table? (List.getElem?_eq_getElem hp)
    rw [← hv] at hcs
    have hsame : (cs.map Sql.Expression.column).flatMap Sql.Expression.references = cs := by
      rw [List.flatMap_map]
      simp [Sql.Expression.references]
    rw [hsame]
    exact columnReferences_within hu hcs
  refine Within.flatMap fun j hj => ?_
  rw [hjoins] at hj
  rcases List.mem_cons.1 hj with rfl | hj
  · exact Within.equality (hcolumns (by simp) hrs) (hcolumns (by simp [Entity.tables]) his)
  · obtain ⟨use, -, rfl⟩ := List.mem_map.1 hj
    exact .nil _

theorem collectionGroup_within {p : PluralAttribute} (h : m.collectionGroup p base = .ok g) :
    Within [g] (Sql.TableGroup.references g) := by
  obtain ⟨-, e, -, hg⟩ | ⟨-, link, e, -, -, hg⟩ | ⟨-, table, root, -, -, rfl⟩ := collectionGroup_ok h
  · exact entityGroup_within hg
  · exact linkGroup_within hg
  · exact .nil _

theorem Stands.within : ∀ {source : GroupSource}, m.Stands g source →
    Within [g] (Sql.TableGroup.references g)
  | .entity _, ⟨_, _, hg⟩ => entityGroup_within hg
  | .collection _, ⟨_, _, _, _, _, hg⟩ => collectionGroup_within hg

end Metamodel

/-! ## Clauses -/

namespace Scope

variable {s : Scope} {m : Metamodel}

theorem mem_groupsOf_of_group {ref : GroupRef} {g : Sql.TableGroup} (h : s.group ref = .ok g) :
    g ∈ groupsOf s.spaces := by
  have hg := group_ok.1 h
  simp only [groupAt?, Option.bind_eq_bind, Option.bind_eq_some_iff] at hg
  obtain ⟨space, hs, hg⟩ := hg
  refine List.mem_flatMap.2 ⟨space, List.mem_of_getElem? hs, ?_⟩
  split at hg
  · cases hg
    exact List.mem_cons_self
  · obtain ⟨j, hj, rfl⟩ := Option.map_eq_some_iff.1 hg
    exact List.mem_cons_of_mem _ (List.mem_map_of_mem (List.mem_of_getElem? hj))

theorem pathValue_within {r : ResolvedPath} {e : Sql.Expression} (h : s.pathValue m r = .ok e) :
    Within (groupsOf s.spaces) e.references := by
  obtain ⟨g, hg, h⟩ := Except.bind_eq_ok.1 h
  refine Within.of_mem ?_ (mem_groupsOf_of_group hg)
  split at h
  · cases h
  · split at h
    · cases h
    · exact Metamodel.columnsAt_within (lookedUp_ok h)
  · exact Metamodel.columnsAt_within (lookedUp_ok h)

theorem elementValue_within {ref : GroupRef} {e : Sql.Expression}
    (h : s.elementValue m ref = .ok e) : Within (groupsOf s.spaces) e.references := by
  obtain ⟨g, hg, h⟩ := Except.bind_eq_ok.1 h
  refine Within.of_mem ?_ (mem_groupsOf_of_group hg)
  split at h
  · obtain ⟨entity, -, h⟩ := Except.bind_eq_ok.1 h
    exact Metamodel.columnsAt_within (lookedUp_ok h)
  · obtain ⟨p, -, h⟩ := Except.bind_eq_ok.1 h
    exact Metamodel.elementValue_within (lookedUp_ok h)

theorem path_within {p : AttributePath} {e : Sql.Expression} (h : s.path m p = .ok e) :
    Within (groupsOf s.spaces) e.references := by
  obtain ⟨r, -, h⟩ := Except.bind_eq_ok.1 h
  exact pathValue_within h

theorem expressions_refer_within : s.ExpressionCases m
    (fun _ _ v _ => Within (groupsOf s.spaces) v.references)
    (fun _ _ vs _ => Within (groupsOf s.spaces) (Sql.Expression.referencesOfAll vs)) where
  parameter _ := .nil _
  entityType _ := .nil _
  unary ih := ih
  path hv := path_within hv
  element _ hv := elementValue_within hv
  function ih := ih
  literal := .nil _
  concatenation ihl ihr := ihl.append ihr
  enumConstant := .nil _
  fieldConstant := .nil _
  arithmetic ihl ihr := ihl.append ihr
  nil := .nil _
  cons ih ihs := ih.append ihs

/-- The value of an expression refers to the groups in scope. -/
theorem expression_within {e : Expression} {supply supply' : Supply} {v : Sql.Expression}
    (h : s.expression m e supply = .ok v supply') : Within (groupsOf s.spaces) v.references :=
  expressions_refer_within.expression h

theorem predicates_refer_within : s.PredicateCases m fun _ _ q _ =>
    Within (groupsOf s.spaces) q.references where
  grouped ih := ih
  and ihl ihr := ihl.append (ihr.append (.nil _))
  or ihl ihr := ihl.append (ihr.append (.nil _))
  negated ih := ih
  relational hl hr := (expression_within hl).append (expression_within hr)
  isNull hv := expression_within hv
  isEmpty _ := .nil _
  between hs hl hu :=
    ((expression_within hs).append (expression_within hl)).append (expression_within hu)
  like hs hp := ((expression_within hs).append (expression_within hp)).append (.nil _)
  likeEscaping hs hp he :=
    ((expression_within hs).append (expression_within hp)).append (expression_within he)
  memberOf hv _ := expression_within hv

/-- A predicate refers to the groups in scope, outside of its subqueries. -/
theorem predicate_within {p : Predicate} {supply supply' : Supply} {q : Sql.Predicate}
    (h : s.predicate m p supply = .ok q supply') : Within (groupsOf s.spaces) q.references :=
  predicates_refer_within.predicate h

theorem condition_within {p : Option Predicate} {supply supply' : Supply} {q : Option Sql.Predicate}
    (h : s.condition m p supply = .ok q supply') :
    Within (groupsOf s.spaces) (Sql.Predicate.referencesOf q) := by
  obtain ⟨-, rfl, -⟩ | ⟨_, _, -, rfl, hp⟩ := condition_ok h
  · exact .nil _
  · exact predicate_within hp

theorem items_refer_within : s.ItemCases m fun _ _ vs _ =>
    Within (groupsOf s.spaces) (Sql.Selection.referencesOfAll vs) where
  nil := .nil _
  expression hv ih := (expression_within hv).append ih
  instantiation iha ih := iha.append ih

theorem selected_within {c : Option SelectClause} {supply supply' : Supply}
    {r : Bool × List Sql.SelectItem} (h : s.selected m c supply = .ok r supply') :
    Within (groupsOf s.spaces) (Sql.Selection.referencesOfAll r.2) := by
  cases c with
  | none =>
    obtain ⟨_, _, hv, rfl, -⟩ := selected_none h
    exact (elementValue_within hv).append (.nil _)
  | some c => exact items_refer_within.items (selected_some h).2

theorem ordered_within {keys : Option (List SortKey)} {supply supply' : Supply}
    {r : List Sql.SortKey} (h : s.ordered m keys supply = .ok r supply') :
    Within (groupsOf s.spaces) (r.flatMap (·.expression.references)) := by
  rw [ordered_eq] at h
  refine EStateM.mapM_cases (P := fun _ _ vs _ =>
    Within (groupsOf s.spaces) (vs.flatMap (·.expression.references))) (.nil _) (fun hk ih => ?_) h
  exact (expression_within (sortKey_ok hk).1).append ih

theorem assignments_within {es : List Assignment} {supply supply' : Supply}
    {vs : List Sql.Assignment} (h : es.mapM (s.assignment m) supply = .ok vs supply') :
    Within (groupsOf s.spaces) (vs.flatMap Sql.Assignment.references) := by
  refine EStateM.mapM_cases (P := fun _ _ vs _ =>
    Within (groupsOf s.spaces) (vs.flatMap Sql.Assignment.references)) (.nil _) (fun ha ih => ?_) h
  obtain ⟨target, ht, hcolumns, hv⟩ := assignment_ok ha
  have htarget := path_within ht
  rw [← Sql.Expression.references_parts, ← hcolumns] at htarget
  exact (htarget.append (expression_within hv)).append ih

/-! ## Joined groups -/

/-- What ties a group to the from-elements before it refers to it and to their groups. -/
theorem joinedGroup_within {source : JoinSource} {base : String} {joined : JoinedGroup}
    (h : s.joinedGroup m source base = .ok joined) :
    Within (groupsOf s.spaces ++ [joined.group]) (Sql.Predicate.referencesOf joined.predicate) := by
  have association {r : ResolvedPath} {a : SingularAttribute}
      (h : s.associationGroup m r a base = .ok joined) :
      Within (groupsOf s.spaces ++ [joined.group])
        (Sql.Predicate.referencesOf joined.predicate) := by
    simp only [associationGroup, Except.bind_eq_ok, Except.pure_eq_ok] at h
    obtain ⟨name, -, target, -, group, -, owner, ho, lhs, hl, rhs, hr, predicate, hp, rfl⟩ := h
    refine Metamodel.matching_within (lookedUp_ok hp) ?_ ?_
    · exact (Metamodel.columnsAt_within (lookedUp_ok hl)).of_mem
        (List.mem_append_left _ (mem_groupsOf_of_group ho))
    · exact (Metamodel.columnsAt_within (lookedUp_ok hr)).of_mem (by simp)
  cases source with
  | entity name =>
    simp only [joinedGroup, Except.bind_eq_ok, Except.pure_eq_ok] at h
    obtain ⟨e, -, group, -, rfl⟩ := h
    exact .nil _
  | attributeOf start dotted =>
    simp only [joinedGroup, attributeGroup, Except.bind_eq_ok] at h
    obtain ⟨r, -, h⟩ := h
    split at h
    · split at h
      · exact association h
      · exact association h
      · cases h
      · cases h
      · cases h
    · simp only [pluralGroup, Except.bind_eq_ok, Except.pure_eq_ok] at h
      obtain ⟨group, -, owner, ho, predicate, hp, rfl⟩ := h
      refine Metamodel.keyPredicate_within (lookedUp_ok hp) (by simp) ?_
      exact (elementValue_within ho).mono (List.subset_append_left _ _)
    · cases h

variable {t : Scope} {e : FromElement} {l : GroupLocator}

theorem HasElement.tie_within (h : t.HasElement m e l) :
    Within (groupsOf t.spaces) (Sql.Predicate.referencesOf (tieAt? t.spaces l)) := by
  obtain ⟨s, joined, condition, supply, supply', he, hc, htie⟩ := h
  have hj := (joinedGroup_within he.built).mono he.groups.subset
  have hcond := condition_within hc
  rw [htie, Sql.Predicate.referencesOf_conjunction, List.flatMap_append]
  refine Within.append ?_ ?_
  · cases hp : joined.predicate with
    | none => exact .nil _
    | some p => simpa [hp, Sql.Predicate.referencesOf] using hj
  · cases hp : condition with
    | none => exact .nil _
    | some p => simpa [hp, Sql.Predicate.referencesOf] using hcond

/-- What ties a from-element without a condition refers to its group and to those before it. -/
theorem HasElement.tie_before (h : t.HasElement m e l) (hn : e.condition = none) {k : Nat}
    (hk : (places t.spaces)[k]? = some l) :
    Within ((groupsOf t.spaces).take (k + 1))
      (Sql.Predicate.referencesOf (tieAt? t.spaces l)) := by
  obtain ⟨s, joined, condition, supply, supply', he, hc, htie⟩ := h
  have hnone : condition = none := by
    rw [hn] at hc
    exact (EStateM.pure_eq_ok.1 hc).1.symm
  have htie' : tieAt? t.spaces l = joined.predicate := by
    rw [htie, hnone]
    cases joined.predicate <;> rfl
  obtain ⟨hgroup, hbefore⟩ := he.position hk
  have htake : (groupsOf t.spaces).take (k + 1) = groupsOf s.spaces ++ [joined.group] := by
    rw [List.take_add_one, hgroup, hbefore]
    rfl
  rw [htie', htake]
  exact joinedGroup_within he.built

end Scope

theorem fromClause_within {spaces : List Sql.TableSpace}
    (hg : ∀ g ∈ groupsOf spaces, Within [g] (Sql.TableGroup.references g))
    (ht : ∀ l ∈ places spaces,
      Within (groupsOf spaces) (Sql.Predicate.referencesOf (tieAt? spaces l))) :
    Within (groupsOf spaces) (Sql.FromClause.references ⟨spaces⟩) := by
  have hgroup {g : Sql.TableGroup} (hmem : g ∈ groupsOf spaces) :
      Within (groupsOf spaces) (Sql.TableGroup.references g) := (hg g hmem).of_mem hmem
  refine Within.flatMap fun s hs => Within.append ?_ (Within.flatMap fun j hj => Within.append ?_ ?_)
  · exact hgroup (List.mem_flatMap.2 ⟨s, hs, List.mem_cons_self⟩)
  · exact hgroup (List.mem_flatMap.2 ⟨s, hs, List.mem_cons_of_mem _ (List.mem_map_of_mem hj)⟩)
  · have hjoin : j ∈ spaces.flatMap (·.joins) := List.mem_flatMap.2 ⟨s, hs, hj⟩
    rw [← places_filterMap_joinAt] at hjoin
    obtain ⟨l, hl, hat⟩ := List.mem_filterMap.1 hjoin
    have htie := ht l hl
    rwa [tieAt?, hat, Option.bind_some] at htie

/-! ## Subqueries -/

/-- A subquery over a collection refers to its own group and to those of the owner, and selects from
its own group. -/
theorem collectionQuery_within {m : Metamodel} {p : PluralAttribute} {owner : Sql.Expression}
    {selected : Selected} {base : String} {q : Sql.Query} {groups : List Sql.TableGroup}
    (h : collectionQuery m p owner selected base = .ok q) (ho : Within groups owner.references) :
    ∃ g, q.fromClause.groups = [g] ∧ Within [g] (Sql.TableGroup.references g) ∧
      Within [g] (Sql.Selection.referencesOfAll q.selections) ∧
      Within (g :: groups) (Sql.Query.references q) := by
  obtain ⟨g, predicate, value, hg, hp, hv, rfl⟩ := collectionQuery_parts h
  have hgroup := Metamodel.collectionGroup_within hg
  have hvalue : Within [g] (Sql.Selection.referencesOfAll [⟨.expression value, none⟩]) := by
    refine Within.append ?_ (.nil _)
    cases selected with
    | key => exact Metamodel.keyValue_within hv
    | element => exact Metamodel.elementValue_within hv
  have hpredicate := Metamodel.keyPredicate_within hp List.mem_cons_self
    (ho.mono (List.subset_cons_self g groups))
  refine ⟨g, rfl, hgroup, hvalue, ?_⟩
  refine Within.append (Within.append (Within.append ?_ ?_) hpredicate) (.nil _)
  · exact hvalue.of_mem List.mem_cons_self
  · have hfrom : Sql.FromClause.references ⟨[⟨g, []⟩]⟩ = Sql.TableGroup.references g := by
      simp [Sql.FromClause.references, Sql.TableSpace.references]
    rw [hfrom]
    exact hgroup.of_mem List.mem_cons_self

theorem Scope.Answers.within {s : Scope} {m : Metamodel} {bases bases' : AliasBases}
    {ts : List CollectionTest} {qs : List Sql.Query} (h : s.Answers m bases ts qs bases') :
    ∀ q ∈ qs, ∃ g, q.fromClause.groups = [g] ∧ Within [g] (Sql.TableGroup.references g) ∧
      Within [g] (Sql.Selection.referencesOfAll q.selections) ∧
      Within (g :: groupsOf s.spaces) (Sql.Query.references q) := by
  induction h with
  | nil => simp
  | cons first _ ih =>
    obtain ⟨p, owner, ho, hq⟩ := first
    refine List.forall_mem_cons.2 ⟨collectionQuery_within hq ?_, ih⟩
    obtain ⟨r, -, ho⟩ := Except.bind_eq_ok.1 ho
    split at ho
    · simp only [Except.bind_eq_ok, Except.pure_eq_ok, Prod.mk.injEq] at ho
      obtain ⟨value, hv, rfl, rfl⟩ := ho
      exact elementValue_within hv
    · cases ho

/-! ## Statements -/

/-- The clauses of a lowered statement refer to the groups in scope, once its from clause does. -/
theorem Scope.Clauses.within {t : Scope} {m : Metamodel} {s : Statement} {out : Sql.Statement}
    (h : t.Clauses m s out)
    (hf : Within (groupsOf t.spaces) (Sql.FromClause.references out.fromClause)) :
    Within (groupsOf t.spaces) (Sql.Statement.references out) := by
  match s, out, h with
  | .select q, .select out, ⟨_, _, _, _, hs, hc, ho⟩ =>
    exact (((selected_within hs).append hf).append (condition_within hc)).append (ordered_within ho)
  | .update u, .update out, ⟨_, _, _, ha, hc⟩ =>
    exact (hf.append (assignments_within ha)).append (condition_within hc)
  | .delete d, .delete out, ⟨_, _, hc⟩ => exact hf.append (condition_within hc)

/-- References stay in scope. Outside of subqueries, all columns that a lowered statement refers to
belong to groups of its from clause. A subquery has one group and no subqueries of its own; what it
refers to belongs to that group or to one of the from clause, and what it selects belongs to that
group. What ties the tables of a group together refers to that group. And what ties a from-element
whose join has no condition refers to its own group and to those of the from-elements before it. -/
theorem references_in_scope {settings : Settings} {m : Metamodel} {s : Statement} {l : Lowered}
    (h : lowerWith settings m s = .ok l) :
    Within l.statement.fromClause.groups (Sql.Statement.references l.statement) ∧
    (∀ q ∈ Sql.Statement.subqueries l.statement, ∃ g, q.fromClause.groups = [g] ∧
      Sql.Query.subqueries q = [] ∧
      Within (g :: l.statement.fromClause.groups) (Sql.Query.references q) ∧
      Within [g] (Sql.Selection.referencesOfAll q.selections) ∧
      Within [g] (Sql.TableGroup.references g)) ∧
    (∀ g ∈ l.statement.fromClause.groups, Within [g] (Sql.TableGroup.references g)) ∧
    ∀ k e place, s.fromElements[k]? = some e → e.condition = none →
      (placesFrom 0 s.joins)[k]? = some place →
      groupAt? l.statement.fromClause.spaces place = l.statement.fromClause.groups[k]? ∧
      Within (l.statement.fromClause.groups.take (k + 1))
        (Sql.Predicate.referencesOf (tieAt? l.statement.fromClause.spaces place)) := by
  have hr := lowerWith_registers h
  have helements := lowerWith_elements h
  obtain ⟨bases, bases', -, -, ha⟩ := lowerWith_answers h
  have hgroups : ∀ g ∈ l.statement.fromClause.groups, Within [g] (Sql.TableGroup.references g) := by
    intro g hg
    obtain ⟨source, hs⟩ := hr.group_stands hg
    exact hs.within
  refine ⟨(lowerWith_clauses h).within (fromClause_within hgroups ?_), ?_, hgroups, ?_⟩
  · intro place hplace
    obtain ⟨e, -, he⟩ := helements.exists_left hplace
    exact he.tie_within
  · intro q hq
    obtain ⟨g, hg, hgroup, hselected, hquery⟩ := ha.within q hq
    exact ⟨g, hg, ha.plain q hq, hquery, hselected, hgroup⟩
  · intro k e place he hn hk
    rw [← hr.shaped] at hk
    have hat := List.forall₂_iff_get.1 helements
    obtain ⟨hlt, rfl⟩ := List.getElem?_eq_some_iff.1 he
    obtain ⟨hlt', hplace⟩ := List.getElem?_eq_some_iff.1 hk
    have hentry := hat.2 k hlt hlt'
    simp only [List.get_eq_getElem] at hentry
    rw [show (places l.scope.spaces)[k] = place from hplace] at hentry
    exact ⟨groupAt?_of_place hk, hentry.tie_before hn hk⟩

/-- Authors with their books that have no tags. -/
def untagged : Statement :=
  .select ⟨⟨[⟨⟨"Author", some "a"⟩, [⟨some "b", .inner, .attributeOf "a" "books", false, none⟩]⟩]⟩,
    none, some (.isEmpty ⟨"b", ["tags"]⟩ false), none⟩

theorem references_of_untagged_in_scope : ∃ l, lowerWith .default library untagged = .ok l ∧
    (Sql.Statement.references l.statement).map (·.variableName) = ["j1_0", "j2_0", "j1_0"] ∧
    Within l.statement.fromClause.groups (Sql.Statement.references l.statement) ∧
    (∃ q ∈ Sql.Statement.subqueries l.statement, ∃ g, q.fromClause.groups = [g] ∧
      Within [g] (Sql.Selection.referencesOfAll q.selections)) ∧
    Within (l.statement.fromClause.groups.take 2)
      (Sql.Predicate.referencesOf (tieAt? l.statement.fromClause.spaces ⟨0, .join 0⟩)) := by
  obtain ⟨l, hl⟩ := Except.exists_ok_of_isSome
    (by decide +kernel : (lowerWith .default library untagged).toOption.isSome)
  obtain ⟨hreferences, hsubqueries, -, hties⟩ := references_in_scope hl
  have hvariables : ((lowerWith .default library untagged).toOption.map fun l =>
      ((Sql.Statement.references l.statement).map (·.variableName),
        (Sql.Statement.subqueries l.statement).length)) =
      some (["j1_0", "j2_0", "j1_0"], 1) := by decide +kernel
  rw [hl] at hvariables
  obtain ⟨hnames, hone⟩ := Prod.mk.inj (Option.some.inj hvariables)
  obtain ⟨q, hq⟩ := List.length_eq_one_iff.1 hone
  have hmem : q ∈ Sql.Statement.subqueries l.statement := by simp [hq]
  obtain ⟨g, hg, -, -, hselected, -⟩ := hsubqueries q hmem
  refine ⟨l, hl, hnames, hreferences, ⟨q, hmem, g, hg, hselected⟩, ?_⟩
  exact (hties 1 ⟨.attributeOf "a" "books", none⟩ ⟨0, .join 0⟩ rfl rfl rfl).2

end EntityQuery
