import EntityQuery.Proofs.Translation
import EntityQuery.Proofs.TwoRuns

/-!
# Groups under other variables

The alias bases and identification variables of a statement can be replaced by others, wherever they
stand (`Sql.Statement.rename`). Nothing else of a statement is made from them, so a group that is
made under another alias base is the renamed group (`Metamodel.collectionGroup_rename`), and values
read off a renamed group are renamed values.
-/

set_option autoImplicit false

namespace EntityQuery

/-! ## Renaming -/

namespace Sql

variable (f : String → String)

def ColumnReference.rename (c : ColumnReference) : ColumnReference :=
  { c with variableName := f c.variableName }

def TableUse.rename (t : TableUse) : TableUse := { t with variableName := f t.variableName }

namespace Expression

mutual
/-- An expression over tables with other variables. -/
def rename : Expression → Expression
  | .column reference => .column (reference.rename f)
  | .tuple parts type => .tuple (renameAll parts) type
  | .literal value => .literal value
  | .parameter p => .parameter p
  | .entityType name => .entityType name
  | .unary operator operand type => .unary operator operand.rename type
  | .arithmetic lhs operator rhs type => .arithmetic lhs.rename operator rhs.rename type
  | .concatenation lhs rhs type => .concatenation lhs.rename rhs.rename type
  | .function name arguments result => .function name (renameAll arguments) result
def renameAll : List Expression → List Expression
  | [] => []
  | e :: es => e.rename :: renameAll es
end

end Expression

def SortKey.rename (k : SortKey) : SortKey := { k with expression := k.expression.rename f }

namespace Predicate

mutual
/-- A predicate over tables with other variables, also within its subqueries. -/
def rename : Predicate → Predicate
  | .junction kind ps => .junction kind (renameAll ps)
  | .grouped inner => .grouped (rename inner)
  | .negated inner => .negated (rename inner)
  | .comparison lhs operator rhs => .comparison (lhs.rename f) operator (rhs.rename f)
  | .between subject lower upper isNegated =>
    .between (subject.rename f) (lower.rename f) (upper.rename f) isNegated
  | .like subject pattern escape isNegated =>
    .like (subject.rename f) (pattern.rename f) (escape.map (·.rename f)) isNegated
  | .nullness subject isNegated => .nullness (subject.rename f) isNegated
  | .nonempty subquery isNegated => .nonempty (renameQuery subquery) isNegated
  | .among subject subquery isNegated =>
    .among (subject.rename f) (renameQuery subquery) isNegated
def renameAll : List Predicate → List Predicate
  | [] => []
  | p :: ps => rename p :: renameAll ps
/-- A predicate that may be missing, over tables with other variables. -/
def renameOption : Option Predicate → Option Predicate
  | none => none
  | some p => some (rename p)
/-- A query with other alias bases and variables. -/
def renameQuery : QueryOf Predicate → QueryOf Predicate
  | ⟨distinct, selections, ⟨spaces⟩, predicate, order⟩ =>
    ⟨distinct, SelectionOf.mapItems (·.rename f) selections, ⟨renameSpaces spaces⟩,
      renameOption predicate, order.map (·.rename f)⟩
def renameSpaces : List (TableSpaceOf Predicate) → List (TableSpaceOf Predicate)
  | [] => []
  | ⟨root, joins⟩ :: rest => ⟨renameGroup root, renameJoins joins⟩ :: renameSpaces rest
def renameJoins : List (GroupJoinOf Predicate) → List (GroupJoinOf Predicate)
  | [] => []
  | ⟨joinType, group, predicate, fetched⟩ :: rest =>
    ⟨joinType, renameGroup group, renameOption predicate, fetched⟩ :: renameJoins rest
/-- A group with another alias base and other variables. -/
def renameGroup : TableGroupOf Predicate → TableGroupOf Predicate
  | ⟨aliasBase, kind, rootTable, tableJoins, elementOffset⟩ =>
    ⟨f aliasBase, kind, rootTable.rename f, renameTableJoins tableJoins, elementOffset⟩
def renameTableJoins : List (TableJoinOf Predicate) → List (TableJoinOf Predicate)
  | [] => []
  | ⟨joinType, table, predicate⟩ :: rest =>
    ⟨joinType, table.rename f, renameOption predicate⟩ :: renameTableJoins rest
end

end Predicate

/-- A joined group with another alias base and other variables. -/
def GroupJoinOf.rename (j : GroupJoin) : GroupJoin :=
  ⟨j.joinType, Predicate.renameGroup f j.group, j.predicate.map (·.rename f), j.fetched⟩

/-- A space with other alias bases and variables. -/
def TableSpaceOf.rename (s : TableSpace) : TableSpace :=
  ⟨Predicate.renameGroup f s.root, s.joins.map (·.rename f)⟩

def FromClauseOf.rename (c : FromClause) : FromClause := ⟨c.spaces.map (·.rename f)⟩

def Assignment.rename (a : Assignment) : Assignment :=
  ⟨a.columns.map (·.rename f), a.value.rename f⟩

/-- A statement with other alias bases and variables. -/
def Statement.rename : Statement → Statement
  | .select s => .select ⟨Predicate.renameQuery f s.query, s.parameters⟩
  | .update u => .update ⟨u.fromClause.rename f, u.assignments.map (·.rename f),
      u.predicate.map (·.rename f), u.parameters⟩
  | .delete d => .delete ⟨d.fromClause.rename f, d.predicate.map (·.rename f), d.parameters⟩

/-! ## Parts of renamed statements -/

section

variable {f : String → String}

theorem Expression.renameAll_eq (es : List Expression) : renameAll f es = es.map (rename f) := by
  induction es with
  | nil => simp only [renameAll, List.map_nil]
  | cons e es ih => simp only [renameAll, List.map_cons, ih]

@[simp] theorem Expression.type_rename (e : Expression) : (e.rename f).type = e.type := by
  cases e <;> simp only [rename, type]
  rfl

@[simp] theorem Expression.parts_rename (e : Expression) :
    (e.rename f).parts = e.parts.map (rename f) := by
  cases e <;> simp only [rename, parts, renameAll_eq, List.map_cons, List.map_nil]

theorem Expression.ofColumns_rename (cs : List ColumnReference) (type : Option DomainType) :
    (ofColumns cs type).rename f = ofColumns (cs.map (·.rename f)) type := by
  match cs with
  | [] => simp only [ofColumns, rename, List.map_nil, renameAll]
  | [c] => simp only [ofColumns, rename, ColumnReference.rename, List.map_cons, List.map_nil]
  | c :: c' :: cs =>
    simp only [ofColumns, rename, renameAll_eq, List.map_cons, List.map_map, Function.comp_def]

namespace Predicate

theorem renameAll_eq (ps : List Predicate) : renameAll f ps = ps.map (rename f) := by
  induction ps with
  | nil => simp only [renameAll, List.map_nil]
  | cons p ps ih => simp only [renameAll, List.map_cons, ih]

theorem renameOption_eq (p : Option Predicate) : renameOption f p = p.map (rename f) := by
  cases p <;> simp only [renameOption, Option.map_none, Option.map_some]

theorem renameTableJoins_eq (js : List TableJoin) : renameTableJoins f js =
    js.map fun j => ⟨j.joinType, j.table.rename f, j.predicate.map (rename f)⟩ := by
  induction js with
  | nil => simp only [renameTableJoins, List.map_nil]
  | cons j js ih => simp only [renameTableJoins, List.map_cons, ih, renameOption_eq]

theorem renameGroup_eq (g : TableGroup) : renameGroup f g =
    ⟨f g.aliasBase, g.kind, g.rootTable.rename f, g.tableJoins.map fun j =>
      ⟨j.joinType, j.table.rename f, j.predicate.map (rename f)⟩, g.elementOffset⟩ := by
  cases g
  simp only [renameGroup, renameTableJoins_eq]

theorem renameJoins_eq (js : List GroupJoin) : renameJoins f js = js.map (·.rename f) := by
  induction js with
  | nil => simp only [renameJoins, List.map_nil]
  | cons j js ih => simp only [renameJoins, List.map_cons, ih, GroupJoinOf.rename, renameOption_eq]

theorem renameSpaces_eq (ss : List TableSpace) : renameSpaces f ss = ss.map (·.rename f) := by
  induction ss with
  | nil => simp only [renameSpaces, List.map_nil]
  | cons s ss ih => simp only [renameSpaces, List.map_cons, ih, TableSpaceOf.rename, renameJoins_eq]

theorem renameQuery_eq (q : Query) : renameQuery f q =
    ⟨q.distinct, SelectionOf.mapItems (·.rename f) q.selections, q.fromClause.rename f,
      q.predicate.map (rename f), q.order.map (·.rename f)⟩ := by
  obtain ⟨_, _, ⟨_⟩, _, _⟩ := q
  simp only [renameQuery, renameSpaces_eq, renameOption_eq, FromClauseOf.rename]

theorem conjunction_rename (ps : List Predicate) :
    (conjunction ps).map (rename f) = conjunction (ps.map (rename f)) := by
  match ps with
  | [] => rfl
  | [p] => rfl
  | p :: p' :: ps => simp only [conjunction, Option.map_some, rename, renameAll_eq, List.map_cons]

theorem equality_rename (lhs rhs : List Expression) :
    (equality lhs rhs).map (rename f) =
      equality (lhs.map (·.rename f)) (rhs.map (·.rename f)) := by
  unfold equality
  rw [conjunction_rename, List.map_zipWith, List.zipWith_map]
  simp only [rename]

end Predicate

variable (g : TableGroup)

@[simp] theorem aliasBase_renameGroup : (Predicate.renameGroup f g).aliasBase = f g.aliasBase := by
  rw [Predicate.renameGroup_eq]

@[simp] theorem elementOffset_renameGroup :
    (Predicate.renameGroup f g).elementOffset = g.elementOffset := by
  rw [Predicate.renameGroup_eq]

theorem tables_renameGroup : (Predicate.renameGroup f g).tables = g.tables.map (·.rename f) := by
  simp only [Predicate.renameGroup_eq, TableGroupOf.tables, List.map_cons, List.map_map,
    Function.comp_def]

theorem table?_renameGroup (position : Nat) :
    (Predicate.renameGroup f g).table? position = (g.table? position).map (·.rename f) := by
  simp only [TableGroupOf.table?, tables_renameGroup, List.getElem?_map]

theorem use?_renameGroup (id : TableId) :
    (Predicate.renameGroup f g).use? id = (g.use? id).map (·.rename f) := by
  simp only [TableGroupOf.use?, tables_renameGroup, List.find?_map, Function.comp_def,
    TableUse.rename]

end

end Sql

theorem groupAt?_rename {f : String → String} (spaces : List Sql.TableSpace) (l : GroupLocator) :
    groupAt? (spaces.map (·.rename f)) l =
      (groupAt? spaces l).map (Sql.Predicate.renameGroup f) := by
  unfold groupAt?
  rw [List.getElem?_map]
  cases spaces[l.space]? with
  | none => rfl
  | some s =>
    cases l.position with
    | root => rfl
    | join index =>
      simp only [Option.map_some, bind, Option.bind, Sql.TableSpaceOf.rename, List.getElem?_map]
      cases s.joins[index]? <;> rfl

/-! ## Errors -/

section

variable (f : String → String)

def Defect.rename : Defect → Defect
  | .columnOutside column aliasBase => .columnOutside column (f aliasBase)
  | .noTableAt aliasBase position => .noTableAt (f aliasBase) position
  | other => other

def MetamodelError.rename : MetamodelError → MetamodelError
  | .invalid defect => .invalid (defect.rename f)
  | other => other

/-- The error about another alias base, if it is about one. -/
def LoweringError.rename : LoweringError → LoweringError
  | .metamodel e => .metamodel (e.rename f)
  | other => other

end

/-! ## Groups -/

/-- The renaming takes an alias base and the variables of its group to those of another one. -/
structure RenamesBase (f : String → String) (old new : String) : Prop where
  base : f old = new
  tables : ∀ position, f (variableAt old position) = variableAt new position

namespace Metamodel

variable {f : String → String} {m : Metamodel} {base base' : String}

/-! What is looked up by name or role has nothing to do with alias bases. -/

theorem entity_rename (name : String) :
    m.entity name = (m.entity name).bimap (·.rename f) id := by
  unfold entity
  split <;> rfl

theorem collection_rename (role : String) :
    m.collection role = (m.collection role).bimap (·.rename f) id := by
  unfold collection
  split <;> rfl

theorem elementEntity_rename (p : PluralAttribute) :
    m.elementEntity p = (m.elementEntity p).bimap (·.rename f) id := by
  unfold elementEntity
  split
  · exact entity_rename _
  · rfl

theorem collectionTable_rename (p : PluralAttribute) :
    collectionTable p = (collectionTable p).bimap (·.rename f) id := by
  unfold collectionTable
  split <;> rfl

/-! Columns are read under the variable of their table. -/

theorem columnReference_rename (v : String) (id : ColumnId) : m.columnReference (f v) id =
    (m.columnReference v id).bimap (·.rename f) (·.rename f) := by
  unfold columnReference
  split <;> rfl

theorem columnReferences_rename (v : String) (ids : List ColumnId) :
    m.columnReferences (f v) ids =
      (m.columnReferences v ids).bimap (·.rename f) (List.map (·.rename f)) :=
  Except.mapM_bimap (columnReference_rename v) ids

theorem locatedReferences_rename (g : Sql.TableGroup) (ids : List ColumnId) :
    m.locatedReferences (Sql.Predicate.renameGroup f g) ids =
      (m.locatedReferences g ids).bimap (·.rename f) (List.map (·.rename f)) := by
  refine Except.mapM_bimap (fun id => ?_) ids
  unfold locatedReference
  rw [Sql.use?_renameGroup, Sql.aliasBase_renameGroup]
  cases g.use? id.table with
  | none => rfl
  | some use => exact columnReference_rename use.variableName id

theorem columnsAt_rename (g : Sql.TableGroup) (position : Nat) (ids : List ColumnId)
    (type : Option DomainType) : m.columnsAt (Sql.Predicate.renameGroup f g) position ids type =
      (m.columnsAt g position ids type).bimap (·.rename f) (·.rename f) := by
  unfold columnsAt
  rw [Sql.table?_renameGroup, Sql.aliasBase_renameGroup]
  cases g.table? position with
  | none => rfl
  | some use =>
    refine Except.bind_bimap (columnReferences_rename use.variableName ids) fun cs _ => ?_
    exact congrArg Except.ok (Sql.Expression.ofColumns_rename cs type).symm

theorem keyValue_rename (p : PluralAttribute) (g : Sql.TableGroup) :
    m.keyValue p (Sql.Predicate.renameGroup f g) =
      (m.keyValue p g).bimap (·.rename f) (·.rename f) :=
  Except.bind_bimap (locatedReferences_rename g _) fun cs _ =>
    congrArg Except.ok (Sql.Expression.ofColumns_rename cs none).symm

theorem elementValue_rename (p : PluralAttribute) (g : Sql.TableGroup) :
    m.elementValue p (Sql.Predicate.renameGroup f g) =
      (m.elementValue p g).bimap (·.rename f) (·.rename f) := by
  unfold elementValue
  rw [Sql.elementOffset_renameGroup]
  split
  · exact Except.bind_bimap (elementEntity_rename p) fun _ _ => columnsAt_rename ..
  · exact Except.bind_bimap (elementEntity_rename p) fun _ _ => columnsAt_rename ..
  · exact columnsAt_rename ..
  · exact columnsAt_rename ..
  · rfl

theorem matching_rename (role : String) (lhs rhs : Sql.Expression) :
    matching role (lhs.rename f) (rhs.rename f) =
      (matching role lhs rhs).bimap (·.rename f) (Option.map (·.rename f)) := by
  simp only [matching, Sql.Expression.parts_rename, List.length_map]
  split
  · exact congrArg Except.ok (Sql.Predicate.equality_rename lhs.parts rhs.parts).symm
  · rfl

theorem keyPredicate_rename (p : PluralAttribute) (g : Sql.TableGroup) (owner : Sql.Expression) :
    m.keyPredicate p (Sql.Predicate.renameGroup f g) (owner.rename f) =
      (m.keyPredicate p g owner).bimap (·.rename f) (Option.map (·.rename f)) :=
  Except.bind_bimap (keyValue_rename p g) fun keys _ => matching_rename p.role keys owner

section
variable (h : RenamesBase f base base')
include h

theorem tableUse_rename (position : Nat) (id : TableId) : m.tableUse base' position id =
    (m.tableUse base position id).bimap (·.rename f) (·.rename f) := by
  unfold tableUse
  split
  · exact congrArg (fun v => Except.ok (Sql.TableUse.mk id _ v)) (h.tables position).symm
  · rfl

theorem tableUses_rename : ∀ (position : Nat) (ids : List TableId), m.tableUses base' position ids =
    (m.tableUses base position ids).bimap (·.rename f) (List.map (·.rename f))
  | _, [] => rfl
  | position, id :: ids =>
    Except.bind_bimap (tableUse_rename h position id) fun _ _ =>
      Except.bind_bimap (tableUses_rename (position + 1) ids) fun _ _ => rfl

theorem entityGroup_rename (e : Entity) : m.entityGroup e base' =
    (m.entityGroup e base).bimap (·.rename f) (Sql.Predicate.renameGroup f) := by
  refine Except.bind_bimap (tableUse_rename h 0 _) fun root _ =>
    Except.bind_bimap (tableUses_rename h 1 _) fun more _ => congrArg Except.ok ?_
  simp [Sql.Predicate.renameGroup_eq, h.base]

theorem linkGroup_rename (p : PluralAttribute) (link : TableId) (e : Entity) :
    m.linkGroup p link e base' =
      (m.linkGroup p link e base).bimap (·.rename f) (Sql.Predicate.renameGroup f) := by
  refine Except.bind_bimap (tableUse_rename h 0 link) fun root _ =>
    Except.bind_bimap (tableUse_rename h 1 _) fun first _ =>
    Except.bind_bimap (columnReferences_rename root.variableName _) fun references _ =>
    Except.bind_bimap (columnReferences_rename first.variableName _) fun identifiers _ =>
    Except.bind_bimap (tableUses_rename h 2 _) fun more _ => congrArg Except.ok ?_
  simp [Sql.Predicate.renameGroup_eq, h.base, Sql.Predicate.equality_rename, Sql.Expression.rename,
    Function.comp_def]

theorem collectionGroup_rename (p : PluralAttribute) : m.collectionGroup p base' =
    (m.collectionGroup p base).bimap (·.rename f) (Sql.Predicate.renameGroup f) := by
  unfold collectionGroup
  cases p.element.kind with
  | oneToMany => exact Except.bind_bimap (elementEntity_rename p) fun e _ => entityGroup_rename h e
  | manyToMany =>
    exact Except.bind_bimap (collectionTable_rename p) fun link _ =>
      Except.bind_bimap (elementEntity_rename p) fun e _ => linkGroup_rename h p link e
  | basic | embeddable =>
    refine Except.bind_bimap (collectionTable_rename p) fun table _ =>
      Except.bind_bimap (tableUse_rename h 0 table) fun root _ => congrArg Except.ok ?_
    simp [Sql.Predicate.renameGroup_eq, h.base]
  | any => rfl

theorem collectionQuery_rename (p : PluralAttribute) (owner : Sql.Expression)
    (selected : Selected) : collectionQuery m p (owner.rename f) selected base' =
      (collectionQuery m p owner selected base).bimap (·.rename f)
        (Sql.Predicate.renameQuery f) := by
  have hquery (value : Sql.Expression) (g : Sql.TableGroup) (predicate : Option Sql.Predicate) :
      (⟨false, [⟨.expression (value.rename f), none⟩],
          ⟨[⟨Sql.Predicate.renameGroup f g, []⟩]⟩, predicate.map (·.rename f), []⟩ : Sql.Query) =
        Sql.Predicate.renameQuery f
          ⟨false, [⟨.expression value, none⟩], ⟨[⟨g, []⟩]⟩, predicate, []⟩ := by
    simp [Sql.Predicate.renameQuery_eq, Sql.FromClauseOf.rename, Sql.TableSpaceOf.rename,
      SelectionOf.mapItems, SelectionOf.map]
  refine Except.bind_bimap (collectionGroup_rename h p) fun g _ =>
    Except.bind_bimap (keyPredicate_rename p g owner) fun predicate _ => ?_
  cases selected with
  | key =>
    exact Except.bind_bimap (keyValue_rename p g) fun value _ =>
      congrArg Except.ok (hquery value g predicate)
  | element =>
    exact Except.bind_bimap (elementValue_rename p g) fun value _ =>
      congrArg Except.ok (hquery value g predicate)

end

end Metamodel

/-! ## Indexes -/

section

variable (f : String → String)

def GroupRef.rename (r : GroupRef) : GroupRef := { r with aliasBase := f r.aliasBase }

/-- The index of groups with other alias bases. -/
def FromIndex.rename (i : FromIndex) : FromIndex :=
  ⟨i.entries.map fun e => (e.1, e.2.rename f), by
    simpa only [aliases, List.map_map, Function.comp_def] using i.sorted⟩

def ResolvedPath.rename (r : ResolvedPath) : ResolvedPath := { r with ref := r.ref.rename f }

def JoinedGroup.rename (j : JoinedGroup) : JoinedGroup :=
  ⟨Sql.Predicate.renameGroup f j.group, j.source, j.predicate.map (·.rename f)⟩

/-- The same from-elements, whose groups have other alias bases and variables. -/
def Scope.rename (s : Scope) : Scope := ⟨s.index.rename f, s.spaces.map (·.rename f)⟩

end

namespace FromIndex

variable {f : String → String}

theorem find?_rename (i : FromIndex) (name : String) :
    (i.rename f).find? name = (i.find? name).map (·.rename f) := by
  simp only [find?, rename]
  induction i.entries with
  | nil => rfl
  | cons e es ih =>
    obtain ⟨other, ref⟩ := e
    simp only [List.map_cons, List.lookup_cons, ih]
    cases name == other <;> rfl

theorem resolve_rename (i : FromIndex) (name : String) :
    (i.rename f).resolve name = (i.resolve name).bimap (·.rename f) (·.rename f) := by
  unfold resolve
  rw [find?_rename]
  cases i.find? name <;> rfl

theorem insertEntry_rename (name : String) (ref : GroupRef) (es : List (String × GroupRef)) :
    (insertEntry name ref es).map (fun e => (e.1, e.2.rename f)) =
      insertEntry name (ref.rename f) (es.map fun e => (e.1, e.2.rename f)) := by
  induction es with
  | nil => rfl
  | cons e es ih =>
    simp only [insertEntry, List.map_cons]
    split
    · rfl
    · split
      · rfl
      · rw [List.map_cons, ih]

theorem add_rename (i : FromIndex) (name : String) (ref : GroupRef) :
    (i.rename f).add name (ref.rename f) =
      (i.add name ref).bimap (·.rename f) (·.rename f) := by
  unfold add
  rw [find?_rename]
  cases i.find? name with
  | some _ => rfl
  | none =>
    refine congrArg Except.ok ?_
    simp only [insert, rename, insertEntry_rename]

end FromIndex

/-! ## Paths -/

section

variable {f : String → String} {m : Metamodel}

theorem lookedUp_rename {α β : Type} {r : α → β} {x : Except MetamodelError α}
    {y : Except MetamodelError β} (h : y = x.bimap (·.rename f) r) :
    lookedUp y = (lookedUp x).bimap (·.rename f) r := by
  subst h
  cases x <;> rfl

theorem Metamodel.embeddable_rename (role : String) :
    m.embeddable role = (m.embeddable role).bimap (·.rename f) id := by
  unfold embeddable
  split <;> rfl

theorem Metamodel.find_rename (type : ManagedType) (name : String) :
    m.find type name = (m.find type name).bimap (·.rename f) id := by
  unfold find
  cases type with
  | entity entity =>
    refine Except.bind_bimap (entity_rename entity) fun e _ => ?_
    refine Except.bind_bimap (r := id) rfl fun found _ => ?_
    cases found <;> rfl
  | embeddable role =>
    refine Except.bind_bimap (embeddable_rename role) fun e _ => ?_
    refine Except.bind_bimap (r := id) rfl fun found _ => ?_
    cases found <;> rfl

theorem SingularAttribute.targetName_rename (a : SingularAttribute) :
    a.targetName = a.targetName.bimap (·.rename f) id := by
  unfold targetName
  split <;> rfl

theorem identifierAfter?_rename (a : SingularAttribute) (name : String) :
    identifierAfter? m a name = (identifierAfter? m a name).bimap (·.rename f) id := by
  refine Except.bind_bimap (lookedUp_rename a.targetName_rename) fun target _ =>
    Except.bind_bimap (lookedUp_rename (Metamodel.entity_rename target)) fun e _ => ?_
  dsimp only [id]
  cases e.find? name with
  | none => rfl
  | some found => cases found <;> rfl

/-- What a path reaches has nothing to do with alias bases, also where it fails. -/
theorem walk_rename (path : String) : ∀ (segments : List String) (type : ManagedType),
    walk m path type segments = (walk m path type segments).bimap (·.rename f) id
  | [], _ => rfl
  | [name], type =>
    Except.bind_bimap (lookedUp_rename (Metamodel.find_rename type name)) fun _ _ => rfl
  | name :: next :: rest, type => by
    unfold walk
    refine Except.bind_bimap (lookedUp_rename (Metamodel.find_rename type name)) fun found _ => ?_
    cases found with
    | plural p => rfl
    | singular a =>
      dsimp only [id]
      cases hk : a.kind with
      | embedded =>
        dsimp only
        cases a.attributeType with
        | embeddable role => exact walk_rename path (next :: rest) (.embeddable role)
        | _ => rfl
      | manyToOne | oneToOne =>
        dsimp only
        split
        · refine Except.bind_bimap (identifierAfter?_rename a next) fun identifier? _ => ?_
          cases identifier? <;> rfl
        · rfl
      | any => rfl
      | basic => rfl

end

namespace Scope

variable {f : String → String} {m : Metamodel} (s : Scope)

theorem group_rename (ref : GroupRef) : (s.rename f).group (ref.rename f) =
    (s.group ref).bimap (·.rename f) (Sql.Predicate.renameGroup f) := by
  unfold group
  simp only [rename, GroupRef.rename, groupAt?_rename]
  cases groupAt? s.spaces ref.locator <;> rfl

theorem start_rename (ref : GroupRef) (path : String) :
    (s.rename f).start m (ref.rename f) path = (s.start m ref path).bimap (·.rename f) id := by
  unfold start
  dsimp only [GroupRef.rename]
  cases ref.source with
  | entity name => rfl
  | collection role =>
    refine Except.bind_bimap (lookedUp_rename (Metamodel.collection_rename role)) fun p _ => ?_
    dsimp only [id]
    split
    · exact Except.bind_bimap (s.group_rename ref) fun g _ => by
        rw [Sql.elementOffset_renameGroup]
        rfl
    all_goals rfl

theorem resolve_rename (path : AttributePath) :
    (s.rename f).resolve m path = (s.resolve m path).bimap (·.rename f) (·.rename f) :=
  Except.bind_bimap (s.index.resolve_rename path.start) fun ref _ =>
    Except.bind_bimap (s.start_rename ref path.dotted) fun start _ =>
      Except.bind_bimap (walk_rename path.dotted path.segments start.1) fun _ _ => rfl

theorem pathValue_rename (r : ResolvedPath) :
    (s.rename f).pathValue m (r.rename f) = (s.pathValue m r).bimap (·.rename f) (·.rename f) := by
  refine Except.bind_bimap (s.group_rename r.ref) fun g _ => ?_
  dsimp only [ResolvedPath.rename]
  split
  · rfl
  · split
    · rfl
    · exact lookedUp_rename (Metamodel.columnsAt_rename ..)
  · exact lookedUp_rename (Metamodel.columnsAt_rename ..)

theorem elementValue_rename (ref : GroupRef) : (s.rename f).elementValue m (ref.rename f) =
    (s.elementValue m ref).bimap (·.rename f) (·.rename f) := by
  refine Except.bind_bimap (s.group_rename ref) fun g _ => ?_
  dsimp only [GroupRef.rename]
  split
  · exact Except.bind_bimap (lookedUp_rename (Metamodel.entity_rename _)) fun _ _ =>
      lookedUp_rename (Metamodel.columnsAt_rename ..)
  · exact Except.bind_bimap (lookedUp_rename (Metamodel.collection_rename _)) fun p _ =>
      lookedUp_rename (Metamodel.elementValue_rename p g)

theorem path_rename (p : AttributePath) :
    (s.rename f).path m p = (s.path m p).bimap (·.rename f) (·.rename f) :=
  Except.bind_bimap (s.resolve_rename p) fun r _ => s.pathValue_rename r

theorem owned_rename (collection : AttributePath) : (s.rename f).owned m collection =
    (s.owned m collection).bimap (·.rename f) (fun owned => (owned.1, owned.2.rename f)) := by
  refine Except.bind_bimap (s.resolve_rename collection) fun r _ => ?_
  dsimp only [ResolvedPath.rename]
  split
  · exact Except.bind_bimap (s.elementValue_rename r.ref) fun _ _ => rfl
  · rfl

theorem defaultSelection_rename : (s.rename f).defaultSelection m =
    (s.defaultSelection m).bimap (·.rename f)
      (fun item => ⟨item.selection.map (·.rename f), item.aliasName⟩) := by
  unfold defaultSelection
  simp only [rename, FromIndex.rename, List.find?_map, Function.comp_def, GroupRef.rename]
  cases s.index.entries.find? (·.2.locator = ⟨0, .root⟩) with
  | none => rfl
  | some entry =>
    refine Except.bind_bimap (s.elementValue_rename entry.2) fun v _ => congrArg Except.ok ?_
    simp only [SelectionOf.map]

section
variable {base base' : String} (h : RenamesBase f base base')
include h

theorem associationGroup_rename (r : ResolvedPath) (a : SingularAttribute) :
    (s.rename f).associationGroup m (r.rename f) a base' =
      (s.associationGroup m r a base).bimap (·.rename f) (·.rename f) :=
  Except.bind_bimap (lookedUp_rename a.targetName_rename) fun name _ =>
    Except.bind_bimap (lookedUp_rename (Metamodel.entity_rename name)) fun target _ =>
    Except.bind_bimap (lookedUp_rename (Metamodel.entityGroup_rename h target)) fun g _ =>
    Except.bind_bimap (s.group_rename r.ref) fun owner _ =>
    Except.bind_bimap (lookedUp_rename (Metamodel.columnsAt_rename owner ..)) fun lhs _ =>
    Except.bind_bimap (lookedUp_rename (Metamodel.columnsAt_rename g ..)) fun rhs _ =>
    Except.bind_bimap (lookedUp_rename (Metamodel.matching_rename a.role lhs rhs)) fun _ _ => rfl

theorem pluralGroup_rename (r : ResolvedPath) (p : PluralAttribute) :
    (s.rename f).pluralGroup m (r.rename f) p base' =
      (s.pluralGroup m r p base).bimap (·.rename f) (·.rename f) :=
  Except.bind_bimap (lookedUp_rename (Metamodel.collectionGroup_rename h p)) fun g _ =>
    Except.bind_bimap (s.elementValue_rename r.ref) fun owner _ =>
    Except.bind_bimap (lookedUp_rename (Metamodel.keyPredicate_rename p g owner)) fun _ _ => rfl

theorem attributeGroup_rename (path : AttributePath) :
    (s.rename f).attributeGroup m path base' =
      (s.attributeGroup m path base).bimap (·.rename f) (·.rename f) := by
  refine Except.bind_bimap (s.resolve_rename path) fun r _ => ?_
  dsimp only [ResolvedPath.rename]
  split
  · split
    · exact s.associationGroup_rename h r _
    · exact s.associationGroup_rename h r _
    all_goals rfl
  · exact s.pluralGroup_rename h r _
  · rfl

theorem joinedGroup_rename (source : JoinSource) : (s.rename f).joinedGroup m source base' =
    (s.joinedGroup m source base).bimap (·.rename f) (·.rename f) := by
  cases source with
  | entity name =>
    exact Except.bind_bimap (lookedUp_rename (Metamodel.entity_rename name)) fun e _ =>
      Except.bind_bimap (lookedUp_rename (Metamodel.entityGroup_rename h e)) fun _ _ => rfl
  | attributeOf start dotted => exact s.attributeGroup_rename h _

end

end Scope

end EntityQuery
