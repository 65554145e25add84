import EntityQuery.Proofs.ClausePairs
import EntityQuery.Proofs.CollectionTables
import EntityQuery.Proofs.Failures

/-!
# Faults that no statement leads to

Some errors say that the lowering or the metamodel is at fault, and not the statement: a
from-element without a group, a join outside all spaces, a result of the wrong kind, a collection
that is missing under the role of an attribute, a table or column that is not registered, a key
outside its group.
`internal_faults_unreachable`: over a metamodel that has been built, no statement fails with one of
them.

A clause fails for the statement's sake wherever every from-element in scope has its group
(`Scope.Grounded`). The steps of a pass keep that so, and a join condition is put off only for a
join that is there. A from-element is refused for its name only if the statement has that name twice
(`lowerWith_ordinary`). No conversion of an outcome fails where a pass makes one: the visit before it
has an outcome of the kind that is expected there. So the steps are followed with the conversions
taken out (`query_eq`, `statement_select`, …), and `Step.node_kind` says of each part of a statement
what kind its visit has.
-/

set_option autoImplicit false

namespace EStateM.Coupled

variable {ε σ α : Type} {P : ε → Prop} {x : EStateM ε σ α}

/-- A run beside itself tells what it fails with. -/
theorem of_failsWith (h : ∀ s, (x s).FailsWith P) :
    Coupled Eq (fun e _ => P e) (fun _ _ => True) x x := by
  refine ⟨fun {s t} hs => ?_⟩
  subst hs
  cases hx : x s with
  | ok a t => exact .ok ⟨trivial, rfl⟩
  | error e t => exact .error ((h s).error hx)

theorem failsWith {R : α → α → Prop} {s : σ} (h : Coupled Eq (fun e _ => P e) R x x) :
    (x s).FailsWith P := by
  refine ⟨fun he => ?_⟩
  have hrun := h.run (rfl : s = s)
  rw [he] at hrun
  cases hrun with
  | error related => exact related

end EStateM.Coupled

namespace EntityQuery

/-! ## Internal errors -/

/-- The error is about the metamodel itself: what it refers to is missing. -/
def MetamodelError.isInternal : MetamodelError → Bool
  | .unknownCollection _ => true
  | .invalid (.unregisteredTable _) => true
  | .invalid (.unregisteredColumn _) => true
  | .invalid (.columnOutside _ _) => true
  | _ => false

/-- The error is about the lowering or the metamodel, not about the statement. -/
def LoweringError.isInternal : LoweringError → Bool
  | .metamodel e => e.isInternal
  | .unexpected _ => true
  | _ => false

/-- The error is about what a clause names: neither internal nor about the names that from-elements
are given. -/
def LoweringError.isOrdinary : LoweringError → Bool
  | .duplicateAlias _ => false
  | e => !e.isInternal

/-- The error is an ordinary one, or that one of the given names stands among them twice. -/
def LoweringError.OrdinaryFor (names : List String) (e : LoweringError) : Prop :=
  e.isOrdinary ∨ ∃ name, e = .duplicateAlias name ∧ 2 ≤ names.count name

namespace LoweringError.OrdinaryFor

variable {names names' : List String} {e : LoweringError}

theorem mono (h : e.OrdinaryFor names) (hnames : names.Sublist names') : e.OrdinaryFor names' := by
  rcases h with h | ⟨name, rfl, htwice⟩
  · exact .inl h
  · exact .inr ⟨name, rfl, Nat.le_trans htwice (hnames.count_le name)⟩

theorem isInternal (h : e.OrdinaryFor names) : e.isInternal = false := by
  rcases h with h | ⟨name, rfl, -⟩
  · cases e with
    | metamodel e => simpa [isOrdinary] using h
    | unexpected fault => cases h
    | unknownFromElement | duplicateAlias | unsupportedJoin | invalidPath | notJoinable
    | emptyFromClause | invalidSettings => rfl
  · rfl

end LoweringError.OrdinaryFor

theorem lookedUp_ordinary {α : Type} {x : Except MetamodelError α}
    (h : x.FailsWith (·.isInternal = false)) : (lookedUp x).FailsWith (·.isOrdinary) := by
  cases x with
  | ok a => exact .of_ok rfl
  | error e =>
    refine .of_error ?_
    have hordinary : e.isInternal = false := h.error rfl
    simp [LoweringError.isOrdinary, LoweringError.isInternal, hordinary]

theorem settled_ordinary {α : Type} {x : Except LoweringError α} {supply : Supply}
    (h : x.FailsWith (·.isOrdinary)) : (settled x supply).FailsWith (·.isOrdinary) := by
  cases x with
  | ok a => exact .of_ok rfl
  | error e => exact .of_error (h.error rfl)

/-! ## Look-ups in the metamodel -/

namespace Metamodel

variable {m : Metamodel} {name : String}

theorem entity_ordinary : (m.entity name).FailsWith (·.isInternal = false) := by
  unfold entity
  split
  · exact .of_ok rfl
  · exact .of_error rfl

theorem embeddable_ordinary : (m.embeddable name).FailsWith (·.isInternal = false) := by
  unfold embeddable
  split
  · exact .of_ok rfl
  · exact .of_error rfl

theorem find_ordinary {type : ManagedType} :
    (m.find type name).FailsWith (·.isInternal = false) := by
  unfold find
  cases type with
  | entity entity =>
    refine .bind entity_ordinary fun _ => .bind (.of_ok rfl) fun {found} _ => ?_
    cases found with
    | some a => exact .of_ok rfl
    | none => exact .of_error rfl
  | embeddable role =>
    refine .bind embeddable_ordinary fun _ => .bind (.of_ok rfl) fun {found} _ => ?_
    cases found with
    | some a => exact .of_ok rfl
    | none => exact .of_error rfl

theorem elementEntity_ordinary {p : PluralAttribute} :
    (m.elementEntity p).FailsWith (·.isInternal = false) := by
  unfold elementEntity
  split
  · exact entity_ordinary
  · exact .of_error rfl

theorem matching_ordinary {role : String} {lhs rhs : Sql.Expression} :
    (matching role lhs rhs).FailsWith (·.isInternal = false) := by
  unfold matching
  split
  · exact .of_ok rfl
  · exact .of_error rfl

theorem columnsAt_ordinary {g : Sql.TableGroup} {position : Nat} {ids : List ColumnId}
    {type : Option DomainType} (h : m.database.Contains ids) :
    (m.columnsAt g position ids type).FailsWith (·.isInternal = false) := by
  unfold columnsAt
  split
  · rename_i use _
    obtain ⟨references, hr⟩ := columnReferences_of_contains h use.variableName
    exact .bind (.of_ok hr) fun _ => .of_ok rfl
  · exact .of_error rfl

namespace Complete

variable (h : m.Complete)
include h

theorem collectionGroup_ordinary {p : PluralAttribute} {base : String} (hs : p.Sound m)
    (hp : p.Placed m) : (m.collectionGroup p base).FailsWith (·.isInternal = false) := by
  by_cases hk : p.element.kind = .any
  · simp only [Metamodel.collectionGroup, hk]
    exact .of_error rfl
  · obtain ⟨g, hg⟩ := h.collectionGroup hs hp hk base
    exact .of_ok hg

theorem elementValue_ordinary {p : PluralAttribute} {g : Sql.TableGroup} (hs : p.Sound m) :
    (m.elementValue p g).FailsWith (·.isInternal = false) := by
  have hentity : (do
      let element ← m.elementEntity p
      m.columnsAt g g.elementOffset element.identifier.columns (some (.entity element.name))
        : Except MetamodelError Sql.Expression).FailsWith (·.isInternal = false) :=
    .bind elementEntity_ordinary fun he =>
      columnsAt_ordinary (h.identifier (mem_of_entity (elementEntity_ok he).2))
  unfold elementValue
  split
  · exact hentity
  · exact hentity
  · exact columnsAt_ordinary hs.elementColumns
  · exact columnsAt_ordinary hs.elementColumns
  · exact .of_error rfl

end Complete

theorem keyPredicate_ordinary {p : PluralAttribute} {base : String} {g : Sql.TableGroup}
    {owner : Sql.Expression} (hs : p.Sound m) (hp : p.Placed m)
    (hg : m.collectionGroup p base = .ok g) :
    (m.keyPredicate p g owner).FailsWith (·.isInternal = false) := by
  obtain ⟨references, hr, -⟩ := keyValue_of hs hp hg
  exact .bind (.of_ok hr) fun _ => matching_ordinary

theorem Complete.collectionQuery_ordinary (h : m.Complete) {p : PluralAttribute}
    {owner : Sql.Expression} {selected : Selected} {base : String} (hs : p.Sound m)
    (hp : p.Placed m) : (collectionQuery m p owner selected base).FailsWith
      (·.isInternal = false) := by
  unfold collectionQuery
  refine .bind (h.collectionGroup_ordinary hs hp) fun hg =>
    .bind (keyPredicate_ordinary hs hp hg) fun _ => ?_
  cases selected with
  | key =>
    obtain ⟨references, hr, -⟩ := keyValue_of hs hp hg
    exact .bind (.of_ok hr) fun _ => .of_ok rfl
  | element => exact .bind (h.elementValue_ordinary hs) fun _ => .of_ok rfl

end Metamodel

/-! ## Paths -/

theorem SingularAttribute.targetName_ordinary {a : SingularAttribute} :
    a.targetName.FailsWith (·.isInternal = false) := by
  unfold targetName
  split
  · exact .of_ok rfl
  · exact .of_error rfl

theorem identifierAfter?_ordinary {m : Metamodel} {a : SingularAttribute} {name : String} :
    (identifierAfter? m a name).FailsWith (·.isOrdinary) := by
  unfold identifierAfter?
  refine .bind (lookedUp_ordinary SingularAttribute.targetName_ordinary) fun _ =>
    .bind (lookedUp_ordinary Metamodel.entity_ordinary) fun _ => ?_
  split
  · exact .of_ok rfl
  · exact .of_ok rfl

/-- The end of a path behind an association. -/
theorem associated_ordinary {m : Metamodel} {path : String} {a : SingularAttribute} {next : String}
    {rest : List String} : (do
      let identifier? ← if rest.isEmpty then identifierAfter? m a next else pure none
      match identifier? with
      | some identifier => return .foreignKey a identifier
      | none => .error (.invalidPath path (.associationDereferenced a.role))
        : Except LoweringError PathTarget).FailsWith (·.isOrdinary) := by
  split
  · refine .bind identifierAfter?_ordinary fun {identifier?} _ => ?_
    cases identifier? with
    | some identifier => exact .of_ok rfl
    | none => exact .of_error rfl
  · exact .bind (.of_ok rfl) fun h => by cases h; exact .of_error rfl

theorem walk_ordinary {m : Metamodel} {path : String} :
    ∀ {segments : List String} {type : ManagedType},
      (walk m path type segments).FailsWith (·.isOrdinary)
  | [], _ => .of_error rfl
  | [_], _ => .bind (lookedUp_ordinary Metamodel.find_ordinary) fun _ => .of_ok rfl
  | name :: next :: rest, type => by
    unfold walk
    refine .bind (lookedUp_ordinary Metamodel.find_ordinary) fun _ => ?_
    split
    · exact .of_error rfl
    · rename_i a _
      split
      · split
        · exact walk_ordinary
        · exact .of_error rfl
      · exact associated_ordinary
      · exact associated_ordinary
      · exact .of_error rfl
      · exact .of_error rfl

/-- What a path ends with has been found in some type. -/
theorem walk_found {m : Metamodel} {path : String} {segments : List String} {target : PathTarget} :
    ∀ {type : ManagedType}, walk m path type segments = .ok target →
      ∃ type' name, match target with
        | .attributeOf a => m.find type' name = .ok a
        | .foreignKey association _ => m.find type' name = .ok (.singular association) := by
  induction segments with
  | nil => intro type h; simp [walk] at h
  | cons name rest ih =>
    intro type h
    obtain ⟨_, a, -, hf, rfl⟩ | ⟨_, _, a, heq, hf, ⟨_, -, -, hw⟩ | ⟨_, rfl⟩⟩ := walk_ok h
    · exact ⟨type, _, hf⟩
    · cases heq
      exact ih hw
    · exact ⟨type, _, hf⟩

theorem FromIndex.resolve_ordinary {index : FromIndex} {name : String} :
    (index.resolve name).FailsWith (·.isOrdinary) := by
  unfold FromIndex.resolve
  split
  · exact .of_ok rfl
  · exact .of_error rfl

namespace Scope

/-- Every from-element in scope has its group, and the group is one of what it ranges over. -/
structure Grounded (s : Scope) (m : Metamodel) : Prop where
  group : ∀ {name ref}, (name, ref) ∈ s.index.entries →
    ∃ g, s.group ref = .ok g ∧ m.Stands g ref.source

theorem Registers.grounded {s : Scope} {m : Metamodel} {stem : String} {joins : List Nat}
    {elements : List (Option String)} (h : s.Registers m stem joins elements) : s.Grounded m := by
  refine ⟨fun {name ref} hmem => ?_⟩
  obtain ⟨g, hg, -, hstands⟩ := h.stands (name, ref) hmem
  exact ⟨g, group_ok.2 hg, hstands⟩

theorem Grounded.congr {s t : Scope} {m : Metamodel} (h : s.Grounded m) (hi : t.index = s.index)
    (hg : groupAt? t.spaces = groupAt? s.spaces) : t.Grounded m := by
  refine ⟨fun {name ref} hmem => ?_⟩
  rw [hi] at hmem
  rw [group_congr hg]
  exact h.group hmem

section
variable {s : Scope} {m : Metamodel} {name : String} {ref : GroupRef} (hm : m.Complete)
  (hs : s.Grounded m)
include hm hs

theorem start_ordinary {path : String} (hmem : (name, ref) ∈ s.index.entries) :
    (s.start m ref path).FailsWith (·.isOrdinary) := by
  obtain ⟨g, hg, hstands⟩ := hs.group hmem
  unfold start
  cases hsource : ref.source with
  | entity entity => exact .of_ok rfl
  | collection role =>
    rw [hsource] at hstands
    obtain ⟨_, _, p, hf, rfl, -⟩ := hstands
    obtain ⟨q, hq⟩ := (hm.attributes hf).role
    refine .bind (lookedUp_ordinary (.of_ok hq)) fun _ => ?_
    split
    · exact .bind (.of_ok hg) fun _ => .of_ok rfl
    · exact .of_ok rfl
    · exact .of_ok rfl
    · exact .of_error rfl
    · exact .of_error rfl

theorem resolve_ordinary {path : AttributePath} :
    (s.resolve m path).FailsWith (·.isOrdinary) := by
  unfold resolve
  refine .bind FromIndex.resolve_ordinary fun hr => ?_
  have hmem := FromIndex.mem_of_find? (FromIndex.resolve_ok.1 hr)
  exact .bind (start_ordinary hm hs hmem) fun _ => .bind walk_ordinary fun _ => .of_ok rfl

theorem elementValue_ordinary (hmem : (name, ref) ∈ s.index.entries) :
    (s.elementValue m ref).FailsWith (·.isOrdinary) := by
  obtain ⟨g, hg, hstands⟩ := hs.group hmem
  unfold elementValue
  refine .bind (.of_ok hg) fun _ => ?_
  cases hsource : ref.source with
  | entity entity =>
    exact .bind (lookedUp_ordinary Metamodel.entity_ordinary) fun he => lookedUp_ordinary
      (Metamodel.columnsAt_ordinary (hm.identifier (Metamodel.mem_of_entity (lookedUp_ok he))))
  | collection role =>
    rw [hsource] at hstands
    obtain ⟨_, _, p, hf, rfl, -⟩ := hstands
    obtain ⟨q, hq⟩ := (hm.attributes hf).role
    refine .bind (lookedUp_ordinary (.of_ok hq)) fun hq' => lookedUp_ordinary ?_
    exact hm.elementValue_ordinary (hm.collections (lookedUp_ok hq'))

theorem path_ordinary {path : AttributePath} :
    (s.path m path).FailsWith (·.isOrdinary) := by
  unfold Scope.path
  refine .bind (resolve_ordinary hm hs) fun {r} hr => ?_
  obtain ⟨_, href, -, hw, -⟩ := resolve_ok hr
  obtain ⟨g, hg, -⟩ := hs.group (FromIndex.mem_of_find? (FromIndex.resolve_ok.1 href))
  obtain ⟨type, label, hfound⟩ := walk_found hw
  unfold pathValue
  refine .bind (.of_ok hg) fun _ => ?_
  cases ht : r.target with
  | attributeOf a =>
    rw [ht] at hfound
    cases a with
    | plural p => exact .of_error rfl
    | singular a =>
      dsimp only
      split
      · exact .of_error rfl
      · exact lookedUp_ordinary (Metamodel.columnsAt_ordinary (hm.attributes hfound).columns)
  | foreignKey association identifier =>
    rw [ht] at hfound
    exact lookedUp_ordinary (Metamodel.columnsAt_ordinary (hm.attributes hfound).columns)

theorem owned_ordinary {collection : AttributePath} :
    (s.owned m collection).FailsWith (·.isOrdinary) := by
  unfold owned
  refine .bind (resolve_ordinary hm hs) fun {r} hr => ?_
  obtain ⟨_, href, -, -, -⟩ := resolve_ok hr
  split
  · exact .bind (elementValue_ordinary hm hs (FromIndex.mem_of_find? (FromIndex.resolve_ok.1 href)))
      fun _ => .of_ok rfl
  · exact .of_error rfl

end

theorem owned_found {s : Scope} {m : Metamodel} {collection : AttributePath} {p : PluralAttribute}
    {owner : Sql.Expression} (h : s.owned m collection = .ok (p, owner)) :
    ∃ type name, m.find type name = .ok (.plural p) := by
  unfold owned at h
  obtain ⟨r, hr, h⟩ := Except.bind_eq_ok.1 h
  obtain ⟨_, -, -, hw, -⟩ := resolve_ok hr
  split at h
  · rename_i q hq
    obtain ⟨_, -, h⟩ := Except.bind_eq_ok.1 h
    cases h
    rw [hq] at hw
    exact walk_attribute hw
  · cases h

/-! ## Clauses -/

section
variable {s : Scope} {m : Metamodel} (hm : m.Complete) (hs : s.Grounded m)
include hm hs

theorem subquery_ordinary {collection : AttributePath} {selected : Selected} {supply : Supply} :
    (s.subquery m collection selected supply).FailsWith (·.isOrdinary) := by
  unfold subquery
  refine .bind (settled_ordinary (owned_ordinary hm hs)) fun {r _} hr => ?_
  refine .bind (.of_ok rfl) fun _ => ?_
  obtain ⟨p, owner⟩ := r
  obtain ⟨type, name, hf⟩ := owned_found (settled_ok.1 hr).1
  exact settled_ordinary (lookedUp_ordinary
    (hm.collectionQuery_ordinary (hm.attributes hf) (hm.placed hf)))

/-- Every clause, run beside itself: it fails where a from-element is read, and then for the
statement's sake. -/
theorem clauses_ordinary : PredicatePairs Eq (fun e _ => e.isOrdinary) (fun _ => True) id m s s
    (fun _ _ => True) (fun _ _ => True) (fun _ _ => True) where
  parameter _ _ := .of_failsWith fun _ => .of_ok rfl
  entityType _ := .of_failsWith fun _ =>
    settled_ordinary (lookedUp_ordinary Metamodel.entity_ordinary)
  unary _ := trivial
  path _ := .of_failsWith fun _ => settled_ordinary (path_ordinary hm hs)
  element _ := .of_failsWith fun _ => settled_ordinary (.bind FromIndex.resolve_ordinary fun hr =>
    elementValue_ordinary hm hs (FromIndex.mem_of_find? (FromIndex.resolve_ok.1 hr)))
  function _ := trivial
  literal _ := trivial
  concatenation _ _ := trivial
  enumConstant _ _ := trivial
  arithmetic _ _ := trivial
  subquery _ := .of_failsWith fun _ => subquery_ordinary hm hs
  grouped _ := trivial
  junction _ _ := trivial
  negated _ := trivial
  comparison _ _ := trivial
  nullness _ := trivial
  nonempty _ := trivial
  between _ _ _ := trivial
  like _ _ _ := trivial
  among _ _ := trivial

theorem selectClause_ordinary {c : SelectClause} {supply : Supply} :
    (s.selectClause m c supply).FailsWith (·.isOrdinary) := by
  have hitems : ItemPairs (fun _ _ => True) fun _ _ => True :=
    ⟨trivial, fun _ _ => trivial, fun _ _ => trivial⟩
  rw [selectClause_eq]
  exact .bind (hitems.items_id (clauses_ordinary hm hs).toExpressionPairs c.items).failsWith
    fun _ => .of_ok rfl

theorem defaultSelection_ordinary : (s.defaultSelection m).FailsWith (·.isOrdinary) := by
  unfold defaultSelection
  split
  · rename_i hf
    exact .bind (elementValue_ordinary hm hs (List.mem_of_find?_eq_some hf)) fun _ => .of_ok rfl
  · exact .of_error rfl

/-! ## Joins -/

theorem associationGroup_ordinary {path : AttributePath} {r : ResolvedPath} {a : SingularAttribute}
    {base : String} (hr : s.resolve m path = .ok r) (ht : r.target = .attributeOf (.singular a)) :
    (s.associationGroup m r a base).FailsWith (·.isOrdinary) := by
  obtain ⟨_, href, -, hw, -⟩ := resolve_ok hr
  obtain ⟨g, hg, -⟩ := hs.group (FromIndex.mem_of_find? (FromIndex.resolve_ok.1 href))
  rw [ht] at hw
  obtain ⟨type, name, hf⟩ := walk_attribute hw
  unfold associationGroup
  refine .bind (lookedUp_ordinary SingularAttribute.targetName_ordinary) fun _ =>
    .bind (lookedUp_ordinary Metamodel.entity_ordinary) fun {target} htarget => ?_
  have hmem := Metamodel.mem_of_entity (lookedUp_ok htarget)
  obtain ⟨joined, hjoined⟩ := hm.entityGroup hmem base
  exact .bind (lookedUp_ordinary (.of_ok hjoined)) fun _ => .bind (.of_ok hg) fun _ =>
    .bind (lookedUp_ordinary (Metamodel.columnsAt_ordinary (hm.attributes hf).columns)) fun _ =>
    .bind (lookedUp_ordinary (Metamodel.columnsAt_ordinary (hm.identifier hmem))) fun _ =>
    .bind (lookedUp_ordinary Metamodel.matching_ordinary) fun _ => .of_ok rfl

theorem pluralGroup_ordinary {path : AttributePath} {r : ResolvedPath} {p : PluralAttribute}
    {base : String} (hr : s.resolve m path = .ok r) (ht : r.target = .attributeOf (.plural p)) :
    (s.pluralGroup m r p base).FailsWith (·.isOrdinary) := by
  obtain ⟨_, href, -, hw, -⟩ := resolve_ok hr
  rw [ht] at hw
  obtain ⟨type, name, hf⟩ := walk_attribute hw
  have hsound := hm.attributes hf
  unfold pluralGroup
  have hmem := FromIndex.mem_of_find? (FromIndex.resolve_ok.1 href)
  refine .bind (lookedUp_ordinary (hm.collectionGroup_ordinary hsound (hm.placed hf))) fun hg => ?_
  refine .bind (elementValue_ordinary hm hs hmem) fun _ => ?_
  refine .bind (lookedUp_ordinary ?_) fun _ => .of_ok rfl
  exact Metamodel.keyPredicate_ordinary hsound (hm.placed hf) (lookedUp_ok hg)

theorem joinedGroup_ordinary {source : JoinSource} {base : String} :
    (s.joinedGroup m source base).FailsWith (·.isOrdinary) := by
  cases source with
  | entity name =>
    refine .bind (lookedUp_ordinary Metamodel.entity_ordinary) fun he => ?_
    obtain ⟨g, hg⟩ := hm.entityGroup (Metamodel.mem_of_entity (lookedUp_ok he)) base
    exact .bind (lookedUp_ordinary (.of_ok hg)) fun _ => .of_ok rfl
  | attributeOf start dotted =>
    refine .bind (resolve_ordinary hm hs) fun {r} hr => ?_
    cases ht : r.target with
    | attributeOf a =>
      cases a with
      | plural p => exact pluralGroup_ordinary hm hs hr ht
      | singular a =>
        dsimp only
        split
        · exact associationGroup_ordinary hm hs hr ht
        · exact associationGroup_ordinary hm hs hr ht
        · exact .of_error rfl
        · exact .of_error rfl
        · exact .of_error rfl
    | foreignKey association identifier => exact .of_error rfl

end

end Scope

/-! ## Steps -/

theorem FromIndex.add_error {index : FromIndex} {name : String} {ref : GroupRef}
    {e : LoweringError} (h : index.add name ref = .error e) :
    e = .duplicateAlias name ∧ name ∈ aliases index.entries := by
  unfold add at h
  split at h
  · rename_i hf
    cases h
    refine ⟨rfl, ?_⟩
    by_contra hmem
    rw [find?_eq_none.2 hmem] at hf
    cases hf
  · cases h

theorem JoinType.lower_ordinary {t : JoinType} : t.lower.FailsWith (·.isOrdinary) := by
  cases t with
  | inner | cross | left => exact .of_ok rfl
  | right | full => exact .of_error rfl

namespace Step

variable {m : Metamodel} {pass : Pass} {stem : String} {joins : List Nat}
  {elements : List (Option String)} {names : List String}

theorem lookup_ordinary {α : Type} {f : Scope → Except LoweringError α}
    (h : (f pass.scope).FailsWith (·.isOrdinary)) :
    (lookup f pass).FailsWith (·.OrdinaryFor names) := by
  unfold lookup
  split
  · exact .of_ok rfl
  · rename_i hf
    exact .of_error (.inl (h.error hf))

theorem clause_ordinary {α : Type} {f : Scope → Clause α}
    (h : (f pass.scope pass.supply).FailsWith (·.isOrdinary)) :
    (clause f pass).FailsWith (·.OrdinaryFor names) := by
  unfold clause
  split
  · exact .of_ok rfl
  · rename_i hf
    exact .of_error (.inl (h.error hf))

/-- A from-element is refused if its name is that of one before it. -/
theorem register_ordinary {element : Option String} {ref : GroupRef}
    (hr : pass.scope.Registers m stem joins elements) :
    (register (nameFor element (generatedFrom 0 elements)) ref pass).FailsWith
      (·.OrdinaryFor (namesFrom 0 (elements ++ [element]))) := by
  unfold register
  cases ha : pass.scope.index.add (nameFor element (generatedFrom 0 elements)) ref with
  | ok index => exact .of_ok rfl
  | error e =>
    obtain ⟨rfl, hmem⟩ := FromIndex.add_error ha
    refine .of_error (.inr ⟨_, rfl, ?_⟩)
    have hbefore := List.count_pos_iff.2 (hr.names.mem_iff.1 hmem)
    rw [namesFrom_snoc, List.count_append, List.count_singleton_self]
    omega

section
variable (hm : m.Complete)
include hm

theorem root_ordinary {r : Root} (hr : pass.Registers m stem joins elements) :
    (root m r pass).FailsWith (·.OrdinaryFor (namesFrom 0 (elements ++ [r.aliasName]))) := by
  unfold root
  refine .bind (.of_ok (aliasFor_eq _ _)) fun hname =>
    .bind (lookup_ordinary (lookedUp_ordinary Metamodel.entity_ordinary)) fun {e _} he =>
    .bind (.of_ok rfl) fun {base _} hbase => ?_
  obtain ⟨g, hg⟩ :=
    hm.entityGroup (Metamodel.mem_of_entity (lookedUp_ok (lookup_ok he).1)) base
  refine .bind (lookup_ordinary (lookedUp_ordinary (.of_ok hg))) fun hgroup =>
    .bind (.of_ok rfl) fun hget => .bind ?_ fun _ => .of_ok rfl
  -- nothing but the supply has changed before the name is entered
  cases (aliasFor_eq _ _).symm.trans hname
  obtain ⟨-, rfl⟩ := lookup_ok he
  obtain ⟨_, -, rfl⟩ := aliasBaseFor_ok hbase
  obtain ⟨-, rfl⟩ := lookup_ok hgroup
  obtain ⟨-, rfl⟩ := EStateM.get_eq_ok.1 hget
  rw [hr.generated]
  exact register_ordinary hr.scope

theorem join_ordinary {j : Join} {count : Nat}
    (hr : pass.Registers m stem (joins ++ [count]) elements) :
    (join m j pass).FailsWith (·.OrdinaryFor (namesFrom 0 (elements ++ [j.aliasName]))) := by
  unfold join
  refine .bind (lookup_ordinary JoinType.lower_ordinary) fun htype =>
    .bind ?_ fun hspace => .bind (.of_ok (aliasFor_eq _ _)) fun hname =>
    .bind (.of_ok rfl) fun hbase => .bind (lookup_ordinary ?_) fun hjoined =>
    .bind (.of_ok rfl) fun hget => .bind ?_ fun _ => .bind (.of_ok rfl) fun _ => ?_
  · obtain ⟨-, rfl⟩ := lookup_ok htype
    unfold openSpace
    split
    · rename_i hlength
      have hshape := hr.scope.shaped
      rw [List.length_eq_zero_iff.1 hlength] at hshape
      simp [shape] at hshape
    · exact .of_ok rfl
  · obtain ⟨-, rfl⟩ := lookup_ok htype
    obtain ⟨-, rfl⟩ := openSpace_ok hspace
    cases (aliasFor_eq _ _).symm.trans hname
    obtain ⟨_, -, rfl⟩ := aliasBaseFor_ok hbase
    exact Scope.joinedGroup_ordinary hm hr.scope.grounded
  · obtain ⟨-, rfl⟩ := lookup_ok htype
    obtain ⟨-, rfl⟩ := openSpace_ok hspace
    cases (aliasFor_eq _ _).symm.trans hname
    obtain ⟨_, -, rfl⟩ := aliasBaseFor_ok hbase
    obtain ⟨-, rfl⟩ := lookup_ok hjoined
    obtain ⟨-, rfl⟩ := EStateM.get_eq_ok.1 hget
    rw [hr.generated]
    exact register_ordinary hr.scope
  · cases j.condition with
    | none => exact .of_ok rfl
    | some condition => exact .of_ok rfl

theorem space_ordinary {s : Space} (hr : pass.Registers m stem joins elements) :
    (space m s pass).FailsWith (·.OrdinaryFor (namesFrom 0 (elements ++ s.elements))) := by
  rw [space_eq]
  refine .bind ((root_ordinary hm hr).mono fun e he => he.mono (namesFrom_sublist ?_)) fun hroot => ?_
  · simp [Space.elements]
  refine .forM (fun done p => Pass.Registers p m stem (joins ++ [done.length])
    (elements ++ s.root.aliasName :: done.map (·.aliasName))) ?_ ?_ ?_
  · intro _ j p p' _ hp hj
    simpa using join_registers hp hj
  · intro done j rest p hall hp
    refine (join_ordinary hm hp).mono fun e he => he.mono (namesFrom_sublist ?_)
    simp [Space.elements, hall]
  · simpa using root_registers hr hroot

theorem spaces_ordinary {spaces : List Space} (hr : pass.Registers m stem [] []) :
    (spaces.forM (space m) pass).FailsWith
      (·.OrdinaryFor (namesFrom 0 (spaces.flatMap (·.elements)))) := by
  refine .forM (fun done p => Pass.Registers p m stem (done.map (·.joins.length))
    (done.flatMap (·.elements))) ?_ ?_ hr
  · intro _ s p p' _ hp hs
    simpa using space_registers hp hs
  · intro done s rest p hall hp
    refine (space_ordinary hm hp).mono fun e he => he.mono (namesFrom_sublist ?_)
    simp [hall]

theorem pendingCondition_ordinary {p : PendingCondition} (hs : pass.scope.Grounded m)
    (hp : ∃ g, groupAt? pass.scope.spaces p.place = some g) :
    (pendingCondition m p pass).FailsWith (·.OrdinaryFor names) := by
  unfold pendingCondition
  refine .bind (clause_ordinary
    ((Scope.clauses_ordinary hm hs).predicate_id p.condition).failsWith) fun hc => ?_
  obtain ⟨_, -, rfl⟩ := clause_ok hc
  obtain ⟨g, hg⟩ := hp
  unfold addCondition
  split
  · rename_i hnone
    cases hnone.symm.trans hg
  · exact .of_ok rfl

theorem pendingConditions_ordinary {pending : List PendingCondition} (hs : pass.scope.Grounded m)
    (hp : ∀ p ∈ pending, ∃ g, groupAt? pass.scope.spaces p.place = some g) :
    (pending.forM (pendingCondition m) pass).FailsWith (·.OrdinaryFor names) := by
  refine .forM (fun _ q => q.scope.index = pass.scope.index ∧
    groupAt? q.scope.spaces = groupAt? pass.scope.spaces) ?_ ?_ ⟨rfl, rfl⟩
  · rintro _ p q q' _ ⟨hindex, hgroups⟩ hq
    obtain ⟨_, _, _, -, -, rfl⟩ := pendingCondition_ok hq
    exact ⟨hindex, (groupAt?_tied _ _ _ _).trans hgroups⟩
  · rintro _ p _ q hall ⟨hindex, hgroups⟩
    exact pendingCondition_ordinary hm (hs.congr hindex hgroups) (hgroups ▸ hp p (by simp [hall]))

theorem fromClause_ordinary {f : FromClause} (hr : pass.Registers m stem [] [])
    (hc : pass.Collects m []) : (fromClause m f pass).FailsWith
      (·.OrdinaryFor (namesFrom 0 (f.spaces.flatMap (·.elements)))) := by
  rw [fromClause_eq]
  refine .guard (.inl rfl) fun _ => .bind (spaces_ordinary hm hr) fun {_ p} hspaces => ?_
  refine .bind (.of_ok rfl) fun hget => .bind (.of_ok rfl) fun hset => ?_
  obtain ⟨rfl, rfl⟩ := EStateM.get_eq_ok.1 hget
  cases EStateM.modify_eq_ok.1 hset
  have hregisters := (spaces_registers hr hspaces).scope
  refine pendingConditions_ordinary hm hregisters.grounded fun q hq => ?_
  have hplace := (spaces_collect hc hspaces).pending q hq
  obtain ⟨e, he, hlocator⟩ := hregisters.entry_of_place hplace
  obtain ⟨g, hg, -⟩ := hregisters.stands e he
  exact ⟨g, hlocator ▸ hg⟩

/-! ## Statements -/

theorem selections_ordinary {c : Option SelectClause} (hs : pass.scope.Grounded m) :
    (selections m c pass).FailsWith (·.OrdinaryFor names) := by
  cases c with
  | some c =>
    exact clause_ordinary (f := fun scope => scope.selectClause m c)
      (Scope.selectClause_ordinary hm hs)
  | none =>
    exact .bind (lookup_ordinary (Scope.defaultSelection_ordinary hm hs)) fun _ => .of_ok rfl

theorem order_ordinary {keys : Option (List SortKey)} (hs : pass.scope.Grounded m) :
    (order m keys pass).FailsWith (·.OrdinaryFor names) := by
  cases keys with
  | some keys =>
    exact clause_ordinary (f := fun scope => scope.sortKeys m keys)
      ((Scope.clauses_ordinary hm hs).sortKeys_id keys).failsWith
  | none => exact .of_ok rfl

theorem query_ordinary {q : Query} (hr : pass.Registers m stem [] []) (hc : pass.Collects m []) :
    (query m q pass).FailsWith
      (·.OrdinaryFor (namesFrom 0 (q.fromClause.spaces.flatMap (·.elements)))) := by
  rw [query_eq]
  refine .bind (fromClause_ordinary hm hr hc) fun hfrom => ?_
  have hs := (fromClause_registers hr hfrom).grounded
  refine .bind (selections_ordinary hm hs) fun hselected => ?_
  obtain ⟨_, -, rfl⟩ := selections_ok hselected
  refine .bind (clause_ordinary
    ((Scope.clauses_ordinary hm hs).condition_id _).failsWith) fun hcondition => ?_
  obtain ⟨_, -, rfl⟩ := clause_ok hcondition
  exact .bind (order_ordinary hm hs) fun _ => .bind (.of_ok rfl) fun _ => .of_ok rfl

theorem update_ordinary {x : Update} (hr : pass.Registers m stem [] []) :
    (update m x pass).FailsWith (·.OrdinaryFor (namesFrom 0 [x.target.aliasName])) := by
  rw [update, expecting_visitRoot]
  refine .bind (root_ordinary hm hr) fun hroot => ?_
  have hs := (root_registers hr hroot).scope.grounded
  refine .bind (clause_ordinary
    ((Scope.clauses_ordinary hm hs).assignments_id _).failsWith) fun hassigned => ?_
  obtain ⟨_, -, rfl⟩ := clause_ok hassigned
  exact .bind (clause_ordinary ((Scope.clauses_ordinary hm hs).condition_id _).failsWith) fun _ =>
    .bind (.of_ok rfl) fun _ => .bind (.of_ok rfl) fun _ => .of_ok rfl

theorem delete_ordinary {x : Delete} (hr : pass.Registers m stem [] []) :
    (delete m x pass).FailsWith (·.OrdinaryFor (namesFrom 0 [x.target.aliasName])) := by
  rw [delete, expecting_visitRoot]
  refine .bind (root_ordinary hm hr) fun hroot => ?_
  have hs := (root_registers hr hroot).scope.grounded
  exact .bind (clause_ordinary ((Scope.clauses_ordinary hm hs).condition_id _).failsWith) fun _ =>
    .bind (.of_ok rfl) fun _ => .bind (.of_ok rfl) fun _ => .of_ok rfl

theorem statement_ordinary {s : Statement} (hr : pass.Registers m stem [] [])
    (hc : pass.Collects m []) :
    (statement m s pass).FailsWith (·.OrdinaryFor (namesFrom 0 s.elements)) := by
  cases s with
  | select q =>
    rw [statement_select]
    exact .bind (query_ordinary hm hr hc) fun _ => .bind (.of_ok rfl) fun _ => .of_ok rfl
  | update x =>
    rw [statement_update]
    exact .bind (update_ordinary hm hr) fun _ => .of_ok rfl
  | delete x =>
    rw [statement_delete]
    exact .bind (delete_ordinary hm hr) fun _ => .of_ok rfl

end

end Step

/-- A statement fails with an ordinary error, or since a name of its from-elements stands among them
twice. -/
theorem lowerWith_ordinary {settings : Settings} {m : Metamodel} {s : Statement}
    (hm : m.Complete) :
    (lowerWith settings m s).FailsWith (·.OrdinaryFor (namesFrom 0 s.elements)) := by
  unfold lowerWith
  split
  · split
    · exact .of_ok rfl
    · rename_i hs
      exact .of_error ((Step.statement_ordinary hm (Pass.registers_start settings m)
        (Pass.collects_start settings m)).error hs)
  · exact .of_error (.inl rfl)

/-! ## Parts of statements -/

/-- The kind of result that a part of a statement is to give. -/
def Node.kind : Node → ResultKind
  | .statement _ => .statement
  | .query _ => .query
  | .fromClause _ | .space _ | .root _ | .join _ => .fromElements
  | .selectClause _ => .selectClause
  | .selectList _ => .selectList
  | .selection _ => .selection
  | .orderClause _ => .orderClause
  | .sortKey _ => .sortKey
  | .assignment _ => .assignment
  | .predicate _ => .predicate
  | .expression _ => .expression

namespace Step

variable {m : Metamodel} {pass pass' : Pass} {outcome : Outcome} {α : Type} {result : α → Outcome}
  {kind : ResultKind}

theorem kind_of_step (hkind : ∀ a, (result a).kind = kind) {visit : Step Outcome} {step : Step α}
    (hvisit : visit = result <$> step) (h : visit pass = .ok outcome pass') :
    outcome.kind = kind := by
  subst hvisit
  obtain ⟨a, -, rfl⟩ := EStateM.map_eq_ok.1 h
  exact hkind a

theorem kind_of_clause (hkind : ∀ a, (result a).kind = kind) {visit : Scope → Clause Outcome}
    {f : Scope → Clause α} (hvisit : ∀ scope, visit scope = result <$> f scope)
    (h : clause visit pass = .ok outcome pass') : outcome.kind = kind := by
  obtain ⟨_, hrun, -⟩ := clause_ok h
  rw [hvisit] at hrun
  obtain ⟨a, -, rfl⟩ := EStateM.map_eq_ok.1 hrun
  exact hkind a

theorem node_kind {node : Node} (h : Step.node m node pass = .ok outcome pass') :
    outcome.kind = node.kind := by
  cases node with
  | statement s => exact kind_of_step (fun _ => rfl) (visitStatement_eq s) h
  | query q => exact kind_of_step (fun _ => rfl) (visitQuery_eq q) h
  | fromClause f => exact kind_of_step (fun _ => rfl) (visitFromClause_eq f) h
  | space s => exact kind_of_step (fun _ => rfl) (visitSpace_eq s) h
  | root r => exact kind_of_step (fun _ => rfl) (visitRoot_eq r) h
  | join j => exact kind_of_step (fun _ => rfl) (visitJoin_eq j) h
  | selectClause c =>
    exact kind_of_clause (fun _ => rfl) (fun _ => Scope.visitSelectClause_eq c) h
  | selectList es => exact kind_of_clause (fun _ => rfl) (fun _ => Scope.visitSelectList_eq es) h
  | selection e => exact kind_of_clause (fun _ => rfl) (fun _ => Scope.visitSelection_eq _ _) h
  | orderClause ks => exact kind_of_clause (fun _ => rfl) (fun _ => Scope.visitOrderClause_eq ks) h
  | sortKey k => exact kind_of_clause (fun _ => rfl) (fun _ => Scope.visitSortKey_eq k) h
  | assignment a => exact kind_of_clause (fun _ => rfl) (fun _ => Scope.visitAssignment_eq a) h
  | predicate p => exact kind_of_clause (fun _ => rfl) (fun _ => Scope.visitPredicate_eq p) h
  | expression e => exact kind_of_clause (fun _ => rfl) (fun _ => Scope.visitExpression_eq e) h

end Step

/-- Over a metamodel that has been built, a statement never fails with an internal error, and the
visit of a part of a statement has an outcome of its own kind. -/
theorem internal_faults_unreachable {ms : List EntityMapping} {r : Registration} {m : Metamodel}
    (hr : Registration.empty.registerAll ms = .ok r) (hb : r.build = .ok m) :
    (∀ settings s e, lowerWith settings m s = .error e → e.isInternal = false) ∧
      ∀ node pass outcome pass', Step.node m node pass = .ok outcome pass' →
        outcome.kind = node.kind :=
  ⟨fun _ _ _ he => ((lowerWith_ordinary (Registration.build_complete hr hb)).error he).isInternal,
    fun _ _ _ _ h => Step.node_kind h⟩

/-- The stages of people, taken for something that has a name. -/
def stageNames : Statement :=
  .select ⟨⟨[⟨⟨"Person", some "p"⟩, [⟨some "s", .inner, .attributeOf "p" "stages", false, none⟩]⟩]⟩,
    none, some (.isNull (.path ⟨"s", ["name"]⟩) false), none⟩

theorem stageNames_fails_for_its_path :
    ∃ r m e outcome pass, Registration.empty.registerAll people = .ok r ∧ r.build = .ok m ∧
      lowerWith .default m stageNames = .error e ∧ e.isInternal = false ∧
      Step.node m (.root ⟨"Person", some "p"⟩) (.start .default) = .ok outcome pass ∧
      outcome.kind = .fromElements := by
  have hfails : (Registration.empty.registerAll people >>= Registration.build).toOption.map
      (fun m => ((lowerWith .default m stageNames).toOption.isNone,
        (EStateM.run' (Step.node m (.root ⟨"Person", some "p"⟩)) (.start .default)).isSome)) =
      some (true, true) := by
    decide +kernel
  obtain ⟨m, hm, hfails⟩ := Option.map_eq_some_iff.1 hfails
  obtain ⟨hlower, hnode⟩ := Prod.mk.inj hfails
  obtain ⟨r, hr, hb⟩ := Except.bind_eq_ok.1 (Except.toOption_eq_some.1 hm)
  obtain ⟨ordinary, kinds⟩ := internal_faults_unreachable hr hb
  obtain ⟨outcome, hrun⟩ := Option.isSome_iff_exists.1 hnode
  obtain ⟨pass, hpass⟩ := EStateM.exists_ok_of_run' hrun
  cases he : lowerWith .default m stageNames with
  | ok l =>
    rw [he] at hlower
    cases hlower
  | error e =>
    exact ⟨r, m, e, outcome, pass, hr, hb, he, ordinary _ _ e he, hpass, kinds _ _ _ _ hpass⟩

end EntityQuery
