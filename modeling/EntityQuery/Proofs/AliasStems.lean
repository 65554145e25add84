import EntityQuery.Proofs.ClausePairs
import EntityQuery.Proofs.Variables

/-!
# The stem of alias bases does not matter

Under another stem a statement is lowered to the same statement, with the alias bases and
identification variables of the one stem in place of those of the other, and fails if it did
(`stems_do_not_matter`). Alias bases are drawn in the same order under both stems
(`AliasBases.Restems`), and a statement depends on the stem only through them, so the two runs stay
in step (`Pass.Restems`).
-/

set_option autoImplicit false

namespace EntityQuery

/-- The renaming takes the alias bases and variables of one stem to those of another, number by
number. -/
def Restems (p q : String) (f : String → String) : Prop :=
  ∀ number, RenamesBase f (AliasBases.base p number) (AliasBases.base q number)

/-! ## Alias bases -/

/-- As many alias bases have been drawn under two stems, and the same from-elements have one. -/
structure AliasBases.Restems (p q : String) (f : String → String) (a b : AliasBases) : Prop where
  old : a.stem = p
  new : b.stem = q
  count : a.count = b.count
  assigned : ∀ name, Option.Rel (RenamesBase f) (a.assigned? name) (b.assigned? name)

variable {p q : String} {f : String → String}

theorem AliasBases.Restems.next (hf : EntityQuery.Restems p q f) {a b : AliasBases}
    (h : a.Restems p q f b) :
    RenamesBase f a.next.1 b.next.1 ∧ a.next.2.Restems p q f b.next.2 := by
  refine ⟨?_, h.old, h.new, congrArg (· + 1) h.count, h.assigned⟩
  simp only [AliasBases.next, h.old, h.new, h.count]
  exact hf _

theorem AliasBases.Restems.baseFor (hf : EntityQuery.Restems p q f) {a b : AliasBases}
    (h : a.Restems p q f b) (name : String) :
    RenamesBase f (a.baseFor name).1 (b.baseFor name).1 ∧
      (a.baseFor name).2.Restems p q f (b.baseFor name).2 := by
  have hassigned := h.assigned name
  unfold AliasBases.baseFor
  cases ha : a.assigned? name with
  | some base =>
    rw [ha] at hassigned
    cases hb : b.assigned? name with
    | none =>
      rw [hb] at hassigned
      cases hassigned
    | some base' =>
      rw [hb] at hassigned
      cases hassigned with
      | some related => exact ⟨related, h⟩
  | none =>
    rw [ha] at hassigned
    cases hb : b.assigned? name with
    | some base' =>
      rw [hb] at hassigned
      cases hassigned
    | none =>
      obtain ⟨hbase, hnext⟩ := h.next hf
      refine ⟨hbase, hnext.old, hnext.new, hnext.count, fun other => ?_⟩
      simp only [AliasBases.assigned?, List.lookup_cons]
      cases other == name with
      | true => exact .some hbase
      | false => exact h.assigned other

/-! ## Clauses -/

theorem eq_map_of_forall₂ {α β : Type} {r : α → β} {as : List α} {bs : List β}
    (h : List.Forall₂ (fun a b => b = r a) as bs) : bs = as.map r := by
  rw [List.Forall₂.map_eq (g := id) (h.imp fun _ _ => Eq.symm), List.map_id]

theorem eq_map_of_rel {α β : Type} {r : α → β} {a : Option α} {b : Option β}
    (h : Option.Rel (fun a b => b = r a) a b) : b = a.map r := by
  cases h with
  | none => rfl
  | some hab => rw [hab, Option.map_some]

/-- Corresponding alias bases and the same parameters have been drawn. -/
structure Supply.Restems (p q : String) (f : String → String) (s t : Supply) : Prop where
  aliasBases : s.aliasBases.Restems p q f t.aliasBases
  parameters : s.parameters = t.parameters

/-- Under both stems the clauses fail with the same error, up to its alias base, or come to related
values. -/
abbrev Clause.Restems (p q : String) (f : String → String) {α β : Type} (R : α → β → Prop)
    (x : Clause α) (y : Clause β) : Prop :=
  EStateM.Coupled (Supply.Restems p q f) (fun e e' => e' = LoweringError.rename f e) R x y

section

variable {α β : Type}

theorem settled_restems {r : α → β} {x : Except LoweringError α} {y : Except LoweringError β}
    (h : y = x.bimap (·.rename f) r) :
    Clause.Restems p q f (fun a b => b = r a) (settled x) (settled y) := by
  subst h
  cases x with
  | ok a => exact .pure rfl
  | error e => exact ⟨fun _ => .error rfl⟩

theorem newParameter_restems (binding : Binding) (expected : Option DomainType) :
    Clause.Restems p q f Eq (newParameter binding expected) (newParameter binding expected) := by
  refine ⟨fun h => .ok ⟨?_, h.aliasBases, ?_⟩⟩ <;> simp only [h.parameters]

theorem newAliasBase_restems (hf : Restems p q f) :
    Clause.Restems p q f (RenamesBase f) newAliasBase newAliasBase := by
  refine ⟨fun h => ?_⟩
  obtain ⟨hbase, hnext⟩ := h.aliasBases.next hf
  exact .ok ⟨hbase, hnext, h.parameters⟩

end

namespace Scope

variable {m : Metamodel} (s : Scope)

theorem subquery_restems (hf : Restems p q f) (collection : AttributePath) (selected : Selected) :
    Clause.Restems p q f (fun a b => b = Sql.Predicate.renameQuery f a)
      (s.subquery m collection selected) ((s.rename f).subquery m collection selected) := by
  refine (settled_restems (s.owned_rename collection)).bind fun howned => ?_
  refine (newAliasBase_restems hf).bind fun hbase => ?_
  subst howned
  exact settled_restems (lookedUp_rename (Metamodel.collectionQuery_rename hbase _ _ selected))

/-- Clauses over the from-elements of the other stem come to the same, up to alias bases. -/
theorem clauses_restem (hf : Restems p q f) :
    PredicatePairs (Supply.Restems p q f) (fun e e' => e' = LoweringError.rename f e)
      (fun _ => True) id m s (s.rename f) (fun v w => w = v.rename f)
      (fun v w => w = Sql.Predicate.renameQuery f v) fun v w => w = v.rename f where
  parameter binding expected := (newParameter_restems binding expected).imp fun _ _ h => by
    rw [h, Sql.Expression.rename]
  entityType name := (settled_restems (lookedUp_rename (Metamodel.entity_rename name))).imp
    fun _ _ h => by rw [h, Sql.Expression.rename, id]
  unary h := by rw [h, Sql.Expression.rename, Sql.Expression.type_rename]
  path _ := settled_restems (s.path_rename _)
  element _ := settled_restems (Except.bind_bimap (s.index.resolve_rename _) fun ref _ =>
    s.elementValue_rename ref)
  function h := by
    rw [eq_map_of_forall₂ h, Sql.Expression.rename, Sql.Expression.renameAll_eq, List.map_map]
    simp only [Function.comp_def, Sql.Expression.type_rename]
  literal _ := by rw [literalValue, Sql.Expression.rename]
  concatenation hl hr := by rw [hl, hr, Sql.Expression.rename, Sql.Expression.type_rename]
  enumConstant _ _ := by rw [enumValue, Sql.Expression.rename]
  arithmetic hl hr := by
    rw [hl, hr, Sql.Expression.rename, Sql.Expression.type_rename, Sql.Expression.type_rename]
  subquery _ := s.subquery_restems hf _ _
  grouped h := by rw [h, Sql.Predicate.rename]
  junction hl hr := by simp only [hl, hr, Sql.Predicate.rename, Sql.Predicate.renameAll]
  negated h := by rw [h, Sql.Predicate.rename]
  comparison hl hr := by rw [hl, hr, Sql.Predicate.rename]
  nullness h := by rw [h, Sql.Predicate.rename]
  nonempty h := by rw [h, Sql.Predicate.rename]
  between hs hl hu := by rw [hs, hl, hu, Sql.Predicate.rename]
  like hs hp he := by rw [hs, hp, eq_map_of_rel he, Sql.Predicate.rename]
  among hv hq := by rw [hv, hq, Sql.Predicate.rename]

theorem condition_restems (hf : Restems p q f) (c : Option Predicate) : Clause.Restems p q f
    (fun a b => b = a.map (·.rename f)) (s.condition m c) ((s.rename f).condition m c) :=
  ((s.clauses_restem hf).condition_id c).imp fun _ _ => eq_map_of_rel

theorem selectClause_restems (hf : Restems p q f) (c : SelectClause) : Clause.Restems p q f
    (fun a b => b = (a.1, SelectionOf.mapItems (·.rename f) a.2)) (s.selectClause m c)
    ((s.rename f).selectClause m c) := by
  have hitems : ItemPairs (fun v w => w = v.rename f)
      fun vs ws => ws = SelectionOf.mapItems (·.rename f) vs :=
    ⟨rfl, fun hv hvs => by rw [hv, hvs, SelectionOf.mapItems, SelectionOf.map],
      fun has hvs => by rw [has, hvs, SelectionOf.mapItems, SelectionOf.map]⟩
  rw [selectClause_eq, selectClause_eq]
  exact (hitems.items_id (s.clauses_restem hf).toExpressionPairs c.items).bind fun h =>
    .pure (by rw [h])

theorem sortKeys_restems (hf : Restems p q f) (ks : List SortKey) : Clause.Restems p q f
    (fun as bs => bs = as.map (·.rename f)) (s.sortKeys m ks) ((s.rename f).sortKeys m ks) := by
  refine ((s.clauses_restem hf).sortKeys_id ks).imp fun vs ws hvs => ?_
  refine eq_map_of_forall₂ (hvs.imp fun v w hv => ?_)
  exact congrArg₂ Sql.SortKey.mk hv.1 hv.2.symm

theorem assignments_restem (hf : Restems p q f) (as : List Assignment) : Clause.Restems p q f
    (fun vs ws => ws = vs.map (·.rename f)) (as.mapM (s.assignment m))
    (as.mapM ((s.rename f).assignment m)) := by
  refine ((s.clauses_restem hf).assignments_id as).imp fun vs ws hvs => ?_
  refine eq_map_of_forall₂ (hvs.imp fun v w hv => ?_)
  obtain ⟨⟨target, _, rfl, hv, hw⟩, hvalue⟩ := hv
  refine congrArg₂ Sql.Assignment.mk ?_ hvalue
  rw [hw, hv, Sql.Expression.parts_rename]

end Scope

/-! ## Steps -/

/-- A change at one place commutes with a renaming at all of them. -/
theorem modify_map_comm {α : Type} {r x y : α → α} (h : ∀ a, y (r a) = r (x a)) (place : Nat)
    (as : List α) : (as.map r).modify place y = (as.modify place x).map r := by
  refine List.ext_getElem? fun i => ?_
  simp only [List.getElem?_modify, List.getElem?_map]
  cases as[i]? with
  | none => rfl
  | some a => split <;> simp [h]

/-- The same from-elements are registered, under corresponding alias bases, and the same is left to
be done. -/
structure Pass.Restems (p q : String) (f : String → String) (s t : Pass) : Prop where
  supply : s.supply.Restems p q f t.supply
  scope : t.scope = s.scope.rename f
  generated : s.generated = t.generated
  pending : s.pending = t.pending

theorem Pass.start_restems {settings settings' : Settings} :
    (start settings).Restems settings.aliasStem settings'.aliasStem f (start settings') :=
  ⟨⟨⟨rfl, rfl, rfl, fun _ => .none⟩, rfl⟩, rfl, rfl, rfl⟩

theorem JoinType.lower_rename (t : JoinType) : t.lower = t.lower.bimap (·.rename f) id := by
  cases t <;> rfl

namespace Step

/-- Under both stems the steps fail with the same error, up to its alias base, or come to related
values and passes. -/
protected abbrev Restems (p q : String) (f : String → String) {α β : Type} (R : α → β → Prop)
    (x : Step α) (y : Step β) : Prop :=
  EStateM.Coupled (Pass.Restems p q f) (fun e e' => e' = LoweringError.rename f e) R x y

section

variable {α β : Type}

theorem clause_restems {R : α → β → Prop} {x : Scope → Clause α} {y : Scope → Clause β}
    (h : ∀ s : Scope, Clause.Restems p q f R (x s) (y (s.rename f))) :
    Step.Restems p q f R (clause x) (clause y) := by
  refine ⟨fun {s t} hs => ?_⟩
  have hrun := (h s.scope).run hs.supply
  simp only [clause, hs.scope]
  generalize x s.scope s.supply = rx at hrun
  generalize y (s.scope.rename f) t.supply = ry at hrun
  cases hrun with
  | ok related => exact .ok ⟨related.1, related.2, rfl, hs.generated, hs.pending⟩
  | error related => exact .error related

theorem lookup_restems {r : α → β} {x : Scope → Except LoweringError α}
    {y : Scope → Except LoweringError β}
    (h : ∀ s : Scope, y (s.rename f) = (x s).bimap (·.rename f) r) :
    Step.Restems p q f (fun a b => b = r a) (lookup x) (lookup y) := by
  refine ⟨fun {s t} hs => ?_⟩
  simp only [lookup, hs.scope, h]
  cases x s.scope with
  | ok a => exact .ok ⟨rfl, hs⟩
  | error e => exact .error rfl

end

theorem get_restems : Step.Restems p q f (Pass.Restems p q f) get get := ⟨fun hs => .ok ⟨hs, hs⟩⟩

theorem modify_restems {x : Pass → Pass}
    (h : ∀ s t, Pass.Restems p q f s t → Pass.Restems p q f (x s) (x t)) :
    Step.Restems p q f (fun _ _ => True) (modify x) (modify x) :=
  ⟨fun hs => .ok ⟨trivial, h _ _ hs⟩⟩

theorem aliasFor_restems (name : Option String) :
    Step.Restems p q f Eq (aliasFor name) (aliasFor name) := by
  cases name with
  | some name => exact .pure rfl
  | none =>
    refine ⟨fun {s t} hs => ?_⟩
    simp only [aliasFor, hs.generated]
    exact .ok ⟨rfl, hs.supply, hs.scope, rfl, hs.pending⟩

theorem aliasBaseFor_restems (hf : Restems p q f) (name : String) :
    Step.Restems p q f (RenamesBase f) (aliasBaseFor name) (aliasBaseFor name) := by
  refine ⟨fun {s t} hs => ?_⟩
  obtain ⟨hbase, hnext⟩ := hs.supply.aliasBases.baseFor hf name
  exact .ok ⟨hbase, ⟨hnext, hs.supply.parameters⟩, hs.scope, hs.generated, hs.pending⟩

theorem register_restems (name : String) {ref ref' : GroupRef} (href : ref' = ref.rename f) :
    Step.Restems p q f (fun _ _ => True) (register name ref) (register name ref') := by
  subst href
  refine ⟨fun {s t} hs => ?_⟩
  have hadd : t.scope.index.add name (ref.rename f) =
      (s.scope.index.add name ref).bimap (·.rename f) (·.rename f) := by
    rw [hs.scope]
    exact s.scope.index.add_rename name ref
  simp only [register, hadd]
  cases s.scope.index.add name ref with
  | ok index =>
    refine .ok ⟨trivial, hs.supply, ?_, hs.generated, hs.pending⟩
    simp only [hs.scope, Scope.rename]
  | error e => exact .error rfl

theorem changeSpaces_restems {x y : List Sql.TableSpace → List Sql.TableSpace}
    (h : ∀ ss, y (ss.map (·.rename f)) = (x ss).map (·.rename f)) :
    Step.Restems p q f (fun _ _ => True) (changeSpaces x) (changeSpaces y) := by
  refine ⟨fun {s t} hs => .ok ⟨trivial, hs.supply, ?_, hs.generated, hs.pending⟩⟩
  simp only [hs.scope, Scope.rename, h]

theorem openSpace_restems : Step.Restems p q f Eq openSpace openSpace := by
  refine ⟨fun {s t} hs => ?_⟩
  have hlength : t.scope.spaces.length = s.scope.spaces.length := by
    rw [hs.scope, Scope.rename, List.length_map]
  simp only [openSpace, hlength]
  cases s.scope.spaces.length with
  | zero => exact .error rfl
  | succ count => exact .ok ⟨rfl, hs⟩

theorem joinCount_rename (spaces : List Sql.TableSpace) (space : Nat) :
    joinCount (spaces.map (·.rename f)) space = joinCount spaces space := by
  unfold joinCount
  rw [List.getElem?_map]
  cases spaces[space]? with
  | none => rfl
  | some s => exact List.length_map _

theorem addCondition_restems (space position : Nat) (condition : Sql.Predicate) :
    Step.Restems p q f (fun _ _ => True) (addCondition space position condition)
      (addCondition space position (condition.rename f)) := by
  refine ⟨fun {s t} hs => ?_⟩
  have hgroup : groupAt? t.scope.spaces ⟨space, .join position⟩ =
      (groupAt? s.scope.spaces ⟨space, .join position⟩).map (Sql.Predicate.renameGroup f) := by
    rw [hs.scope]
    exact groupAt?_rename s.scope.spaces _
  simp only [addCondition, hgroup]
  cases groupAt? s.scope.spaces ⟨space, .join position⟩ with
  | none => exact .error rfl
  | some g =>
    refine (changeSpaces_restems fun ss => ?_).run hs
    refine modify_map_comm (fun s => ?_) space ss
    simp only [Sql.TableSpaceOf.rename]
    rw [modify_map_comm (fun j => ?_) position s.joins]
    simp only [Sql.GroupJoinOf.rename, Sql.Predicate.conjunction_rename, List.map_append]
    cases j.predicate <;> rfl

theorem takeSpaces_restems :
    Step.Restems p q f (fun a b => b = a.map (·.rename f)) takeSpaces takeSpaces := by
  refine ⟨fun {s t} hs => .ok ⟨?_, hs.supply, ?_, hs.generated, hs.pending⟩⟩
  · simp only [hs.scope, Scope.rename]
  · simp only [hs.scope, Scope.rename, List.map_nil]

theorem takeParameters_restems : Step.Restems p q f Eq takeParameters takeParameters :=
  ⟨fun hs => .ok ⟨hs.supply.parameters, ⟨hs.supply.aliasBases, rfl⟩, hs.scope, hs.generated,
    hs.pending⟩⟩

theorem selections_restems (hf : Restems p q f) (m : Metamodel) (c : Option SelectClause) :
    Step.Restems p q f (fun a b => b = (a.1, SelectionOf.mapItems (·.rename f) a.2))
      (selections m c) (selections m c) := by
  cases c with
  | none =>
    refine (lookup_restems fun s => s.defaultSelection_rename).bind fun h => .pure ?_
    simp only [h, SelectionOf.mapItems]
  | some c =>
    simp only [selections]
    exact clause_restems fun s => s.selectClause_restems hf c

theorem order_restems (hf : Restems p q f) (m : Metamodel) (keys : Option (List SortKey)) :
    Step.Restems p q f (fun a b => b = a.map (·.rename f)) (order m keys) (order m keys) := by
  cases keys with
  | none => exact .pure rfl
  | some keys =>
    simp only [order]
    exact clause_restems fun s => s.sortKeys_restems hf keys

section

variable (hf : Restems p q f) (m : Metamodel)
include hf

theorem root_restems (r : Root) : Step.Restems p q f (fun _ _ => True) (root m r) (root m r) := by
  refine (aliasFor_restems r.aliasName).bind fun {name _} hname => ?_
  subst hname
  refine (lookup_restems fun _ => lookedUp_rename (Metamodel.entity_rename r.entity)).bind
    fun {_ e} he => ?_
  subst he
  refine (aliasBaseFor_restems hf name).bind fun {base base'} hbase => ?_
  refine (lookup_restems fun _ => lookedUp_rename (Metamodel.entityGroup_rename hbase e)).bind
    fun {g _} hg => ?_
  subst hg
  refine get_restems.bind fun {s t} hs => ?_
  refine (register_restems name ?_).bind fun _ => changeSpaces_restems fun ss => ?_
  · simp only [GroupRef.rename, hs.scope, Scope.rename, List.length_map, hbase.base]
  · simp [Sql.TableSpaceOf.rename]

theorem join_restems (j : Join) : Step.Restems p q f (fun _ _ => True) (join m j) (join m j) := by
  refine (lookup_restems fun _ => j.joinType.lower_rename).bind fun {_ joinType} htype => ?_
  subst htype
  refine openSpace_restems.bind fun {space _} hspace => ?_
  subst hspace
  refine (aliasFor_restems j.aliasName).bind fun {name _} hname => ?_
  subst hname
  refine (aliasBaseFor_restems hf name).bind fun {base base'} hbase => ?_
  refine (lookup_restems fun s => s.joinedGroup_rename hbase j.source).bind
    fun {joined _} hjoined => ?_
  subst hjoined
  refine get_restems.bind fun {s t} hs => ?_
  have hcount : joinCount t.scope.spaces space = joinCount s.scope.spaces space := by
    rw [hs.scope]
    exact joinCount_rename s.scope.spaces space
  rw [hcount]
  generalize joinCount s.scope.spaces space = position
  refine (register_restems name ?_).bind fun _ => ?_
  · simp only [GroupRef.rename, JoinedGroup.rename, hbase.base]
  refine (changeSpaces_restems fun ss => ?_).bind fun _ => ?_
  · refine modify_map_comm (fun s => ?_) space ss
    simp [Sql.TableSpaceOf.rename, Sql.GroupJoinOf.rename, JoinedGroup.rename]
  · cases j.condition with
    | none => exact .pure trivial
    | some condition =>
      exact modify_restems fun s t hs =>
        ⟨hs.supply, hs.scope, hs.generated,
          congrArg (· ++ [⟨space, position, condition⟩]) hs.pending⟩

theorem space_restems (s : Space) :
    Step.Restems p q f (fun _ _ => True) (space m s) (space m s) := by
  rw [space_eq]
  exact (root_restems hf m s.root).bind fun _ => .forM_same (join_restems hf m) s.joins

theorem pendingCondition_restems (c : PendingCondition) : Step.Restems p q f (fun _ _ => True)
    (pendingCondition m c) (pendingCondition m c) := by
  refine (clause_restems fun s => (s.clauses_restem hf).predicate_id c.condition).bind
    fun {condition _} h => ?_
  subst h
  exact addCondition_restems c.space c.position condition

theorem fromClause_restems (c : FromClause) :
    Step.Restems p q f (fun _ _ => True) (fromClause m c) (fromClause m c) := by
  rw [fromClause_eq]
  split
  · exact ⟨fun _ => .error rfl⟩
  · refine (EStateM.Coupled.forM_same (space_restems hf m) c.spaces).bind fun _ => ?_
    refine get_restems.bind fun {s t} hs => ?_
    rw [← hs.pending]
    refine (modify_restems (x := ({ · with pending := [] })) fun s t hs =>
      ⟨hs.supply, hs.scope, hs.generated, rfl⟩).bind fun _ => ?_
    exact .forM_same (pendingCondition_restems hf m) s.pending

theorem query_restems (c : Query) : Step.Restems p q f
    (fun a b => b = Sql.Predicate.renameQuery f a) (query m c) (query m c) := by
  rw [query_eq]
  refine (fromClause_restems hf m c.fromClause).bind fun _ => ?_
  refine (selections_restems hf m c.select).bind fun {_ _} hselections => ?_
  subst hselections
  refine (clause_restems fun s => s.condition_restems hf c.condition).bind fun hcondition => ?_
  refine (order_restems hf m c.order).bind fun horder => ?_
  refine takeSpaces_restems.bind fun hspaces => .pure ?_
  simp only [Sql.Predicate.renameQuery_eq, Sql.FromClauseOf.rename, hcondition, horder, hspaces]

theorem update_restems (u : Update) : Step.Restems p q f
    (fun a b => Sql.Statement.update b = (Sql.Statement.update a).rename f)
    (update m u) (update m u) := by
  rw [update, expecting_visitRoot]
  refine (root_restems hf m u.target).bind fun _ => ?_
  refine (clause_restems fun s => s.assignments_restem hf u.assignments).bind
    fun hassignments => ?_
  refine (clause_restems fun s => s.condition_restems hf u.condition).bind fun hcondition => ?_
  refine takeSpaces_restems.bind fun hspaces => ?_
  refine takeParameters_restems.bind fun hparameters => .pure ?_
  simp only [Sql.Statement.rename, Sql.FromClauseOf.rename, hassignments, hcondition, hspaces,
    hparameters]

theorem delete_restems (d : Delete) : Step.Restems p q f
    (fun a b => Sql.Statement.delete b = (Sql.Statement.delete a).rename f)
    (delete m d) (delete m d) := by
  rw [delete, expecting_visitRoot]
  refine (root_restems hf m d.target).bind fun _ => ?_
  refine (clause_restems fun s => s.condition_restems hf d.condition).bind fun hcondition => ?_
  refine takeSpaces_restems.bind fun hspaces => ?_
  refine takeParameters_restems.bind fun hparameters => .pure ?_
  simp only [Sql.Statement.rename, Sql.FromClauseOf.rename, hcondition, hspaces, hparameters]

theorem statement_restems (s : Statement) : Step.Restems p q f (fun a b => b = a.rename f)
    (statement m s) (statement m s) := by
  cases s with
  | select c =>
    rw [statement_select]
    refine (query_restems hf m c).bind fun hquery => ?_
    refine takeParameters_restems.bind fun hparameters => .pure ?_
    simp only [Sql.Statement.rename, hquery, hparameters]
  | update u =>
    rw [statement_update]
    exact (update_restems hf m u).bind fun h => .pure h
  | delete d =>
    rw [statement_delete]
    exact (delete_restems hf m d).bind fun h => .pure h

end

end Step

/-! ## Statements -/

/-- The lowered statement with other alias bases and variables. -/
def Lowered.rename (f : String → String) (l : Lowered) : Lowered :=
  ⟨l.statement.rename f, l.index.rename f⟩

/-- The name with a stem in place of another one. -/
def restem (p q name : String) : String := q ++ String.ofList (name.toList.drop p.length)

theorem restem_append (p q rest : String) : restem p q (p ++ rest) = q ++ rest := by
  have hdrop : (p ++ rest).toList.drop p.length = rest.toList := by
    rw [String.toList_append]
    exact List.drop_left
  rw [restem, hdrop, String.ofList_toList]

theorem restems_restem (p q : String) : Restems p q (restem p q) := by
  refine fun number => ⟨restem_append p q _, fun position => ?_⟩
  have hvariable (stem : String) : variableAt (AliasBases.base stem number) position =
      stem ++ (toString number ++ "_" ++ toString position) := by
    simp [variableAt, AliasBases.base, toString, String.append_assoc]
  rw [hvariable, hvariable, restem_append]

/-- Under usable settings with another stem, a statement is lowered to the same statement with the
alias bases and variables of the other stem, or fails with the same error about them. Whatever takes
those of the one stem to those of the other serves as the renaming, and there is such a renaming. -/
theorem stems_do_not_matter {settings settings' : Settings} (hvalid : settings.faults = [])
    (hvalid' : settings'.faults = []) :
    Restems settings.aliasStem settings'.aliasStem
        (restem settings.aliasStem settings'.aliasStem) ∧
      ∀ f, Restems settings.aliasStem settings'.aliasStem f → ∀ m s,
        lowerWith settings' m s =
          (lowerWith settings m s).bimap (LoweringError.rename f) (Lowered.rename f) := by
  refine ⟨restems_restem _ _, fun f hf m s => ?_⟩
  have hrun := (Step.statement_restems hf m s).run Pass.start_restems
  simp only [lowerWith, hvalid, hvalid']
  generalize Step.statement m s (.start settings) = rx at hrun
  generalize Step.statement m s (.start settings') = ry at hrun
  cases hrun with
  | ok related =>
    obtain ⟨hstatement, hpass⟩ := related
    simp only [Except.bimap, Lowered.rename, hstatement, hpass.scope, Scope.rename]
  | error related => simp only [Except.bimap, related]

theorem stems_do_not_matter_in_library :
    Settings.default.faults = [] ∧ (⟨"j1", true⟩ : Settings).faults = [] ∧
      ∃ l, lowerWith .default library shelves = .ok l ∧
        lowerWith ⟨"j1", true⟩ library shelves = .ok (l.rename (restem "j" "j1")) := by
  have hvalid : Settings.default.faults = [] := by decide +kernel
  have hvalid' : (⟨"j1", true⟩ : Settings).faults = [] := by decide +kernel
  obtain ⟨l, hl⟩ := Except.exists_ok_of_isSome
    (by decide +kernel : (lowerWith .default library shelves).toOption.isSome)
  obtain ⟨hrestems, hlowered⟩ := stems_do_not_matter hvalid hvalid'
  refine ⟨hvalid, hvalid', l, hl, ?_⟩
  rw [hlowered _ hrestems, hl]
  rfl

end EntityQuery
