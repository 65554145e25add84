import EntityQuery.Metamodel.Build
import EntityQuery.Proofs.Slots

/-!
# What a build adds

A build only adds to what it has found (`Registry.Grows`): tables and columns stay at their places,
and an embeddable that is kept under a role stays there. New embeddables are kept under the role of
the attribute that is built, or under roles that continue it behind a dot (`Under`).

`stored_ok` says what the build of an attribute does, `stored_grows` and `component_grows` what it
adds. `stored_stores` says that the columns of an attribute are the places of the slots it is stored
in (`Stores`).
-/

set_option autoImplicit false

namespace EntityQuery

/-! ## Roles -/

/-- A role is the given one, or continues it behind a dot. -/
def Under (base role : String) : Prop := role = base ∨ ∃ rest, role = base ++ "." ++ rest

theorem Under.of_child {base name role : String} (h : Under (base ++ "." ++ name) role) :
    ∃ rest, role = base ++ "." ++ rest := by
  obtain rfl | ⟨rest, rfl⟩ := h
  · exact ⟨name, rfl⟩
  · exact ⟨name ++ "." ++ rest, by simp only [String.append_assoc]⟩

/-! ## Growth -/

namespace Registry

/-- Nothing found is lost, and new embeddables are kept under the given roles only. -/
structure Grows (P : String → Prop) (r r' : Registry) : Prop where
  database : r.database.Grows r'.database
  named : r.database.Named → r'.database.Named
  kept : ∀ role e, r.embeddables.lookup role = some e → r'.embeddables.lookup role = some e
  others : ∀ role, ¬ P role → r'.embeddables.lookup role = r.embeddables.lookup role

variable {P Q : String → Prop} {r r1 r' : Registry}

theorem Grows.refl (r : Registry) : r.Grows P r := ⟨.refl _, id, fun _ _ h => h, fun _ _ => rfl⟩

theorem Grows.trans (h : r.Grows P r1) (h' : r1.Grows P r') : r.Grows P r' :=
  ⟨h.database.trans h'.database, fun hn => h'.named (h.named hn),
    fun role e he => h'.kept role e (h.kept role e he),
    fun role hr => (h'.others role hr).trans (h.others role hr)⟩

theorem Grows.mono (h : r.Grows P r') (hPQ : ∀ role, P role → Q role) : r.Grows Q r' :=
  ⟨h.database, h.named, h.kept, fun role hr => h.others role fun hp => hr (hPQ role hp)⟩

theorem Grows.of_database {db : Database} (h : r.database.Grows db)
    (hn : r.database.Named → db.Named) : r.Grows P { r with database := db } :=
  ⟨h, hn, fun _ _ he => he, fun _ _ => rfl⟩

end Registry

namespace Build

variable {P : String → Prop} {r r' : Registry}

theorem lookup_keepFirst {α : Type} (entries : List (String × α)) (key role : String) (value : α) :
    (keepFirst entries key value).lookup role =
      if role = key then some ((entries.lookup key).getD value) else entries.lookup role := by
  unfold keepFirst
  split
  · rename_i hs
    obtain ⟨found, hf⟩ := Option.isSome_iff_exists.1 hs
    split
    · rename_i hr
      rw [hr, hf, Option.getD_some]
    · rfl
  · rename_i hn
    have hnone := Option.not_isSome_iff_eq_none.1 hn
    rw [List.lookup_append]
    split
    · rename_i hr
      simp [hr, hnone]
    · rename_i hr
      have hb : (role == key) = false := by simpa using hr
      simp [List.lookup_cons, hb]

theorem lookup_keepFirst_self {α : Type} (entries : List (String × α)) (key : String) (value : α) :
    (keepFirst entries key value).lookup key = some ((entries.lookup key).getD value) := by
  rw [lookup_keepFirst, if_pos rfl]

theorem lookup_keepFirst_of_some {α : Type} {entries : List (String × α)} {key role : String}
    {value found : α} (h : entries.lookup role = some found) :
    (keepFirst entries key value).lookup role = some found := by
  rw [lookup_keepFirst]
  split
  · rename_i hrole
    rw [← hrole, h, Option.getD_some]
  · exact h

/-- What is found was kept before, or has been kept now under a new key. -/
theorem lookup_keepFirst_cases {α : Type} {entries : List (String × α)} {key role : String}
    {value found : α} (h : (keepFirst entries key value).lookup role = some found) :
    entries.lookup role = some found ∨
      role = key ∧ entries.lookup key = none ∧ found = value := by
  rw [lookup_keepFirst] at h
  split at h
  · rename_i hrole
    cases hf : entries.lookup key with
    | none =>
      rw [hf] at h
      cases h
      exact .inr ⟨hrole, rfl, rfl⟩
    | some other =>
      rw [hf] at h
      exact .inl (by rw [hrole, hf]; exact h)
  · exact .inl h

theorem keepEmbeddable_grows {e : Embeddable} {u : Unit} (h : keepEmbeddable e r = .ok u r') :
    r.Grows (· = e.role) r' := by
  have h := EStateM.modify_eq_ok.1 h
  subst h
  refine ⟨.refl _, id, fun role found hf => ?_, fun role hr => ?_⟩
  · exact lookup_keepFirst_of_some hf
  · rw [lookup_keepFirst, if_neg hr]

theorem keepEmbeddable_new {e : Embeddable} {u : Unit} (h : keepEmbeddable e r = .ok u r')
    (hn : r.embeddables.lookup e.role = none) : r'.embeddables.lookup e.role = some e := by
  have h := EStateM.modify_eq_ok.1 h
  subst h
  rw [lookup_keepFirst, if_pos rfl, hn, Option.getD_none]

theorem keepCollection_grows {p : PluralAttribute} {u : Unit} (h : keepCollection p r = .ok u r') :
    r.Grows P r' := by
  have h := EStateM.modify_eq_ok.1 h
  subst h
  exact ⟨.refl _, id, fun _ _ he => he, fun _ _ => rfl⟩

/-! ## Steps -/

theorem database_ok {α : Type} {act : Database.Action α} {a : α} (h : database act r = .ok a r') :
    ∃ db, act r.database = .ok a db ∧ r' = { r with database := db } := by
  unfold database at h
  split at h
  · rename_i a' db hact
    cases h
    exact ⟨db, hact, rfl⟩
  · cases h

theorem known_eq_ok {entities : List Entity} {name : String} {e : Entity} :
    known entities name = .ok e ↔ entities.find? (·.name = name) = some e := by
  unfold known
  split <;> rename_i hf <;> rw [hf] <;> simp

theorem ofExcept_ok {α : Type} {x : Except MetamodelError α} {a : α}
    (h : ofExcept x r = .ok a r') : x = .ok a ∧ r = r' := by
  cases x with
  | ok b =>
    obtain ⟨rfl, rfl⟩ := EStateM.pure_eq_ok.1 h
    exact ⟨rfl, rfl⟩
  | error e => exact absurd h EStateM.throw_ne_ok

/-- The columns of slots, which are added where they are missing. -/
theorem values_grows {role : String} {table : TableId} {columns : List (Option String)}
    {formulas : Option (List (Option String))} {codes : List SqlCode} {ids : List ColumnId}
    (h : database (Database.values role table columns formulas codes) r = .ok ids r') :
    r.Grows P r' := by
  obtain ⟨db, hv, rfl⟩ := database_ok h
  exact .of_database (Database.values_grows hv) (Database.values_named hv)

theorem basicColumns_ok {role : String} {values : Database.Action (List ColumnId)}
    {ids : List ColumnId} (h : basicColumns role values r = .ok ids r') :
    database values r = .ok ids r' := by
  simp only [basicColumns, EStateM.bind_eq_ok, EStateM.guard_eq_ok, EStateM.pure_eq_ok] at h
  obtain ⟨ids', r1, hv, -, rfl, rfl⟩ := h
  exact hv

/-- The columns of a reference: those of the owner's identifier, or slots of its own. -/
theorem associationColumns_ok {owner : Owner} {role : String} {kind : AssociationKind}
    {declares : Bool} {n position : Nat} {values : Database.Action (List ColumnId)}
    {ids : List ColumnId}
    (h : associationColumns owner role kind declares n values r = .ok (ids, position) r') :
    (kind = .primaryKeyOneToOne ∧ declares = false ∧ ids = owner.identifierColumns ∧ position = 0 ∧
      r' = r) ∨
      (kind ≠ .primaryKeyOneToOne ∧ position = n ∧ database values r = .ok ids r') := by
  unfold associationColumns at h
  cases kind with
  | primaryKeyOneToOne =>
    simp only [EStateM.guard_eq_ok, EStateM.bind_eq_ok, EStateM.pure_eq_ok, Prod.mk.injEq] at h
    obtain ⟨hd, _, _, ⟨rfl, rfl⟩, -, ⟨rfl, rfl⟩, rfl⟩ := h
    exact .inl ⟨rfl, by simpa using hd, rfl, rfl, rfl⟩
  | manyToOne | uniqueKeyOneToOne =>
    simp only [EStateM.guard_eq_ok, EStateM.bind_eq_ok, EStateM.pure_eq_ok, Prod.mk.injEq] at h
    obtain ⟨_, _, hv, _, _, ⟨rfl, rfl⟩, -, ⟨rfl, rfl⟩, rfl⟩ := h
    exact .inr ⟨by simp, rfl, hv⟩

theorem tableFor_grows {expression : String} {id : TableId} (h : tableFor expression r = .ok id r') :
    r.Grows P r' := by
  cases h
  exact .of_database (Database.tableFor_grows expression r.database)
    fun hn => (Database.tableFor_shows expression hn).1

theorem keyColumns_grows {role : String} {table : TableId} {columns : List String}
    {codes : List SqlCode} {ids : List ColumnId}
    (h : keyColumns role table columns codes r = .ok ids r') : r.Grows P r' := by
  simp only [keyColumns, EStateM.bind_eq_ok, EStateM.guard_eq_ok, EStateM.pure_eq_ok] at h
  obtain ⟨_, _, hv, -, -, rfl⟩ := h
  exact values_grows hv

theorem elementColumns_grows {entities : List Entity} {role : String} {type : ElementType}
    {table : TableId} {columns : List (Option String)} {formulas : Option (List (Option String))}
    {codes : List SqlCode} {ids : List ColumnId}
    (h : elementColumns entities role type (Database.values role table columns formulas codes) r =
      .ok ids r') : r.Grows P r' := by
  simp only [elementColumns, EStateM.bind_eq_ok, EStateM.guard_eq_ok, EStateM.pure_eq_ok] at h
  obtain ⟨_, _, hv, -, -, rfl⟩ := h
  exact values_grows hv

theorem indexOf_grows {role : String} {table : TableId} {collection : CollectionClass}
    {index : Option IndexMapping} {found : Option Index}
    (h : indexOf role table collection index r = .ok found r') : r.Grows P r' := by
  unfold indexOf at h
  cases index with
  | some m =>
    simp only [EStateM.bind_eq_ok, EStateM.pure_eq_ok] at h
    obtain ⟨_, _, hv, -, rfl⟩ := h
    exact values_grows hv
  | none =>
    cases collection with
    | list | map => exact absurd h EStateM.throw_ne_ok
    | bag | set =>
      obtain ⟨-, rfl⟩ := EStateM.pure_eq_ok.1 h
      exact .refl r

/-! ## Attributes -/

variable {entities : List Entity} {owner : Owner} {name : String} {n : Nat}
  {columns : List (Option String)} {formulas : Option (List (Option String))}
  {codes : List SqlCode} {mapped : MappedType} {a : Attribute}

/-- What the build of an attribute does, by its storage. -/
theorem stored_ok (h : stored entities owner name n columns formulas codes mapped r = .ok a r') :
    ∃ table, owner.tables[n]? = some table ∧
      match mapped with
      | .basic t => ∃ ids,
        database (Database.values (owner.roleOf name) table columns formulas codes) r = .ok ids r' ∧
        a = .singular ⟨owner.type, name, .basic, .basic t, ids, n, false⟩
      | .component c => ∃ ids r1,
        database (Database.values (owner.roleOf name) table columns formulas codes) r = .ok ids r1 ∧
        component entities owner (owner.roleOf name) c r1 = .ok () r' ∧
        a = .singular ⟨owner.type, name, .embedded, .embeddable (owner.roleOf name), ids, n, false⟩
      | .any t => ∃ ids,
        database (Database.values (owner.roleOf name) table columns formulas codes) r = .ok ids r' ∧
        a = .singular ⟨owner.type, name, .any, .any t, ids, n, false⟩
      | .association target kind => ∃ ids position,
        (∃ e, known entities target = .ok e) ∧
        associationColumns owner (owner.roleOf name) kind (!columns.isEmpty) n
          (Database.values (owner.roleOf name) table columns formulas codes) r =
            .ok (ids, position) r' ∧
        a = .singular ⟨owner.type, name, kind.singularClass, .entity target, ids, position, false⟩
      | .collection c => ∃ p, plural entities owner name c r = .ok p r' ∧ a = .plural p := by
  unfold stored at h
  cases ht : owner.tables[n]? with
  | none =>
    simp only [ht] at h
    exact absurd h EStateM.throw_ne_ok
  | some table =>
    simp only [ht] at h
    refine ⟨table, rfl, ?_⟩
    cases mapped with
    | basic t =>
      simp only [EStateM.bind_eq_ok, EStateM.pure_eq_ok] at h
      obtain ⟨ids, _, hv, rfl, rfl⟩ := h
      exact ⟨ids, basicColumns_ok hv, rfl⟩
    | component c =>
      simp only [EStateM.bind_eq_ok, EStateM.pure_eq_ok] at h
      obtain ⟨ids, r1, hv, _, _, hc, rfl, rfl⟩ := h
      exact ⟨ids, r1, hv, hc, rfl⟩
    | any t =>
      simp only [EStateM.bind_eq_ok, EStateM.pure_eq_ok] at h
      obtain ⟨ids, _, hv, rfl, rfl⟩ := h
      exact ⟨ids, hv, rfl⟩
    | association target kind =>
      simp only [EStateM.bind_eq_ok, EStateM.pure_eq_ok] at h
      obtain ⟨e, _, hk, ⟨ids, position⟩, _, hv, rfl, rfl⟩ := h
      obtain ⟨hknown, rfl⟩ := ofExcept_ok hk
      exact ⟨ids, position, ⟨e, hknown⟩, hv, rfl⟩
    | collection c =>
      simp only [EStateM.bind_eq_ok, EStateM.pure_eq_ok] at h
      obtain ⟨p, _, hp, rfl, rfl⟩ := h
      exact ⟨p, hp, rfl⟩

/-- The table that a collection has of its own, if it has one. -/
def ownTable : Option String → Build (Option TableId)
  | some expression => some <$> tableFor expression
  | none => pure none

theorem ownTable_grows {expression : Option String} {table : Option TableId}
    (h : ownTable expression r = .ok table r') : r.Grows P r' := by
  cases expression with
  | none =>
    obtain ⟨-, rfl⟩ := EStateM.pure_eq_ok.1 h
    exact .refl r
  | some expression =>
    obtain ⟨id, hx, -⟩ := EStateM.map_eq_ok.1 h
    exact tableFor_grows hx

/-- What the build of a collection does: its table, its key, the type and the columns of its
elements and its index, one after the other; then it is kept. -/
theorem plural_ok : ∀ {c : CollectionMapping} {p : PluralAttribute},
    plural entities owner name c r = .ok p r' →
    ∃ table keys type ids index, ∃ id r1 r2 r3 r4 r5,
      ownTable c.collectionTable r = .ok table r1 ∧
      slotTable entities c.role c.element.elementType table = .ok id ∧
      keyColumns c.role id c.keyColumns c.keySqlCodes r1 = .ok keys r2 ∧
      elementType entities owner c.role id c.element.elementType r2 = .ok type r3 ∧
      elementColumns entities c.role c.element.elementType
        (Database.values c.role id c.element.columns c.element.formulas c.element.sqlCodes) r3 =
          .ok ids r4 ∧
      indexOf c.role id c.shape.collectionClass c.index r4 = .ok index r5 ∧
      keepCollection p r5 = .ok () r' ∧
      p = ⟨owner.type, name, c.role, c.shape.collectionClass,
        ⟨c.element.elementType.elementClass, type, ids⟩, index, keys, table⟩
  | ⟨_, _, expression, _, _, ⟨_, _, _, _⟩, _⟩, p, h => by
    cases expression with
    | none | some expression =>
      simp only [plural, EStateM.bind_eq_ok] at h
      obtain ⟨table, r1, ht, id, _, hs, keys, r2, hk, type, r3, hy, ids, r4, he, index, r5, hi, _, _,
        hkeep, hp⟩ := h
      obtain ⟨hslots, rfl⟩ := ofExcept_ok hs
      obtain ⟨rfl, rfl⟩ := EStateM.pure_eq_ok.1 hp
      exact ⟨table, keys, type, ids, index, id, r1, r2, r3, r4, r5, ht, hslots, hk, hy, he, hi, hkeep,
        rfl⟩

/-- The roles under which the build of an attribute keeps embeddables. -/
def Roles (base : String) : MappedType → String → Prop
  | .component _, role => Under base role
  | .collection c, role => ∃ rest, role = c.role ++ "." ++ rest
  | _, _ => False

theorem roles_of_singular {s : SingularAttribute} {base role : String}
    (h : stored entities owner name n columns formulas codes mapped r = .ok (.singular s) r')
    (hr : Roles base mapped role) : Under base role := by
  cases mapped with
  | component c => exact hr
  | collection c =>
    obtain ⟨_, -, _, -, heq⟩ := stored_ok h
    cases heq
  | basic t | any t | association target kind => exact hr.elim

theorem elementRole_eq (role : String) : elementRole role = role ++ "." ++ "\x7belement\x7d" := by
  rw [String.append_assoc]
  rfl

mutual
theorem stored_grows {entities : List Entity} : ∀ {mapped : MappedType} {owner : Owner}
    {name : String} {n : Nat} {columns : List (Option String)}
    {formulas : Option (List (Option String))} {codes : List SqlCode} {r r' : Registry}
    {a : Attribute},
    stored entities owner name n columns formulas codes mapped r = .ok a r' →
    r.Grows (Roles (owner.roleOf name) mapped) r'
  | .basic _, _, _, _, _, _, _, _, _, _, h => by
    obtain ⟨_, -, _, hv, -⟩ := stored_ok h
    exact values_grows hv
  | .component _, _, _, _, _, _, _, _, _, _, h => by
    obtain ⟨_, -, _, _, hv, hc, -⟩ := stored_ok h
    exact (values_grows hv).trans (component_grows hc)
  | .any _, _, _, _, _, _, _, _, _, _, h => by
    obtain ⟨_, -, _, hv, -⟩ := stored_ok h
    exact values_grows hv
  | .association _ _, _, _, _, _, _, _, _, _, _, h => by
    obtain ⟨_, -, _, _, -, hv, -⟩ := stored_ok h
    obtain ⟨-, -, -, -, rfl⟩ | ⟨-, -, hv⟩ := associationColumns_ok hv
    · exact .refl _
    · exact values_grows hv
  | .collection _, _, _, _, _, _, _, _, _, _, h => by
    obtain ⟨_, -, _, hp, -⟩ := stored_ok h
    exact plural_grows hp
theorem component_grows {entities : List Entity} : ∀ {c : ComponentMappingOf MappedType}
    {owner : Owner} {role : String} {r r' : Registry} {u : Unit},
    component entities owner role c r = .ok u r' → r.Grows (Under role) r'
  | ⟨_, _⟩, _, _, _, _, _, h => by
    simp only [component, EStateM.bind_eq_ok] at h
    obtain ⟨_, _, hs, hk⟩ := h
    refine ((subAttributes_grows hs).mono fun role hr => .inr hr).trans ?_
    exact (keepEmbeddable_grows hk).mono fun role hr => .inl hr
theorem subAttributes_grows {entities : List Entity} :
    ∀ {ms : List (AttributeMappingOf MappedType)} {owner : Owner} {r r' : Registry}
    {as : List Attribute}, subAttributes entities owner ms r = .ok as r' →
    r.Grows (fun role => ∃ rest, role = owner.type.name ++ "." ++ rest) r'
  | [], _, _, _, _, h => by
    simp only [subAttributes, EStateM.pure_eq_ok] at h
    obtain ⟨-, rfl⟩ := h
    exact .refl _
  | ⟨_, _, _, _, _, _⟩ :: _, _, _, _, _, h => by
    simp only [subAttributes, EStateM.bind_eq_ok] at h
    obtain ⟨found, _, hs, h⟩ := h
    cases found with
    | plural p => exact absurd h EStateM.throw_ne_ok
    | singular s =>
      simp only [EStateM.bind_eq_ok, EStateM.pure_eq_ok] at h
      obtain ⟨_, _, hrest, -, rfl⟩ := h
      refine ((stored_grows hs).mono fun role hr => ?_).trans (subAttributes_grows hrest)
      exact (roles_of_singular hs hr).of_child
theorem elementType_grows {entities : List Entity} : ∀ {type : ElementTypeOf MappedType}
    {owner : Owner} {role : String} {table : TableId} {r r' : Registry} {t : DomainType},
    elementType entities owner role table type r = .ok t r' →
    r.Grows (fun found => ∃ rest, found = role ++ "." ++ rest) r'
  | .basic _, _, _, _, _, _, _, h => by
    simp only [elementType, EStateM.pure_eq_ok] at h
    exact h.2 ▸ .refl _
  | .any _, _, _, _, _, _, _, h => by
    simp only [elementType, EStateM.pure_eq_ok] at h
    exact h.2 ▸ .refl _
  | .entity _ _, _, _, _, _, _, _, h => by
    simp only [elementType, EStateM.pure_eq_ok] at h
    exact h.2 ▸ .refl _
  | .component _, _, _, _, _, _, _, h => by
    simp only [elementType, EStateM.bind_eq_ok, EStateM.pure_eq_ok] at h
    obtain ⟨_, _, hc, -, rfl⟩ := h
    rw [elementRole_eq] at hc
    exact (component_grows hc).mono fun role hr => hr.of_child
theorem plural_grows {entities : List Entity} : ∀ {c : CollectionMappingOf MappedType}
    {owner : Owner} {name : String} {r r' : Registry} {p : PluralAttribute},
    plural entities owner name c r = .ok p r' →
    r.Grows (fun role => ∃ rest, role = c.role ++ "." ++ rest) r'
  | ⟨_, _, _, _, _, ⟨_, _, _, _⟩, _⟩, _, _, _, _, _, h => by
    obtain ⟨_, _, _, _, _, _, _, _, _, _, _, ht, -, hk, hy, he, hi, hkeep, -⟩ := plural_ok h
    exact (ownTable_grows ht).trans ((keyColumns_grows hk).trans ((elementType_grows hy).trans
      ((elementColumns_grows he).trans ((indexOf_grows hi).trans (keepCollection_grows hkeep)))))
end

theorem plural_name {c : CollectionMapping} {p : PluralAttribute}
    (h : plural entities owner name c r = .ok p r') : p.name = name := by
  obtain ⟨_, _, _, _, _, _, _, _, _, _, _, -, -, -, -, -, -, -, rfl⟩ := plural_ok h
  rfl

theorem stored_name (h : stored entities owner name n columns formulas codes mapped r = .ok a r') :
    a.name = name := by
  cases mapped with
  | basic t | any t =>
    obtain ⟨_, -, _, -, rfl⟩ := stored_ok h
    rfl
  | component c | association target kind =>
    obtain ⟨_, -, _, _, -, -, rfl⟩ := stored_ok h
    rfl
  | collection c =>
    obtain ⟨_, -, _, hp, rfl⟩ := stored_ok h
    exact plural_name hp

/-! ## Columns of attributes -/

/-- An attribute is stored in the given slots of the table of a number. -/
structure Stores (db : Database) (tables : List TableId) (n : Nat) (slots : List Column)
    (s : SingularAttribute) : Prop where
  position : s.tablePosition = n
  columns : ∃ table, tables[n]? = some table ∧ List.Forall₂ (db.Holds table) slots s.columns

theorem Stores.grows {db db' : Database} {tables : List TableId} {slots : List Column}
    {s : SingularAttribute} (h : Stores db tables n slots s) (hg : db.Grows db') :
    Stores db' tables n slots s := by
  obtain ⟨table, ht, hc⟩ := h.columns
  exact ⟨h.position, table, ht, hc.imp fun _ _ hh => hh.grows hg⟩

/-- Attributes that are stored in the same slots have the same columns. -/
theorem Stores.unique {db : Database} {tables : List TableId} {slots : List Column}
    {s s' : SingularAttribute} (h : Stores db tables n slots s) (h' : Stores db tables n slots s') :
    s.columns = s'.columns := by
  obtain ⟨table, ht, hc⟩ := h.columns
  obtain ⟨table', ht', hc'⟩ := h'.columns
  cases ht.symm.trans ht'
  exact List.right_unique_forall₂' (db.holds_rightUnique table) hc hc'

/-- An attribute with slots of its own is stored in them. -/
theorem stored_stores {slots : List Column} (hd : Describes columns formulas codes slots)
    (ho : mapped.ownsSlots = true)
    (h : stored entities owner name n columns formulas codes mapped r = .ok a r') :
    ∃ s, a = .singular s ∧ (s.kind = .any ↔ mapped.isAny) ∧ Stores r'.database owner.tables n slots s := by
  have holds {table : TableId} {ids : List ColumnId} {r1 : Registry}
      (hv : database (Database.values (owner.roleOf name) table columns formulas codes) r =
        .ok ids r1) : List.Forall₂ (r1.database.Holds table) slots ids := by
    obtain ⟨db, hvalues, rfl⟩ := database_ok hv
    exact Database.values_hold hd hvalues
  cases mapped with
  | basic t =>
    obtain ⟨table, ht, ids, hv, rfl⟩ := stored_ok h
    exact ⟨_, rfl, by simp [MappedType.isAny], rfl, table, ht, holds hv⟩
  | component c =>
    obtain ⟨table, ht, ids, r1, hv, hc, rfl⟩ := stored_ok h
    have hg := (component_grows hc).database
    exact ⟨_, rfl, by simp [MappedType.isAny], rfl, table, ht,
      (holds hv).imp fun _ _ hh => hh.grows hg⟩
  | any t =>
    obtain ⟨table, ht, ids, hv, rfl⟩ := stored_ok h
    exact ⟨_, rfl, by simp [MappedType.isAny], rfl, table, ht, holds hv⟩
  | association target kind =>
    obtain ⟨table, ht, ids, position, -, hv, rfl⟩ := stored_ok h
    obtain ⟨rfl, -⟩ | ⟨-, rfl, hvalues⟩ := associationColumns_ok hv
    · simp [MappedType.ownsSlots] at ho
    · exact ⟨_, rfl, by cases kind <;> simp [MappedType.isAny, AssociationKind.singularClass],
        rfl, table, ht, holds hvalues⟩
  | collection c => simp [MappedType.ownsSlots] at ho

/-- An attribute without slots of its own shares the identifier of the owner. -/
theorem stored_shares {s : SingularAttribute} (ho : mapped.ownsSlots = false)
    (h : stored entities owner name n columns formulas codes mapped r = .ok (.singular s) r') :
    columns = [] ∧ s.columns = owner.identifierColumns := by
  cases mapped with
  | association target kind =>
    obtain ⟨table, -, ids, position, -, hv, heq⟩ := stored_ok h
    cases heq
    obtain ⟨-, hd, rfl, -, -⟩ | ⟨hk, -, -⟩ := associationColumns_ok hv
    · exact ⟨by simpa using hd, rfl⟩
    · cases kind with
      | primaryKeyOneToOne => exact absurd rfl hk
      | manyToOne | uniqueKeyOneToOne => cases ho
  | collection c =>
    obtain ⟨_, -, _, -, heq⟩ := stored_ok h
    cases heq
  | basic t | component c | any t => cases ho

end Build

end EntityQuery
