import EntityQuery.Definition.Mapping
import EntityQuery.Proofs.Database

/-!
# The slots that a definition declares

`Definition.slots d a` is the row of slots that the attribute `a` declares: the columns it names, a
default name, a formula, or the slots of an embeddable one after the other, each with its SQL type.
The mapping of an attribute describes that row (`attributeMapping_maps`), and the mapping of an
embeddable describes the rows of its attributes (`componentMapper_agrees`).
-/

set_option autoImplicit false

namespace EntityQuery

/-! ## Declared slots -/

/-- The SQL type of a basic attribute. -/
def BasicDefinition.code? (b : BasicDefinition) : Option SqlCode := do
  let type ← match b.enumStorage with
    | some form => some (ValueType.enum b.typeName form.storage)
    | none => ValueType.ofName? b.typeName
  return b.sqlType.getD type.recommendedCode

/-- A formula is a slot, and so is each named column; without a name the column is called like the
attribute. -/
def BasicDefinition.slots (b : BasicDefinition) : Option (List Column) := do
  let code ← b.code?
  match b.formula with
  | some text => return [⟨.formula text, code⟩]
  | none => return (Definition.namedColumns b.column b.columns [b.name]).map (⟨.column ·, code⟩)

def AnyDefinition.slots (a : AnyDefinition) : Option (List Column) := do
  let discriminator ← ValueType.ofName? a.discriminatorType
  let identifier ← ValueType.ofName? a.identifierType
  return [⟨.column a.discriminatorColumn, discriminator.recommendedCode⟩,
    ⟨.column a.identifierColumn, identifier.recommendedCode⟩]

/-- The columns of a reference, with the SQL types of the identifier it refers to. A reference that
shares the identifier of its owner has none unless they are named. -/
def ToOneDefinition.slots (a : ToOneDefinition) (shared : Bool) (codes : List SqlCode) :
    List Column :=
  List.zipWith (fun name code => ⟨.column name, code⟩)
    (Definition.namedColumns a.column a.columns (if shared then [] else [a.name ++ "_id"])) codes

namespace Definition

/-- The SQL types of the identifier of an entity, from the slots of embeddables. -/
def keyCodesOf? (d : Definition) (embeddable : String → Option (List Column)) (name : String) :
    Option (List SqlCode) := do
  let e ← d.entity? name
  let root ← (d.root e).toOption
  let id ← root.identifier
  match id.embeddable with
  | some name => return (← embeddable name).map (·.sqlCode)
  | none =>
    let type ← ValueType.ofName? (id.typeName.getD "long")
    return List.replicate (max 1 id.columns.length) type.recommendedCode

/-- The slots of an attribute, from those of embeddables. -/
def slotsWith (d : Definition) (embeddable : String → Option (List Column)) :
    AttributeDefinition → Option (List Column)
  | .basic b => b.slots
  | .embedded e => embeddable e.embeddable
  | .any a => a.slots
  | .manyToOne a => (d.keyCodesOf? embeddable a.target).map (a.slots false)
  | .oneToOne a => (d.keyCodesOf? embeddable a.target).map (a.slots a.primaryKey)
  | .oneToMany _ | .manyToMany _ | .elementCollection _ => some []

/-- The slots of an embeddable: those of its attributes, one after the other. -/
def embeddableSlots (d : Definition) : Nat → String → Option (List Column)
  | 0, _ => none
  | depth + 1, name => do
    let e ← d.embeddable? name
    let rows ← e.attributes.mapM (d.slotsWith (d.embeddableSlots depth))
    return rows.flatten

/-- The slots that an attribute declares. -/
def slots (d : Definition) (a : AttributeDefinition) : Option (List Column) :=
  d.slotsWith (d.embeddableSlots d.embeddables.length) a

end Definition

/-- The column names that are given to the identifier of an entity: a subclass may name the columns
of its own table, and the root those of all. -/
def EntityDefinition.keyNames (e : EntityDefinition) (id : IdentifierDefinition) : List String :=
  match e.keyColumns, e.parent with
  | some names, some _ => names
  | _, _ => id.columns

/-- A composite identifier is stored under the column names of its embeddable: the names that are
given to it, if any, are those. -/
def Definition.KeepsKeyNames (d : Definition) (e : EntityDefinition) : Prop :=
  ∀ id name slots, d.rootIdentifier e = .ok id → id.embeddable = some name →
    d.embeddableSlots d.embeddables.length name = some slots →
    (e.keyNames id).isEmpty ∨ (e.keyNames id).map some = slots.map (·.expression.column?)

/-! ## Attributes with slots of their own -/

/-- Whether an attribute is stored in slots of its own: it is neither a collection nor a reference
that shares the identifier of its owner. -/
def AttributeDefinition.ownsSlots : AttributeDefinition → Bool
  | .basic _ | .embedded _ | .any _ | .manyToOne _ => true
  | .oneToOne a => !a.primaryKey
  | .oneToMany _ | .manyToMany _ | .elementCollection _ => false

def AttributeDefinition.isAny : AttributeDefinition → Bool
  | .any _ => true
  | _ => false

theorem AttributeDefinition.isPlural_of_ownsSlots {a : AttributeDefinition}
    (h : a.ownsSlots = true) : a.isPlural = false := by
  cases a with
  | oneToMany a | manyToMany a | elementCollection a => cases h
  | basic a | embedded a | any a | manyToOne a | oneToOne a => rfl

/-- Whether the storage has slots of its own. -/
def MappedType.ownsSlots : MappedType → Bool
  | .association _ .primaryKeyOneToOne | .collection _ => false
  | _ => true

/-- Whether the storage is a reference of any kind. -/
def MappedType.isAny : MappedType → Bool
  | .any _ => true
  | _ => false

/-- A mapping is that of an attribute in the table of a number, which declares the given slots. -/
structure Definition.Maps (d : Definition) (embeddable : String → Option (List Column))
    (tableNumber : Nat) (a : AttributeDefinition) (m : AttributeMapping) (slots : List Column) :
    Prop where
  name : m.name = a.name
  tableNumber : m.tableNumber = tableNumber
  declared : d.slotsWith embeddable a = some slots
  described : Describes m.columns m.formulas m.sqlCodes slots
  ownsSlots : m.mappedType.ownsSlots = a.ownsSlots
  isAny : m.mappedType.isAny = a.isAny

namespace Definition

variable {d : Definition} {component : ComponentMapper}
  {embeddable : String → Option (List Column)} {context : String} {n : Nat} {m : AttributeMapping}

/-! ## Attributes without parts -/

theorem valueType_ok {name : String} {type : ValueType} (h : valueType name context = .ok type) :
    ValueType.ofName? name = some type := by
  unfold valueType at h
  split at h
  · rename_i found hf
    cases h
    exact hf
  · cases h

theorem basicType_code {b : BasicDefinition} {type : BasicType}
    (h : basicType b.typeName b.enumStorage b.sqlType b.converter context = .ok type) :
    b.code? = some type.sqlCode := by
  unfold basicType at h
  cases hs : b.enumStorage with
  | some form =>
    simp only [hs, Except.bind_eq_ok, Except.pure_eq_ok] at h
    obtain ⟨_, rfl, rfl⟩ := h
    simp [BasicDefinition.code?, hs]
  | none =>
    simp only [hs, Except.bind_eq_ok, Except.pure_eq_ok] at h
    obtain ⟨_, hv, rfl⟩ := h
    simp [BasicDefinition.code?, hs, valueType_ok hv]

theorem describes_typed (names : List String) (code : SqlCode) :
    Describes (names.map some) none (names.map fun _ => code)
      (names.map (⟨.column ·, code⟩)) := by
  refine ⟨?_, ?_, ?_⟩ <;>
    simp [Function.comp_def, ColumnExpression.column?, ColumnExpression.formula?]

theorem basicMapping_maps {b : BasicDefinition} (h : basicMapping b context n = .ok m) :
    ∃ slots, d.Maps embeddable n (.basic b) m slots := by
  simp only [basicMapping, Except.bind_eq_ok] at h
  obtain ⟨type, ht, h⟩ := h
  have hcode := basicType_code ht
  cases hf : b.formula with
  | some text =>
    simp only [hf, Except.pure_eq_ok] at h
    subst h
    exact ⟨[⟨.formula text, type.sqlCode⟩], rfl, rfl,
      by simp [slotsWith, BasicDefinition.slots, hcode, hf], ⟨rfl, rfl, rfl⟩, rfl, rfl⟩
  | none =>
    simp only [hf, Except.pure_eq_ok] at h
    subst h
    exact ⟨_, rfl, rfl, by simp [slotsWith, BasicDefinition.slots, hcode, hf],
      describes_typed _ type.sqlCode, rfl, rfl⟩

theorem anyMapping_maps {a : AnyDefinition} (h : anyMapping a context n = .ok m) :
    ∃ slots, d.Maps embeddable n (.any a) m slots := by
  simp only [anyMapping, anyType, Except.bind_eq_ok, Except.pure_eq_ok] at h
  obtain ⟨_, ⟨discriminator, hd, identifier, hi, rfl⟩, rfl⟩ := h
  refine ⟨[⟨.column a.discriminatorColumn, discriminator.recommendedCode⟩,
    ⟨.column a.identifierColumn, identifier.recommendedCode⟩], rfl, rfl, ?_, ⟨rfl, rfl, rfl⟩, rfl, rfl⟩
  simp [slotsWith, AnyDefinition.slots, valueType_ok hd, valueType_ok hi]

end Definition

/-! ## Embeddables -/

/-- The attributes of a component describe its slots, one after the other. -/
structure ComponentDescribes (c : ComponentMapping) (slots : List Column) : Prop where
  row : Describes (c.attributes.flatMap (·.columns)) (Definition.joinedFormulas c.attributes)
    (c.attributes.flatMap (·.sqlCodes)) slots
  zipped : Definition.componentSlots c = slots.map fun s => (s.expression.column?, s.sqlCode)

namespace Definition

variable {d : Definition} {component : ComponentMapper}
  {embeddable : String → Option (List Column)} {context : String} {n : Nat} {m : AttributeMapping}

/-- The attributes describe rows of slots, each its own. -/
abbrev RowsOf (ms : List AttributeMapping) (rows : List (List Column)) : Prop :=
  List.Forall₂ (fun (m : AttributeMapping) row => Describes m.columns m.formulas m.sqlCodes row)
    ms rows

theorem maps_rows {as : List AttributeDefinition} {ms : List AttributeMapping}
    (h : List.Forall₂ (fun a m => ∃ slots, d.Maps embeddable n a m slots) as ms) :
    ∃ rows, as.mapM (d.slotsWith embeddable) = some rows ∧ RowsOf ms rows := by
  induction h with
  | nil => exact ⟨[], rfl, .nil⟩
  | cons hm _ ih =>
    obtain ⟨slots, hm⟩ := hm
    obtain ⟨rows, hrows, hall⟩ := ih
    exact ⟨slots :: rows, by simp [List.mapM_cons, hm.declared, hrows], .cons hm.described hall⟩

theorem flatMap_eq_flatten_map {α β γ : Type} {f : α → List γ} {g : β → γ} {xs : List α}
    {rows : List (List β)} (h : List.Forall₂ (fun x row => f x = row.map g) xs rows) :
    xs.flatMap f = rows.flatten.map g := by
  induction h with
  | nil => rfl
  | cons hx _ ih => rw [List.flatMap_cons, List.flatten_cons, List.map_append, hx, ih]

theorem joinedFormulas_getD {ms : List AttributeMapping} {slots : List Column}
    (hc : ms.flatMap (·.columns) = slots.map (·.expression.column?))
    (hf : ms.flatMap formulaSlots = slots.map (·.expression.formula?)) :
    (joinedFormulas ms).getD ((ms.flatMap (·.columns)).map fun _ => none) =
      slots.map (·.expression.formula?) := by
  simp only [joinedFormulas]
  split
  · exact hf
  · rename_i hnone
    rw [hf] at hnone
    rw [hc, List.map_map, Option.getD_none]
    refine List.map_congr_left fun s hs => ?_
    have : ¬ s.expression.formula?.isSome := fun hsome =>
      hnone (List.any_eq_true.2 ⟨_, List.mem_map_of_mem hs, hsome⟩)
    exact (Option.not_isSome_iff_eq_none.1 this).symm

/-- Rows one after the other make a row. -/
theorem component_describes {name : String} {ms : List AttributeMapping} {rows : List (List Column)}
    (h : RowsOf ms rows) : ComponentDescribes ⟨name, ms⟩ rows.flatten := by
  have hcolumns : ms.flatMap (·.columns) = rows.flatten.map (·.expression.column?) :=
    flatMap_eq_flatten_map (h.imp fun _ _ hm => hm.named)
  have hformulas : ms.flatMap formulaSlots = rows.flatten.map (·.expression.formula?) :=
    flatMap_eq_flatten_map (h.imp fun _ _ hm => hm.computed)
  have hcodes : ms.flatMap (·.sqlCodes) = rows.flatten.map (·.sqlCode) :=
    flatMap_eq_flatten_map (h.imp fun _ _ hm => hm.typed)
  refine ⟨⟨hcolumns, joinedFormulas_getD hcolumns hformulas, hcodes⟩, ?_⟩
  refine flatMap_eq_flatten_map (h.imp fun m row hm => ?_)
  rw [hm.named, hm.typed, List.zip_map']

/-- A way to map embeddables agrees with a way to tell their slots. -/
def Agrees (component : ComponentMapper) (embeddable : String → Option (List Column)) : Prop :=
  ∀ context name n c, component context name n = .ok c →
    ∃ slots, embeddable name = some slots ∧ ComponentDescribes c slots

theorem embeddedMapping_maps (hc : Agrees component embeddable) {a : EmbeddedDefinition}
    (h : embeddedMapping a component context n = .ok m) :
    ∃ slots, d.Maps embeddable n (.embedded a) m slots := by
  simp only [embeddedMapping, Except.bind_eq_ok, Except.pure_eq_ok] at h
  obtain ⟨c, hcomponent, rfl⟩ := h
  obtain ⟨slots, hslots, hdescribes⟩ := hc _ _ _ _ hcomponent
  exact ⟨slots, rfl, rfl, hslots, hdescribes.row, rfl, rfl⟩

/-! ## References -/

theorem plainColumns_ok : ∀ {slots : List (Option String)} {columns : List String},
    plainColumns context slots = .ok columns → slots = columns.map some
  | [], _, h => by cases h; rfl
  | some _ :: _, _, h => by
    simp only [plainColumns, Except.bind_eq_ok, Except.pure_eq_ok] at h
    obtain ⟨rest, hrest, rfl⟩ := h
    rw [plainColumns_ok hrest, List.map_cons]
  | none :: _, _, h => by cases h

theorem rootIdentifier_ok {e : EntityDefinition} {id : IdentifierDefinition}
    (h : d.rootIdentifier e = .ok id) : ∃ r, d.root e = .ok r ∧ r.identifier = some id := by
  simp only [rootIdentifier, Except.bind_eq_ok] at h
  obtain ⟨r, hr, h⟩ := h
  split at h
  · rename_i found hf
    cases h
    exact ⟨r, hr, hf⟩
  · cases h

theorem entity_ok {name : String} {e : EntityDefinition} (h : d.entity name = .ok e) :
    d.entity? name = some e := by
  unfold entity at h
  split at h
  · rename_i found hf
    cases h
    exact hf
  · cases h

/-- The columns and SQL types of an identifier: those of its embeddable unless it names others, or
columns of one type. -/
theorem identifierSlots_ok {e : EntityDefinition} {columns : List String} {codes : List SqlCode}
    (h : d.identifierSlots component e = .ok (columns, codes)) :
    ∃ id, d.rootIdentifier e = .ok id ∧
      ((∃ name c own, id.embeddable = some name ∧
          component s!"{e.name}.{id.name}" name 0 = .ok c ∧
          (componentSlots c).map (·.1) = own.map some ∧
          columns = (if id.columns.isEmpty then own else id.columns) ∧
          codes = (componentSlots c).map (·.2)) ∨
        ∃ type, id.embeddable = none ∧ ValueType.ofName? (id.typeName.getD "long") = some type ∧
          columns = (if id.columns.isEmpty then [id.name] else id.columns) ∧
          codes = List.replicate (max 1 id.columns.length) type.recommendedCode) := by
  simp only [identifierSlots, Except.bind_eq_ok] at h
  obtain ⟨id, hid, h⟩ := h
  refine ⟨id, hid, ?_⟩
  cases he : id.embeddable with
  | some name =>
    simp only [he, Except.bind_eq_ok] at h
    obtain ⟨c, hc, own, hown, h⟩ := h
    refine .inl ⟨name, c, own, rfl, hc, plainColumns_ok hown, ?_⟩
    by_cases hcolumns : id.columns.isEmpty
    · simp only [hcolumns, if_true, Except.pure_eq_ok, Prod.mk.injEq] at h
      exact ⟨by simp [hcolumns, h.1], h.2.symm⟩
    · simp only [hcolumns, Bool.false_eq_true, if_false, Except.guard_eq_ok, Except.pure_eq_ok,
        Prod.mk.injEq] at h
      obtain ⟨-, hown, hcodes⟩ := h
      exact ⟨by rw [if_neg hcolumns, hown], hcodes.symm⟩
  | none =>
    simp only [he, Except.bind_eq_ok, Except.pure_eq_ok, Prod.mk.injEq] at h
    obtain ⟨type, ht, hcolumns, rfl⟩ := h
    refine .inr ⟨type, rfl, valueType_ok ht, hcolumns.symm, ?_⟩
    cases id.columns <;> simp [List.map_const', List.replicate_succ]

theorem identifierCodes_ok (hc : Agrees component embeddable) {name : String}
    {codes : List SqlCode} (h : d.identifierCodes component name = .ok codes) :
    d.keyCodesOf? embeddable name = some codes := by
  simp only [identifierCodes, Except.bind_eq_ok, Except.pure_eq_ok] at h
  obtain ⟨e, he, ⟨columns, codes'⟩, hs, rfl⟩ := h
  obtain ⟨id, hid, hcases⟩ := identifierSlots_ok hs
  obtain ⟨r, hr, hri⟩ := rootIdentifier_ok hid
  obtain ⟨name', c, own, hemb, hcomponent, -, -, rfl⟩ | ⟨type, hemb, ht, -, rfl⟩ := hcases
  · obtain ⟨slots, hslots, hdescribes⟩ := hc _ _ _ _ hcomponent
    simp [keyCodesOf?, entity_ok he, hr, Except.toOption, hri, hemb, hslots, hdescribes.zipped,
      Function.comp_def]
  · simp [keyCodesOf?, entity_ok he, hr, Except.toOption, hri, hemb, ht]

/-- The identifier of an entity: its columns are those of a subclass that names them, or those of
the hierarchy, and its type is that of the columns or an embeddable. -/
theorem identifierMapping_ok {e : EntityDefinition} {im : IdentifierMapping}
    (h : d.identifierMapping component e = .ok im) :
    ∃ id columns, d.rootIdentifier e = .ok id ∧ im.name = id.name ∧
      d.identifierSlots component e = .ok (columns, im.sqlCodes) ∧
      (im.columns = columns ∧ e.keyNames id = id.columns ∨
        e.parent ≠ none ∧ e.keyColumns = some im.columns ∧ im.columns = e.keyNames id ∧
          im.columns.length = columns.length) ∧
      ((∃ name c, id.embeddable = some name ∧
          component s!"{e.name}.{id.name}" name 0 = .ok c ∧ im.idType = .component c) ∨
        ∃ t, im.idType = .basic t) := by
  simp only [identifierMapping, Except.bind_eq_ok, Prod.exists] at h
  obtain ⟨id, hid, columns, codes, hs, h⟩ := h
  refine ⟨id, columns, hid, ?_⟩
  unfold EntityDefinition.keyNames
  cases he : id.embeddable with
  | some name =>
    cases hk : e.keyColumns with
    | none =>
      simp only [he, hk, Except.bind_eq_ok, Except.map_eq_ok, Except.pure_eq_ok] at h
      obtain ⟨_, rfl, _, ⟨c, hc, rfl⟩, rfl⟩ := h
      exact ⟨rfl, hs, .inl ⟨rfl, rfl⟩, .inl ⟨name, c, rfl, hc, rfl⟩⟩
    | some keys =>
      cases hp : e.parent with
      | none =>
        simp only [he, hk, hp, Except.bind_eq_ok, Except.map_eq_ok, Except.pure_eq_ok] at h
        obtain ⟨_, rfl, _, ⟨c, hc, rfl⟩, rfl⟩ := h
        exact ⟨rfl, hs, .inl ⟨rfl, rfl⟩, .inl ⟨name, c, rfl, hc, rfl⟩⟩
      | some parent =>
        simp only [he, hk, hp, Except.guard_eq_ok, Except.bind_eq_ok, Except.map_eq_ok,
          Except.pure_eq_ok] at h
        obtain ⟨hlength, _, rfl, _, ⟨c, hc, rfl⟩, rfl⟩ := h
        exact ⟨rfl, hs, .inr ⟨by simp, rfl, rfl, not_not.1 hlength⟩, .inl ⟨name, c, rfl, hc, rfl⟩⟩
  | none =>
    cases hk : e.keyColumns with
    | none =>
      simp only [he, hk, Except.bind_eq_ok, Except.pure_eq_ok] at h
      obtain ⟨_, rfl, _, -, _, rfl, rfl⟩ := h
      exact ⟨rfl, hs, .inl ⟨rfl, rfl⟩, .inr ⟨_, rfl⟩⟩
    | some keys =>
      cases hp : e.parent with
      | none =>
        simp only [he, hk, hp, Except.bind_eq_ok, Except.pure_eq_ok] at h
        obtain ⟨_, rfl, _, -, _, rfl, rfl⟩ := h
        exact ⟨rfl, hs, .inl ⟨rfl, rfl⟩, .inr ⟨_, rfl⟩⟩
      | some parent =>
        simp only [he, hk, hp, Except.guard_eq_ok, Except.bind_eq_ok, Except.pure_eq_ok] at h
        obtain ⟨hlength, _, rfl, _, -, _, rfl, rfl⟩ := h
        exact ⟨rfl, hs, .inr ⟨by simp, rfl, rfl, not_not.1 hlength⟩, .inr ⟨_, rfl⟩⟩

/-- A composite identifier is stored under the names that are given to it, or else under those of
its embeddable. -/
theorem identifierMapping_component {e : EntityDefinition} {im : IdentifierMapping}
    {c : ComponentMapping} (h : d.identifierMapping component e = .ok im)
    (ht : im.idType = .component c) :
    ∃ id name own, d.rootIdentifier e = .ok id ∧ im.name = id.name ∧ id.embeddable = some name ∧
      component s!"{e.name}.{id.name}" name 0 = .ok c ∧
      (componentSlots c).map (·.1) = own.map some ∧
      im.columns = (if (e.keyNames id).isEmpty then own else e.keyNames id) ∧
      im.sqlCodes = (componentSlots c).map (·.2) := by
  obtain ⟨id, columns, hid, hname, hs, hcolumns, htype⟩ := identifierMapping_ok h
  obtain ⟨name, c', hemb, hc, ht'⟩ | ⟨t, ht'⟩ := htype
  · cases ht.symm.trans ht'
    obtain ⟨id', hid', hslots⟩ := identifierSlots_ok hs
    cases hid.symm.trans hid'
    obtain ⟨name', c', own, hemb', hc', hown, rfl, hcodes⟩ | ⟨_, hnone, -⟩ := hslots
    · cases hemb.symm.trans hemb'
      cases hc.symm.trans hc'
      refine ⟨id, name, own, hid, hname, hemb, hc, hown, ?_, hcodes⟩
      obtain ⟨hcolumns, hnames⟩ | ⟨-, -, hcolumns, hlength⟩ := hcolumns
      · rw [hcolumns, hnames]
      · rw [hcolumns] at hlength ⊢
        split
        · rename_i hempty
          rw [List.isEmpty_iff.1 hempty, List.length_nil] at hlength
          rw [List.isEmpty_iff.1 hempty]
          -- columns of no width are those of the embeddable
          split at hlength
          · exact (List.eq_nil_of_length_eq_zero hlength.symm).symm
          · rename_i hcolumns'
            exact absurd (List.isEmpty_iff.2 (List.eq_nil_of_length_eq_zero hlength.symm)) hcolumns'
        · rfl
    · cases hemb.symm.trans hnone
  · cases ht.symm.trans ht'

theorem defaultReference_eq (name : String) (kind : AssociationKind) :
    defaultReference name kind = if kind = .primaryKeyOneToOne then [] else [name ++ "_id"] := by
  cases kind <;> rfl

theorem toOneMapping_ok (hc : Agrees component embeddable) {a : ToOneDefinition} {oneToOne : Bool}
    (h : d.toOneMapping component a oneToOne context n = .ok m) :
    ∃ kind codes, associationKind oneToOne a.primaryKey context = .ok kind ∧
      d.keyCodesOf? embeddable a.target = some codes ∧ m.name = a.name ∧ m.tableNumber = n ∧
      Describes m.columns m.formulas m.sqlCodes (a.slots (kind = .primaryKeyOneToOne) codes) ∧
      m.mappedType = .association a.target kind := by
  simp only [toOneMapping, Except.bind_eq_ok] at h
  obtain ⟨kind, hk, codes, hcodes, h⟩ := h
  refine ⟨kind, codes, hk, identifierCodes_ok hc hcodes, ?_⟩
  simp only [ToOneDefinition.slots, decide_eq_true_eq, ← defaultReference_eq]
  generalize namedColumns a.column a.columns (defaultReference a.name kind) = names at h ⊢
  split at h
  · rename_i hempty
    cases h
    rw [List.isEmpty_iff.1 hempty]
    exact ⟨rfl, rfl, ⟨rfl, rfl, rfl⟩, rfl⟩
  · split at h
    · obtain ⟨_, ht, -⟩ := Except.bind_eq_ok.1 h
      exact absurd ht Except.throw_ne_ok
    · rename_i hlength
      cases h
      exact ⟨rfl, rfl, describes_columns (not_not.1 hlength), rfl⟩

theorem manyToOne_maps (hc : Agrees component embeddable) {a : ToOneDefinition}
    (h : d.toOneMapping component a false context n = .ok m) :
    ∃ slots, d.Maps embeddable n (.manyToOne a) m slots := by
  obtain ⟨kind, codes, hk, hcodes, hname, hnumber, hdescribes, htype⟩ := toOneMapping_ok hc h
  cases hp : a.primaryKey with
  | true =>
    rw [hp] at hk
    cases hk
  | false =>
    rw [hp] at hk
    cases hk
    exact ⟨_, hname, hnumber, by rw [slotsWith, hcodes]; rfl, hdescribes, by rw [htype]; rfl,
      by rw [htype]; rfl⟩

theorem oneToOne_maps (hc : Agrees component embeddable) {a : ToOneDefinition}
    (h : d.toOneMapping component a true context n = .ok m) :
    ∃ slots, d.Maps embeddable n (.oneToOne a) m slots := by
  obtain ⟨kind, codes, hk, hcodes, hname, hnumber, hdescribes, htype⟩ := toOneMapping_ok hc h
  cases hp : a.primaryKey with
  | true =>
    rw [hp] at hk
    cases hk
    exact ⟨_, hname, hnumber, by rw [slotsWith, hcodes, hp]; rfl, hdescribes,
      by rw [htype]; simp [MappedType.ownsSlots, AttributeDefinition.ownsSlots, hp],
      by rw [htype]; rfl⟩
  | false =>
    rw [hp] at hk
    cases hk
    exact ⟨_, hname, hnumber, by rw [slotsWith, hcodes, hp]; rfl, hdescribes,
      by rw [htype]; simp [MappedType.ownsSlots, AttributeDefinition.ownsSlots, hp],
      by rw [htype]; rfl⟩

/-! ## Attributes and embeddables -/

/-- The mapping of an attribute that is no collection describes the slots it declares. -/
theorem attributeMapping_maps (hc : Agrees component embeddable) {owner : String}
    {a : AttributeDefinition} (hp : a.isPlural = false)
    (h : d.attributeMapping component owner n a = .ok m) :
    ∃ slots, d.Maps embeddable n a m slots := by
  cases a with
  | basic b => exact basicMapping_maps h
  | embedded a => exact embeddedMapping_maps hc h
  | any a => exact anyMapping_maps h
  | manyToOne a => exact manyToOne_maps hc h
  | oneToOne a => exact oneToOne_maps hc h
  | oneToMany a | manyToMany a | elementCollection a => cases hp

/-- A collection is mapped under the role of the attribute that declares it. -/
theorem attributeMapping_plural {owner : String} {a : AttributeDefinition} (hp : a.isPlural = true)
    (h : d.attributeMapping component owner n a = .ok m) :
    ∃ c, m = collectionMapping a.name n c ∧ c.role = s!"{owner}.{a.name}" := by
  cases a with
  | oneToMany a =>
    simp only [attributeMapping, oneToManyMapping, Except.bind_eq_ok, Except.pure_eq_ok] at h
    obtain ⟨_, -, _, -, _, -, rfl⟩ := h
    exact ⟨_, rfl, rfl⟩
  | manyToMany a =>
    simp only [attributeMapping, manyToManyMapping, Except.bind_eq_ok, Except.guard_eq_ok,
      Except.pure_eq_ok] at h
    obtain ⟨_, -, -, _, -, _, -, rfl⟩ := h
    exact ⟨_, rfl, rfl⟩
  | elementCollection a =>
    simp only [attributeMapping, elementCollectionMapping, Except.bind_eq_ok, Except.pure_eq_ok] at h
    obtain ⟨_, -, _, -, _, -, rfl⟩ := h
    exact ⟨_, rfl, rfl⟩
  | basic a | embedded a | any a | manyToOne a | oneToOne a => cases hp

/-- What the elements of a collection are, by their declaration. -/
theorem elementMapping_type {element : ElementDefinition} {em : ElementMapping}
    (h : elementMapping component context element = .ok em) :
    match element with
    | .basic .. => ∃ t, em.elementType = .basic t
    | .embeddable name => ∃ c, em.elementType = .component c ∧ component context name 0 = .ok c
    | .any .. => ∃ t, em.elementType = .any t := by
  cases element with
  | basic typeName column sqlType enumStorage =>
    simp only [elementMapping, Except.bind_eq_ok, Except.pure_eq_ok] at h
    obtain ⟨type, -, rfl⟩ := h
    exact ⟨type, rfl⟩
  | embeddable name =>
    simp only [elementMapping, Except.bind_eq_ok, Except.pure_eq_ok] at h
    obtain ⟨c, hc, rfl⟩ := h
    exact ⟨c, rfl, hc⟩
  | any discriminatorColumn identifierColumn discriminatorType identifierType =>
    simp only [elementMapping, Except.bind_eq_ok, Except.pure_eq_ok] at h
    obtain ⟨type, -, rfl⟩ := h
    exact ⟨type, rfl⟩

/-- A mapping is that of a collection: it has the table and the elements that the attribute
declares. -/
def MapsCollection (d : Definition) (component : ComponentMapper) (context : String) :
    AttributeDefinition → CollectionMapping → Prop
  | .oneToMany a, c =>
    c.collectionTable = none ∧ c.element = ⟨.entity a.target false, [], none, []⟩
  | .manyToMany a, c =>
    c.collectionTable = some a.collectionTable ∧
      ∃ codes, d.identifierCodes component a.target = .ok codes ∧
        codes.length = a.elementColumns.length ∧
        c.element = ⟨.entity a.target true, a.elementColumns.map some, none, codes⟩
  | .elementCollection a, c =>
    c.collectionTable = some a.collectionTable ∧
      elementMapping component context a.element = .ok c.element
  | _, _ => False

theorem attributeMapping_collection {owner : String} {a : AttributeDefinition}
    {c : CollectionMapping} (h : d.attributeMapping component owner n a = .ok m)
    (ht : m.mappedType = .collection c) : d.MapsCollection component s!"{owner}.{a.name}" a c := by
  cases a with
  | basic b =>
    simp only [attributeMapping, basicMapping, Except.bind_eq_ok] at h
    obtain ⟨type, -, h⟩ := h
    split at h <;> (cases h; cases ht)
  | embedded x =>
    simp only [attributeMapping, embeddedMapping, Except.bind_eq_ok, Except.pure_eq_ok] at h
    obtain ⟨_, -, rfl⟩ := h
    cases ht
  | any a =>
    simp only [attributeMapping, anyMapping, Except.bind_eq_ok, Except.pure_eq_ok] at h
    obtain ⟨_, -, rfl⟩ := h
    cases ht
  | manyToOne a | oneToOne a =>
    simp only [attributeMapping, toOneMapping, Except.bind_eq_ok] at h
    obtain ⟨kind, -, codes, -, h⟩ := h
    split at h
    · cases h
      cases ht
    · simp only [Except.guard_eq_ok, Except.pure_eq_ok] at h
      obtain ⟨-, rfl⟩ := h
      cases ht
  | oneToMany a =>
    simp only [attributeMapping, oneToManyMapping, Except.bind_eq_ok, Except.pure_eq_ok] at h
    obtain ⟨_, -, _, -, _, -, rfl⟩ := h
    cases ht
    exact ⟨rfl, rfl⟩
  | manyToMany a =>
    simp only [attributeMapping, manyToManyMapping, Except.bind_eq_ok, Except.guard_eq_ok,
      Except.pure_eq_ok] at h
    obtain ⟨codes, hcodes, hlength, _, -, _, -, rfl⟩ := h
    cases ht
    exact ⟨rfl, codes, hcodes, not_not.1 hlength, rfl⟩
  | elementCollection a =>
    simp only [attributeMapping, elementCollectionMapping, Except.bind_eq_ok, Except.pure_eq_ok] at h
    obtain ⟨element, helement, _, -, _, -, rfl⟩ := h
    cases ht
    exact ⟨rfl, helement⟩

theorem attributeMapping_name (hc : Agrees component embeddable) {owner : String}
    {a : AttributeDefinition} (h : d.attributeMapping component owner n a = .ok m) :
    m.name = a.name := by
  cases hp : a.isPlural with
  | true =>
    obtain ⟨c, rfl, -⟩ := attributeMapping_plural hp h
    rfl
  | false =>
    obtain ⟨slots, hm⟩ := attributeMapping_maps hc hp h
    exact hm.name

/-- Only embedded attributes are stored as components, and collections under the role of the
attribute that declares them. -/
theorem attributeMapping_type (hc : Agrees component embeddable) {owner : String}
    {a : AttributeDefinition} (h : d.attributeMapping component owner n a = .ok m) :
    match m.mappedType with
    | .component c => ∃ x, a = .embedded x ∧ component s!"{owner}.{a.name}" x.embeddable n = .ok c
    | .collection c => c.role = s!"{owner}.{a.name}"
    | _ => True := by
  cases a with
  | basic b =>
    simp only [attributeMapping, basicMapping, Except.bind_eq_ok] at h
    obtain ⟨type, -, h⟩ := h
    split at h <;> (cases h; trivial)
  | embedded x =>
    simp only [attributeMapping, embeddedMapping, Except.bind_eq_ok, Except.pure_eq_ok] at h
    obtain ⟨_, hcomponent, rfl⟩ := h
    exact ⟨x, rfl, hcomponent⟩
  | any a =>
    simp only [attributeMapping, anyMapping, Except.bind_eq_ok, Except.pure_eq_ok] at h
    obtain ⟨_, -, rfl⟩ := h
    trivial
  | manyToOne a | oneToOne a =>
    obtain ⟨_, _, -, -, -, -, -, htype⟩ := toOneMapping_ok hc h
    rw [htype]
    trivial
  | oneToMany a | manyToMany a | elementCollection a =>
    obtain ⟨c, rfl, hrole⟩ := attributeMapping_plural rfl h
    exact hrole

theorem subMapping_ok {owner : String} {a : AttributeDefinition}
    (h : d.subMapping component owner n a = .ok m) :
    a.isPlural = false ∧ d.attributeMapping component owner n a = .ok m := by
  unfold subMapping at h
  split at h
  · cases h
  · rename_i hp
    exact ⟨by simpa using hp, h⟩

/-- The mapping of an embeddable maps its attributes one by one. -/
theorem componentMapper_ok {depth : Nat} {name : String} {c : ComponentMapping}
    (h : d.componentMapper depth context name n = .ok c) :
    ∃ depth' e, depth = depth' + 1 ∧ d.embeddable? name = some e ∧ c.embeddableName = e.name ∧
      List.Forall₂ (fun a m => d.subMapping (d.componentMapper depth') context n a = .ok m)
        e.attributes c.attributes := by
  unfold componentMapper at h
  split at h
  · cases h
  · rename_i e he
    split at h
    · cases h
    · rename_i depth'
      simp only [Except.bind_eq_ok, Except.pure_eq_ok] at h
      obtain ⟨ms, hms, rfl⟩ := h
      exact ⟨depth', e, rfl, he, rfl, Except.mapM_ok hms⟩

theorem componentMapper_agrees : ∀ (depth : Nat),
    Agrees (d.componentMapper depth) (d.embeddableSlots depth)
  | 0 => fun context name n c h => by
    obtain ⟨_, _, hdepth, -⟩ := componentMapper_ok h
    cases hdepth
  | depth + 1 => fun context name n c h => by
    obtain ⟨_, e, hdepth, he, -, hms⟩ := componentMapper_ok h
    cases hdepth
    obtain ⟨rows, hrows, hall⟩ := maps_rows (hms.imp fun a m hm =>
      attributeMapping_maps (componentMapper_agrees depth) (subMapping_ok hm).1 (subMapping_ok hm).2)
    exact ⟨rows.flatten, by simp [embeddableSlots, he, hrows], component_describes hall⟩

end Definition

end EntityQuery
