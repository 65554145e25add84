import EntityQuery.Proofs.EmbeddedPaths
import EntityQuery.Proofs.ForeignKeys

/-!
# The widths of associations

An association is joined by comparing its columns with the identifier of the entity that it leads
to, so there have to be as many of one as of the other. `association_joins_by_width`: in the
metamodel of a definition they are as many, unless the association is a one-to-one that shares the
key of its owner. Such a one-to-one has the columns of that key, however many the other entity's
identifier has (`shared_key_not_joined`).

The number of columns is checked where an attribute is mapped (`toOneMapping_width`), against an
identifier that is told at some depth of embeddables; a greater depth does not change it
(`embeddableSlots_mono`).
-/

set_option autoImplicit false

namespace EntityQuery

/-! ## Identifiers at any depth -/

theorem mapM_mono {α β : Type} {f g : α → Option β}
    (h : ∀ a b, f a = some b → g a = some b) :
    ∀ {xs : List α} {ys : List β}, xs.mapM f = some ys → xs.mapM g = some ys
  | [], _, hxs => hxs
  | x :: xs, ys, hxs => by
    simp only [List.mapM_cons, Option.bind_eq_bind, Option.bind_eq_some_iff] at hxs ⊢
    obtain ⟨y, hy, rest, hrest, heq⟩ := hxs
    exact ⟨y, h x y hy, rest, mapM_mono h hrest, heq⟩

namespace Definition

variable {d : Definition} {embeddable more : String → Option (List Column)}

theorem keyCodesOf?_mono (h : ∀ name slots, embeddable name = some slots → more name = some slots)
    {name : String} {codes : List SqlCode} (hc : d.keyCodesOf? embeddable name = some codes) :
    d.keyCodesOf? more name = some codes := by
  simp only [keyCodesOf?, Option.bind_eq_bind, Option.bind_eq_some_iff] at hc ⊢
  obtain ⟨e, he, root, hr, id, hid, hc⟩ := hc
  refine ⟨e, he, root, hr, id, hid, ?_⟩
  split at hc
  · rename_i inner _
    obtain ⟨slots, hs, hc⟩ := Option.bind_eq_some_iff.1 hc
    exact Option.bind_eq_some_iff.2 ⟨slots, h inner slots hs, hc⟩
  · exact hc

theorem slotsWith_mono (h : ∀ name slots, embeddable name = some slots → more name = some slots)
    {a : AttributeDefinition} {slots : List Column} (ha : d.slotsWith embeddable a = some slots) :
    d.slotsWith more a = some slots := by
  cases a with
  | embedded e => exact h _ _ ha
  | manyToOne a | oneToOne a =>
    simp only [slotsWith, Option.map_eq_some_iff] at ha ⊢
    obtain ⟨codes, hc, heq⟩ := ha
    exact ⟨codes, keyCodesOf?_mono h hc, heq⟩
  | basic b | any a | oneToMany a | manyToMany a | elementCollection a => exact ha

/-- The slots of an embeddable are the same at every depth that is deep enough for them. -/
theorem embeddableSlots_mono : ∀ {depth k : Nat}, depth ≤ k → ∀ {name : String}
    {slots : List Column}, d.embeddableSlots depth name = some slots →
      d.embeddableSlots k name = some slots
  | 0, _, _, _, _, h => by cases h
  | depth + 1, 0, hk, _, _, _ => absurd hk (Nat.not_succ_le_zero depth)
  | depth + 1, k + 1, hk, _, _, h => by
    simp only [embeddableSlots, Option.bind_eq_bind, Option.bind_eq_some_iff] at h ⊢
    obtain ⟨e, he, rows, hrows, heq⟩ := h
    refine ⟨e, he, rows, mapM_mono (fun a slots => slotsWith_mono ?_) hrows, heq⟩
    exact fun _ _ => embeddableSlots_mono (Nat.le_of_succ_le_succ hk)

/-! ## Mappings of associations -/

theorem namedColumns_ne_nil {column : Option String} {columns : List String} {name : String} :
    namedColumns column columns [name] ≠ [] := by
  unfold namedColumns
  split
  · simp
  · rename_i hne
    exact hne

/-- The mapping of a reference has as many columns as the identifier of its target, unless it shares
the key of its owner. -/
theorem toOneMapping_width {component : ComponentMapper} {a : ToOneDefinition} {oneToOne : Bool}
    {context : String} {n : Nat} {am : AttributeMapping}
    (h : d.toOneMapping component a oneToOne context n = .ok am) :
    ∃ kind codes, associationKind oneToOne a.primaryKey context = .ok kind ∧
      d.identifierCodes component a.target = .ok codes ∧ am.name = a.name ∧
      am.mappedType = .association a.target kind ∧
      (kind ≠ .primaryKeyOneToOne → am.columns.length = codes.length) := by
  simp only [toOneMapping, Except.bind_eq_ok] at h
  obtain ⟨kind, hk, codes, hcodes, h⟩ := h
  refine ⟨kind, codes, hk, hcodes, ?_⟩
  split at h
  · rename_i hempty
    cases h
    refine ⟨rfl, rfl, fun hne => ?_⟩
    rw [defaultReference_eq, if_neg hne] at hempty
    exact absurd (List.isEmpty_iff.1 hempty) namedColumns_ne_nil
  · simp only [Except.guard_eq_ok, Except.pure_eq_ok] at h
    obtain ⟨hlength, rfl⟩ := h
    exact ⟨rfl, rfl, fun _ => by rw [List.length_map, not_not.1 hlength]⟩

/-- An attribute that is mapped as a reference is declared as one. -/
theorem attributeMapping_association {component : ComponentMapper} {owner target : String} {n : Nat}
    {a : AttributeDefinition} {am : AttributeMapping} {kind : AssociationKind}
    (hc : Agrees component embeddable) (h : d.attributeMapping component owner n a = .ok am)
    (ht : am.mappedType = .association target kind) :
    ∃ codes, d.keyCodesOf? embeddable target = some codes ∧
      (kind ≠ .primaryKeyOneToOne → am.columns.length = codes.length) ∧
      (kind = .primaryKeyOneToOne → ∃ x, a = .oneToOne x ∧ x.name = am.name ∧ x.target = target ∧
        x.primaryKey = true) := by
  cases a with
  | manyToOne x =>
    obtain ⟨kind', codes, hk, hcodes, -, htype, hwidth⟩ := toOneMapping_width h
    cases ht.symm.trans htype
    refine ⟨codes, identifierCodes_ok hc hcodes, hwidth, ?_⟩
    rintro rfl
    cases hp : x.primaryKey <;> rw [hp] at hk <;> cases hk
  | oneToOne x =>
    obtain ⟨kind', codes, hk, hcodes, hname, htype, hwidth⟩ := toOneMapping_width h
    cases ht.symm.trans htype
    refine ⟨codes, identifierCodes_ok hc hcodes, hwidth, ?_⟩
    rintro rfl
    refine ⟨x, rfl, hname.symm, rfl, ?_⟩
    cases hp : x.primaryKey with
    | true => rfl
    | false => rw [hp] at hk; cases hk
  | basic b =>
    simp only [attributeMapping, basicMapping, Except.bind_eq_ok] at h
    obtain ⟨type, -, h⟩ := h
    split at h <;> (cases h; cases ht)
  | embedded x =>
    simp only [attributeMapping, embeddedMapping, Except.bind_eq_ok, Except.pure_eq_ok] at h
    obtain ⟨_, -, rfl⟩ := h
    cases ht
  | any x =>
    simp only [attributeMapping, anyMapping, Except.bind_eq_ok, Except.pure_eq_ok] at h
    obtain ⟨_, -, rfl⟩ := h
    cases ht
  | oneToMany x | manyToMany x | elementCollection x =>
    obtain ⟨c, rfl, -⟩ := attributeMapping_plural rfl h
    cases ht

end Definition

/-! ## Associations that are built -/

namespace Build

variable {entities : List Entity} {owner : Owner} {am : AttributeMapping} {s : SingularAttribute}
  {r r' : Registry}

theorem values_length {role : String} {table : TableId} {columns : List (Option String)}
    {formulas : Option (List (Option String))} {codes : List SqlCode} {ids : List ColumnId}
    (h : database (Database.values role table columns formulas codes) r = .ok ids r') :
    ids.length = columns.length := by
  obtain ⟨db, hv, -⟩ := database_ok h
  obtain ⟨slots, hd⟩ := Database.values_describes hv
  rw [hd.named, List.length_map, (Database.values_hold hd hv).length_eq]

/-- An association is built for a known entity, from a reference. It has the columns of the owner's
key, or as many as the reference. -/
theorem attributeOf_association (h : attributeOf entities owner am r = .ok (.singular s) r')
    (hk : s.kind = .manyToOne ∨ s.kind = .oneToOne) :
    ∃ target kind, am.mappedType = .association target kind ∧ s.declaringType = owner.type ∧
      s.name = am.name ∧ s.attributeType = .entity target ∧ (∃ e, known entities target = .ok e) ∧
      (kind = .primaryKeyOneToOne ∧ s.kind = .oneToOne ∧ s.columns = owner.identifierColumns ∨
        kind ≠ .primaryKeyOneToOne ∧ s.columns.length = am.columns.length) := by
  unfold attributeOf at h
  cases hm : am.mappedType with
  | association target kind =>
    rw [hm] at h
    obtain ⟨table, -, ids, position, hknown, hv, heq⟩ := stored_ok h
    cases heq
    refine ⟨target, kind, rfl, rfl, rfl, rfl, hknown, ?_⟩
    obtain ⟨rfl, -, rfl, -, -⟩ | ⟨hne, -, hv⟩ := associationColumns_ok hv
    · exact .inl ⟨rfl, rfl, rfl⟩
    · exact .inr ⟨hne, values_length hv⟩
  | basic t | any t =>
    rw [hm] at h
    obtain ⟨_, -, _, -, heq⟩ := stored_ok h
    cases heq
    simp at hk
  | component c =>
    rw [hm] at h
    obtain ⟨_, -, _, _, -, -, heq⟩ := stored_ok h
    cases heq
    simp at hk
  | collection c =>
    rw [hm] at h
    obtain ⟨_, -, _, -, heq⟩ := stored_ok h
    cases heq

end Build

namespace Definition

variable {d : Definition} {context name : String} {n depth : Nat} {c : ComponentMapping}

/-- An attribute of a mapped embeddable is the mapping of one that the embeddable declares. -/
theorem componentMapper_attribute (h : d.componentMapper depth context name n = .ok c)
    {am : AttributeMapping} (ham : am ∈ c.attributes) :
    ∃ k e a, k < depth ∧ e ∈ d.embeddables ∧ a ∈ e.attributes ∧
      d.attributeMapping (d.componentMapper k) context n a = .ok am := by
  obtain ⟨k, e, rfl, he, -, hms⟩ := componentMapper_ok h
  obtain ⟨a, ha, hm⟩ := hms.exists_left ham
  exact ⟨k, e, a, Nat.lt_succ_self k, List.mem_of_find?_eq_some he, ha, (subMapping_ok hm).2⟩

/-- What is nested in a mapped embeddable is mapped too. -/
theorem componentMapper_nests {role role' : String} {c' : ComponentMapping}
    (hn : Build.Nests role c role' c') : ∀ {depth : Nat} {context name : String},
      d.componentMapper depth context name n = .ok c → ∃ k context' name', k ≤ depth ∧
        d.componentMapper k context' name' n = .ok c' := by
  induction hn with
  | self => exact fun h => ⟨_, _, _, Nat.le_refl _, h⟩
  | nested mem mapped _ ih =>
    intro depth context name h
    obtain ⟨k, e, a, hk, -, -, ha⟩ := componentMapper_attribute h mem
    have htype := attributeMapping_type (componentMapper_agrees k) ha
    rw [mapped] at htype
    obtain ⟨x, -, hc⟩ := htype
    obtain ⟨k', context', name', hk', hc'⟩ := ih hc
    exact ⟨k', context', name', Nat.le_trans hk' (Nat.le_of_lt hk), hc'⟩

/-- The attributes that a definition declares, of entities and of embeddables. -/
def Declares (d : Definition) (a : AttributeDefinition) : Prop :=
  (∃ e ∈ d.entities, a ∈ e.attributes) ∨ ∃ e ∈ d.embeddables, a ∈ e.attributes

theorem MapsCollection.component {component : ComponentMapper} {a : AttributeDefinition}
    {c : CollectionMapping} {element : ComponentMapping} (h : d.MapsCollection component context a c)
    (he : c.element.elementType = .component element) :
    ∃ name, component context name 0 = .ok element := by
  cases a with
  | elementCollection a =>
    have htype := elementMapping_type h.2
    rw [he] at htype
    split at htype
    · obtain ⟨_, heq⟩ := htype
      cases heq
    · obtain ⟨_, heq, hc⟩ := htype
      cases heq
      exact ⟨_, hc⟩
    · obtain ⟨_, heq⟩ := htype
      cases heq
  | oneToMany a =>
    rw [h.2] at he
    cases he
  | manyToMany a =>
    obtain ⟨-, _, -, -, helement⟩ := h
    rw [helement] at he
    cases he
  | basic a | embedded a | any a | manyToOne a | oneToOne a => exact h.elim

end Definition

/-- The attributes of a metamodel, of entities and of embeddables. -/
def Metamodel.HasAttribute (m : Metamodel) (a : Attribute) : Prop :=
  (∃ E ∈ m.entities, a ∈ E.attributes) ∨ ∃ role e, m.embeddable role = .ok e ∧ a ∈ e.attributes

namespace Definition.Builds

variable {d : Definition} {m : Metamodel} {ems : List EntityMapping} {ps : List PendingEntity}
  {bare : List Entity} {r r1 r2 : Registry}

/-- An attribute is built from the mapping of one that is declared, for an entity whose key it may
share. -/
structure Made (d : Definition) (m : Metamodel) (bare : List Entity) (E : Entity)
    (s : SingularAttribute) : Prop where
  entity : E ∈ m.entities
  built : ∃ known owner am a depth context n r r',
    (known = [] ∨ known = bare) ∧ owner.identifierColumns = E.identifier.columns ∧
    (owner.type = .entity E.name ∨ ∃ role, owner.type = .embeddable role) ∧
    d.Declares a ∧ depth ≤ d.embeddables.length ∧
    d.attributeMapping (d.componentMapper depth) context n a = .ok am ∧
    Build.attributeOf known owner am r = .ok (.singular s) r'

/-- An attribute of an embeddable is made for the entity that the embeddable is built for. -/
theorem made_of_kept (h : d.Builds m ems ps bare r r1 r2) {p : PendingEntity} (hp : p ∈ ps)
    {b : Entity} (hb : Build.Identified m.database p b) {known : List Entity}
    (hknown : known = [] ∨ known = bare) {owner : Owner}
    (hkey : owner.identifierColumns = b.identifier.columns) {base role context name : String}
    {n : Nat} {c c' : ComponentMapping} (hc : d.component context name n = .ok c)
    (hn : Build.Nests base c role c') (hkept : Build.Kept r2 known owner role c') {e : Embeddable}
    (he : m.embeddable role = .ok e) {s : SingularAttribute} (hs : .singular s ∈ e.attributes) :
    ∃ E, Made d m bare E s := by
  obtain ⟨E, hE, hbuilt⟩ := h.entitiesOf.exists_right hp
  rw [Metamodel.embeddable_ok, h.result] at he
  obtain ⟨am, ham, _, r3, r4, heq, hstored, -⟩ := hkept.attribute he hs
  cases heq
  obtain ⟨k, context', _, hk, hc'⟩ := componentMapper_nests hn hc
  obtain ⟨k', ed, a, hk', hed, ha, hmap⟩ := componentMapper_attribute hc' ham
  refine ⟨E, hE, known, _, am, a, k', context', n, r3, r4, hknown, ?_, .inr ⟨role, rfl⟩,
    .inr ⟨ed, hed, ha⟩, Nat.le_trans (Nat.le_of_lt hk') hk, hmap, hstored⟩
  exact hkey.trans (hb.columns_unique hbuilt.toIdentified)

/-- Every singular attribute of the metamodel is made for an entity, for its own if it has one. -/
theorem made (h : d.Builds m ems ps bare r r1 r2) {s : SingularAttribute}
    (hs : m.HasAttribute (.singular s)) : ∃ E, Made d m bare E s := by
  rcases hs with ⟨E, hE, hs⟩ | ⟨role, emb, hemb, hs⟩
  · obtain ⟨p, hp, hbuilt⟩ := h.entitiesOf.exists_left hE
    obtain ⟨e, em, he, hmap, hof, -⟩ := h.pending hp
    obtain ⟨am, ham, r3, r4, hstored, -⟩ := hbuilt.attributes.exists_left hs
    rw [hof.attributes] at ham
    obtain ⟨D, a, hin⟩ := inherits_of_mem h.valid he hmap ham
    obtain ⟨_, _, n, -, -, -, hmapped⟩ := hin.mapped
    exact ⟨E, hE, bare, _, am, a, _, _, n, r3, r4, .inr rfl, rfl,
      .inl (by rw [hbuilt.name]; rfl), .inl ⟨D, hin.line.mem he, hin.declared⟩, Nat.le_refl _, hmapped, hstored⟩
  · obtain ⟨p, hp, horigin⟩ := h.origin hemb
    obtain ⟨e, em, he, hmap, hof, -⟩ := h.pending hp
    obtain ⟨b, c, c', hb, hc, hn, hkept⟩ | ⟨b, hb, am, ham, horigin⟩ := horigin
    · rw [hof.identifier] at hc
      obtain ⟨_, name, _, -, -, -, hcomponent, -⟩ :=
        identifierMapping_component (entityMapping_ok hmap).2.2.1 hc
      rw [← h.database_eq] at hb
      exact h.made_of_kept hp hb (.inl rfl) rfl hcomponent hn hkept hemb hs
    · rw [hof.attributes] at ham
      obtain ⟨D, a, hin⟩ := inherits_of_mem h.valid he hmap ham
      obtain ⟨_, _, n, -, -, -, hmapped⟩ := hin.mapped
      cases horigin with
      | embedded hc hn hkept =>
        have htype := attributeMapping_type (componentMapper_agrees _) hmapped
        rw [hc] at htype
        obtain ⟨x, -, hcomponent⟩ := htype
        exact h.made_of_kept hp hb (.inr rfl) rfl hcomponent hn hkept hemb hs
      | element hc helement hn hkept =>
        obtain ⟨name, hcomponent⟩ :=
          (attributeMapping_collection hmapped hc).component helement
        exact h.made_of_kept hp hb (.inr rfl) rfl hcomponent hn hkept hemb hs

/-- The SQL types of an entity's identifier are found, one for each of its columns. -/
theorem identifier_codes (h : d.Builds m ems ps bare r r1 r2) {name : String} {E : Entity}
    (hE : m.entity name = .ok E) :
    ∃ codes, d.identifierCodes d.component name = .ok codes ∧
      E.identifier.columns.length = codes.length := by
  obtain ⟨e, _, id, he, hname, -, -, hid, hlength, hstores⟩ := h.entity_tables hE
  obtain ⟨_, columns, -, -, hslots, -⟩ := identifierMapping_ok hid
  obtain ⟨_, -, hholds⟩ := hstores.columns
  have hentity : d.entity name = .ok e := by
    rw [Definition.entity, ← hname, h.valid.entity? he]
  refine ⟨id.sqlCodes, ?_, ?_⟩
  · exact Except.bind_eq_ok.2 ⟨e, hentity, Except.bind_eq_ok.2 ⟨_, hslots, rfl⟩⟩
  · rw [← hholds.length_eq, List.length_zipWith, hlength, Nat.min_self]

/-- The identifier of an entity has as many columns as it has types. -/
theorem identifier_width (h : d.Builds m ems ps bare r r1 r2) {name : String} {E : Entity}
    (hE : m.entity name = .ok E) :
    ∃ codes, d.keyCodesOf? (d.embeddableSlots d.embeddables.length) name = some codes ∧
      E.identifier.columns.length = codes.length := by
  obtain ⟨codes, hcodes, hlength⟩ := h.identifier_codes hE
  exact ⟨codes, identifierCodes_ok (componentMapper_agrees _) hcodes, hlength⟩

theorem identifier_isKey (h : d.Builds m ems ps bare r r1 r2) {name : String} {E : Entity}
    (hE : m.entity name = .ok E) : E.identifier.IsKey := by
  obtain ⟨_, _, _, -, -, -, -, -, hbuilt, -⟩ := h.entity_of hE
  obtain ⟨_, _, hid, -⟩ := hbuilt.identifier
  exact Build.identifier_isKey hid

/-- An entity that is known when attributes are built is one of the metamodel. -/
theorem entity_of_known (h : d.Builds m ems ps bare r r1 r2) {target : String} {b : Entity}
    (hb : Build.known bare target = .ok b) : ∃ T, m.entity target = .ok T := by
  have hf := Build.known_eq_ok.1 hb
  have hname : b.name = target := by simpa using List.find?_some hf
  obtain ⟨p, hp, hi⟩ := (Build.identified_ok h.identified).exists_left (List.mem_of_find?_eq_some hf)
  obtain ⟨e, _, he, -, -, hpe⟩ := h.pending hp
  obtain ⟨_, _, T, -, -, -, -, hT⟩ := h.entity he
  exact ⟨T, by rw [← hname, hi.name, hpe]; exact hT⟩

end Definition.Builds

/-- An association shares a key: it is declared as a one-to-one that does, and has the columns of the
key of its entity, or of the entity that its embeddable is part of. -/
structure Definition.SharesKey (d : Definition) (m : Metamodel) (s : SingularAttribute) : Prop where
  kind : s.kind = .oneToOne
  declared : ∃ x, d.Declares (.oneToOne x) ∧ x.name = s.name ∧ s.attributeType = .entity x.target ∧
    x.primaryKey = true
  columns : ∃ E ∈ m.entities, s.columns = E.identifier.columns ∧
    (s.declaringType = .entity E.name ∨ ∃ role, s.declaringType = .embeddable role)

/-- An association has as many columns as the identifier of the entity it leads to, or shares a key.
-/
theorem Definition.Builds.association {d : Definition} {m : Metamodel} {ems : List EntityMapping}
    {ps : List PendingEntity} {bare : List Entity} {r r1 r2 : Registry}
    (h : d.Builds m ems ps bare r r1 r2) {s : SingularAttribute}
    (hs : m.HasAttribute (.singular s)) (hk : s.kind = .manyToOne ∨ s.kind = .oneToOne) :
    ∃ T, s.attributeType = .entity T.name ∧ m.entity T.name = .ok T ∧
      (s.columns.length = T.identifier.columns.length ∨ d.SharesKey m s) := by
  obtain ⟨E, hE, known, owner, am, a, depth, _, n, r3, r4, hknown, hkey, htype, hdeclared, hdepth,
    hmapped, hstored⟩ := h.made hs
  obtain ⟨target, kind, hassociation, howner, hname, htarget, ⟨b, hb⟩, hcolumns⟩ :=
    Build.attributeOf_association hstored hk
  obtain ⟨T, hT⟩ : ∃ T, m.entity target = .ok T := by
    obtain rfl | rfl := hknown
    · cases hb
    · exact h.entity_of_known hb
  obtain rfl := Metamodel.entity_name hT
  refine ⟨T, htarget, hT, ?_⟩
  obtain ⟨codes, hcodes, hwidth, hshares⟩ :=
    attributeMapping_association (componentMapper_agrees depth) hmapped hassociation
  obtain ⟨rfl, hone, hcolumns⟩ | ⟨hne, hcolumns⟩ := hcolumns
  · obtain ⟨x, rfl, hx, hxt, hprimary⟩ := hshares rfl
    refine .inr ⟨hone, ⟨x, hdeclared, hx.trans hname.symm, hxt ▸ htarget, hprimary⟩,
      E, hE, hcolumns.trans hkey, ?_⟩
    rw [howner]
    exact htype
  · obtain ⟨codes', hcodes', hlength⟩ := h.identifier_width hT
    have heq := keyCodesOf?_mono (fun _ _ => embeddableSlots_mono hdepth) hcodes
    cases hcodes'.symm.trans heq
    exact .inl (by rw [hcolumns, hwidth hne, hlength])

/-! ## Errors of joins -/

theorem lookedUp_error {α : Type} {x : Except MetamodelError α} {e : LoweringError}
    (h : lookedUp x = .error e) : ∃ e', x = .error e' ∧ e = .metamodel e' := by
  cases x with
  | ok a => cases h
  | error e' =>
    cases h
    exact ⟨e', rfl, rfl⟩

namespace Metamodel

variable {m : Metamodel}

theorem columnsAt_error {g : Sql.TableGroup} {position : Nat} {ids : List ColumnId}
    {type : Option DomainType} {e : MetamodelError}
    (h : m.columnsAt g position ids type = .error e) : ∃ fault, e = .invalid fault := by
  unfold columnsAt at h
  split at h
  · obtain h | ⟨_, -, h⟩ := Except.bind_eq_error.1 h
    · obtain ⟨id, -, hid⟩ := Except.mapM_error h
      unfold columnReference at hid
      split at hid
      · cases hid
      · cases hid
        exact ⟨_, rfl⟩
    · cases h
  · cases h
    exact ⟨_, rfl⟩

theorem tableUse_of {base : String} {position : Nat} {id : TableId} {table : Table}
    (h : m.database.table? id = some table) :
    m.tableUse base position id = .ok ⟨id, table.reference, variableAt base position⟩ := by
  rw [tableUse, h]
  rfl

theorem tableUses_of (base : String) : ∀ (position : Nat) {ids : List TableId},
    (∀ id ∈ ids, ∃ table, m.database.table? id = some table) →
    ∃ uses, m.tableUses base position ids = .ok uses
  | _, [], _ => ⟨[], rfl⟩
  | position, id :: ids, h => by
    obtain ⟨table, ht⟩ := h id List.mem_cons_self
    obtain ⟨uses, hu⟩ := tableUses_of base (position + 1) fun id' hid' =>
      h id' (List.mem_cons_of_mem id hid')
    exact ⟨_, Except.bind_eq_ok.2 ⟨_, tableUse_of ht, Except.bind_eq_ok.2 ⟨uses, hu, rfl⟩⟩⟩

end Metamodel

/-- Every entity of the metamodel has a group. -/
theorem Definition.Builds.entityGroup_of {d : Definition} {m : Metamodel} {ems : List EntityMapping}
    {ps : List PendingEntity} {bare : List Entity} {r r1 r2 : Registry}
    (h : d.Builds m ems ps bare r r1 r2) {name : String} {E : Entity} (hE : m.entity name = .ok E)
    (base : String) : ∃ g, m.entityGroup E base = .ok g := by
  obtain ⟨_, _, _, -, -, -, hshows, -⟩ := h.entity_tables hE
  have htables : ∀ id ∈ E.tables, ∃ table, m.database.table? id = some table := by
    intro id hid
    obtain ⟨_, -, table, ht, -⟩ := hshows.exists_left hid
    exact ⟨table, ht⟩
  obtain ⟨table, ht⟩ := htables E.primaryTable List.mem_cons_self
  obtain ⟨more, hmore⟩ := Metamodel.tableUses_of base 1 fun id hid =>
    htables id (List.mem_cons_of_mem _ hid)
  exact ⟨_, Except.bind_eq_ok.2 ⟨_, Metamodel.tableUse_of ht, Except.bind_eq_ok.2
    ⟨more, hmore, rfl⟩⟩⟩

/-- A join fails for its type, outside of a space, for its name, or as the group that it adds. -/
theorem Step.join_fails {m : Metamodel} {j : Join} {pass pass' : Pass} {e : LoweringError}
    (h : join m j pass = .error e pass') :
    (∃ joinType, e = .unsupportedJoin joinType) ∨ (∃ fault, e = .unexpected fault) ∨
      (∃ name, e = .duplicateAlias name) ∨
      ∃ base, pass.scope.joinedGroup m j.source base = .error e := by
  have lookup_error {α : Type} {f : Scope → Except LoweringError α} {pass pass' : Pass}
      (h : lookup f pass = .error e pass') : f pass.scope = .error e := by
    unfold lookup at h
    split at h
    · cases h
    · rename_i hf
      cases h
      exact hf
  simp only [join, EStateM.bind_eq_error, aliasFor_eq, reduceCtorEq, false_or] at h
  obtain h | ⟨_, _, ht, h⟩ := h
  · replace h := lookup_error h
    unfold JoinType.lower at h
    split at h <;> cases h <;> exact .inl ⟨_, rfl⟩
  obtain ⟨-, rfl⟩ := lookup_ok ht
  obtain h | ⟨_, _, hs, h⟩ := h
  · unfold openSpace at h
    split at h <;> cases h
    exact .inr (.inl ⟨_, rfl⟩)
  obtain ⟨-, rfl⟩ := openSpace_ok hs
  obtain ⟨_, _, hn, h⟩ := h
  cases hn
  obtain h | ⟨base, _, hb, h⟩ := h
  · cases h
  obtain ⟨_, -, rfl⟩ := aliasBaseFor_ok hb
  obtain h | ⟨_, _, -, h⟩ := h
  · exact .inr (.inr (.inr ⟨base, lookup_error h⟩))
  obtain h | ⟨_, _, -, h⟩ := h
  · cases h
  obtain h | ⟨_, _, -, h⟩ := h
  · unfold register at h
    split at h
    · cases h
    · rename_i hadd
      cases h
      unfold FromIndex.add at hadd
      split at hadd <;> cases hadd
      exact .inr (.inr (.inl ⟨_, rfl⟩))
  obtain h | ⟨_, _, -, h⟩ := h
  · cases h
  · cases hc : j.condition <;> rw [hc] at h <;> cases h

/-! ## Associations and the entities they lead to -/

theorem Metamodel.columnsAt_width {m : Metamodel} {g : Sql.TableGroup} {position : Nat}
    {ids : List ColumnId} {v : Sql.Expression} (h : m.columnsAt g position ids none = .ok v) :
    v.parts.length = ids.length := by
  obtain ⟨use, slots, -, hslots, rfl⟩ := columnsAt_eq_ok.1 h
  rw [Sql.Expression.parts_ofColumns, List.length_map, slotReferences, List.length_map]
  exact (List.Forall₂.length_eq hslots).symm

namespace Scope

variable {d : Definition} {m : Metamodel} {ems : List EntityMapping} {ps : List PendingEntity}
  {bare : List Entity} {r r1 r2 : Registry} {s : Scope} {x : ResolvedPath} {a : SingularAttribute}
  {T : Entity} {base : String}

/-- An association as wide as the identifier of its entity is joined where its columns can be read:
nothing else that the join looks up can fail. -/
theorem associationGroup_eq (h : d.Builds m ems ps bare r r1 r2)
    (ht : a.attributeType = .entity T.name) (hT : m.entity T.name = .ok T)
    (hw : a.columns.length = T.identifier.columns.length) :
    ∃ f : Sql.Expression → JoinedGroup, s.associationGroup m x a base = (do
      let owner ← s.group x.ref
      let lhs ← m.columnsAt owner (a.tablePosition + x.elementOffset) a.columns none
      return f lhs) := by
  obtain ⟨g, hg⟩ := h.entityGroup_of hT base
  obtain ⟨rhs, hr⟩ := h.identifier_value hT (show g.table? 0 = some g.rootTable from rfl) none
  have htarget : (monadLift a.targetName : Except LoweringError String) = .ok T.name :=
    lookedUp_of (SingularAttribute.targetName_eq_ok.2 ht)
  have hentity : (monadLift (m.entity T.name) : Except LoweringError Entity) = .ok T :=
    lookedUp_of hT
  have hgroup : (monadLift (m.entityGroup T base) : Except LoweringError Sql.TableGroup) = .ok g :=
    lookedUp_of hg
  have hidentifier : (monadLift (m.columnsAt g 0 T.identifier.columns none) :
      Except LoweringError Sql.Expression) = .ok rhs := lookedUp_of hr
  refine ⟨fun lhs => ⟨g, .entity T.name, Sql.Predicate.equality lhs.parts rhs.parts⟩, ?_⟩
  simp only [associationGroup, htarget, hentity, hgroup, hidentifier, bind, Except.bind]
  cases s.group x.ref with
  | error e => rfl
  | ok owner =>
    cases hl : m.columnsAt owner (a.tablePosition + x.elementOffset) a.columns none with
    | error e => simp only [hl, liftM, monadLift, MonadLift.monadLift, lookedUp]
    | ok lhs =>
      have hwidth : lhs.parts.length = rhs.parts.length := by
        rw [Metamodel.columnsAt_width hl, Metamodel.columnsAt_width hr, hw]
      have hmatching : Metamodel.matching a.role lhs rhs =
          .ok (Sql.Predicate.equality lhs.parts rhs.parts) :=
        Metamodel.matching_eq_ok.2 ⟨hwidth, rfl⟩
      simp only [hl, hmatching, liftM, monadLift, MonadLift.monadLift, lookedUp]

theorem associationGroup_of (h : d.Builds m ems ps bare r r1 r2)
    (ht : a.attributeType = .entity T.name) (hT : m.entity T.name = .ok T)
    (hw : a.columns.length = T.identifier.columns.length) {owner : Sql.TableGroup}
    (ho : s.group x.ref = .ok owner) {v : Sql.Expression} {type : Option DomainType}
    (hv : m.columnsAt owner (a.tablePosition + x.elementOffset) a.columns type = .ok v) :
    ∃ joined, s.associationGroup m x a base = .ok joined := by
  obtain ⟨use, lhs, huse, hlhs, -⟩ := Metamodel.columnsAt_eq_ok.1 hv
  obtain ⟨f, hf⟩ := associationGroup_eq h ht hT hw
  have hl : m.columnsAt owner (a.tablePosition + x.elementOffset) a.columns none =
      .ok (.ofColumns (slotReferences use.variableName lhs) none) :=
    Metamodel.columnsAt_eq_ok.2 ⟨use, lhs, huse, hlhs, rfl⟩
  exact ⟨_, hf.trans (Except.bind_eq_ok.2 ⟨owner, ho, Except.bind_eq_ok.2
    ⟨_, lookedUp_of hl, rfl⟩⟩)⟩

/-- The join of an association as wide as the identifier of its entity fails only for what is not
there. -/
theorem associationGroup_fails (h : d.Builds m ems ps bare r r1 r2)
    (ht : a.attributeType = .entity T.name) (hT : m.entity T.name = .ok T)
    (hw : a.columns.length = T.identifier.columns.length) {e : LoweringError}
    (he : s.associationGroup m x a base = .error e) :
    (∃ fault, e = .unexpected fault) ∨ ∃ fault, e = .metamodel (.invalid fault) := by
  obtain ⟨f, hf⟩ := associationGroup_eq h ht hT hw
  rw [hf] at he
  obtain hg | ⟨owner, -, he⟩ := Except.bind_eq_error.1 he
  · unfold group at hg
    split at hg <;> cases hg
    exact .inl ⟨_, rfl⟩
  · obtain hc | ⟨_, -, he⟩ := Except.bind_eq_error.1 he
    · obtain ⟨e', hcolumns, rfl⟩ := lookedUp_error hc
      obtain ⟨fault, rfl⟩ := Metamodel.columnsAt_error hcolumns
      exact .inr ⟨fault, rfl⟩
    · cases he

/-- A path leads to an attribute. -/
def Leads (s : Scope) (m : Metamodel) (path : AttributePath) (a : SingularAttribute) : Prop :=
  ∃ x, s.resolve m path = .ok x ∧ x.target = .attributeOf (.singular a)

theorem joinedGroup_of_leads {start names : String} (hx : s.resolve m ⟨start, splitDots names⟩ = .ok x)
    (ha : x.target = .attributeOf (.singular a)) (hk : a.kind = .manyToOne ∨ a.kind = .oneToOne) :
    s.joinedGroup m (.attributeOf start names) base = s.associationGroup m x a base := by
  simp only [joinedGroup, attributeGroup, hx, bind, Except.bind, ha]
  rcases hk with hk | hk <;> rw [hk]

theorem path_of_leads {path : AttributePath} (hx : s.resolve m path = .ok x)
    (ha : x.target = .attributeOf (.singular a)) (hk : a.kind = .manyToOne ∨ a.kind = .oneToOne) :
    s.path m path = (do
      let g ← s.group x.ref
      m.columnsAt g (a.tablePosition + x.elementOffset) a.columns (some a.attributeType)) := by
  have hany : a.kind ≠ .any := by rcases hk with hk | hk <;> rw [hk] <;> nofun
  rw [Scope.path, hx]
  simp only [bind, Except.bind, pathValue, ha, if_neg hany]

/-- Whether columns can be read does not depend on the type they are read with. -/
theorem columns_read_iff {ref : GroupRef} {position : Nat} {ids : List ColumnId}
    {type : Option DomainType} :
    (∃ v, (do m.columnsAt (← s.group ref) position ids type : Except LoweringError _) = .ok v) ↔
      ∃ g use slots, s.group ref = .ok g ∧ g.table? position = some use ∧ m.HasColumns ids slots := by
  constructor
  · rintro ⟨v, hv⟩
    obtain ⟨g, hg, hv⟩ := Except.bind_eq_ok.1 hv
    obtain ⟨use, slots, hu, hs, -⟩ := Metamodel.columnsAt_eq_ok.1 (lookedUp_ok hv)
    exact ⟨g, use, slots, hg, hu, hs⟩
  · rintro ⟨g, use, slots, hg, hu, hs⟩
    exact ⟨_, Except.bind_eq_ok.2 ⟨g, hg, lookedUp_of
      (Metamodel.columnsAt_eq_ok.2 ⟨use, slots, hu, hs, rfl⟩)⟩⟩

end Scope

/-- An association can be used wherever a path leads to it: a join goes through if the path has a
value and the join a type, a space and a name, and it never fails for a malformed mapping; and the
identifier behind the association can be read off it where the path has a value, with its width. -/
structure Metamodel.Joins (m : Metamodel) (a : SingularAttribute) (T : Entity) : Prop where
  joined : ∀ (j : Join) (pass : Pass) (start names : String) (v : Sql.Expression)
    (joinType : Sql.JoinType), j.source = .attributeOf start names →
    pass.scope.Leads m ⟨start, splitDots names⟩ a → pass.scope.path m ⟨start, splitDots names⟩ = .ok v →
    j.joinType.lower = .ok joinType → pass.scope.spaces ≠ [] →
    pass.scope.index.find? (nameFor j.aliasName pass.generated) = none →
    ∃ pass', Step.join m j pass = .ok () pass'
  formed : ∀ (j : Join) (pass pass' : Pass) (start names : String) (e : LoweringError),
    j.source = .attributeOf start names → pass.scope.Leads m ⟨start, splitDots names⟩ a →
    Step.join m j pass = .error e pass' → ∀ role reason, e ≠ .metamodel (.malformed role reason)
  read : ∀ (s : Scope) (path : AttributePath) (n : String), s.Leads m path a →
    T.find? n = some (.singular T.identifier) →
    ((∃ v, s.path m path = .ok v) ↔ ∃ f, s.path m ⟨path.start, path.segments ++ [n]⟩ = .ok f) ∧
    ∀ f, s.path m ⟨path.start, path.segments ++ [n]⟩ = .ok f →
      f.columns.length = T.identifier.columns.length

/-- An association of a definition leads to an entity of the metamodel. It has as many columns as the
identifier of that entity, unless it is a one-to-one that shares the key of its owner; and where they
are as many, it can be joined, and read as the identifier, wherever a path leads to it. -/
theorem association_joins_by_width {d : Definition} {m : Metamodel} {a : SingularAttribute}
    (hm : d.metamodel = .ok m) (ha : m.HasAttribute (.singular a))
    (hk : a.kind = .manyToOne ∨ a.kind = .oneToOne) :
    ∃ T, a.attributeType = .entity T.name ∧ m.entity T.name = .ok T ∧
      (a.columns.length = T.identifier.columns.length ∨ d.SharesKey m a) ∧
      (a.columns.length = T.identifier.columns.length → m.Joins a T) := by
  obtain ⟨ems, ps, bare, r, r1, r2, hb⟩ := Definition.builds hm
  obtain ⟨T, ht, hT, hwidth⟩ := hb.association ha hk
  refine ⟨T, ht, hT, hwidth, fun hw => ⟨?_, ?_, ?_⟩⟩
  · rintro j pass start names v joinType hsource ⟨x, hx, hxa⟩ hv hjoin hspaces hname
    rw [Scope.path_of_leads hx hxa hk] at hv
    obtain ⟨owner, ho, hv⟩ := Except.bind_eq_ok.1 hv
    obtain ⟨space, hspace⟩ := Nat.exists_eq_succ_of_ne_zero (mt List.length_eq_zero_iff.1 hspaces)
    obtain ⟨joined, hjoined⟩ := Scope.associationGroup_of hb ht hT hw ho (lookedUp_ok hv)
    rw [← Scope.joinedGroup_of_leads hx hxa hk, ← hsource] at hjoined
    obtain ⟨pass', _, hrun, -⟩ := Step.join_of hjoin hspace rfl hjoined hname
    exact ⟨pass', hrun⟩
  · rintro j pass pass' start names e hsource ⟨x, hx, hxa⟩ he role reason rfl
    obtain ⟨_, h⟩ | ⟨_, h⟩ | ⟨_, h⟩ | ⟨base, hj⟩ := Step.join_fails he
    · cases h
    · cases h
    · cases h
    · rw [hsource, Scope.joinedGroup_of_leads hx hxa hk] at hj
      obtain ⟨_, h⟩ | ⟨_, h⟩ := Scope.associationGroup_fails hb ht hT hw hj
      · cases h
      · cases h
  · rintro s path n ⟨x, hx, hxa⟩ hn
    have hread := Scope.foreignKey_path hx hxa hk
      (identifierAfter?_of ht hT hn (hb.identifier_isKey hT))
    rw [Scope.path_of_leads hx hxa hk, hread]
    refine ⟨by rw [Scope.columns_read_iff, Scope.columns_read_iff], fun f hf => ?_⟩
    obtain ⟨_, -, hf⟩ := Except.bind_eq_ok.1 hf
    obtain ⟨_, slots, -, hslots, rfl⟩ := Metamodel.columnsAt_eq_ok.1 (lookedUp_ok hf)
    rw [length_columns_slotReferences, ← hw, List.Forall₂.length_eq hslots]

/-- Passports, known by a country and a number there; persons, who share the key of a passport; and
visits, with the passport that was shown at the entry. -/
def travel : Definition :=
  let id : IdentifierDefinition := ⟨"id", [], none, none⟩
  ⟨none,
   [⟨"Passport", none, some "passport", [], none, some ⟨"key", [], none, some "PassportKey"⟩, none, []⟩,
    ⟨"Person", none, some "person", [], none, some id, none,
      [.oneToOne ⟨"passport", "Passport", none, [], true, none⟩]⟩,
    ⟨"Visit", none, some "visit", [], none, some id, none, [.embedded ⟨"entry", "Entry", none⟩]⟩],
   [⟨"PassportKey", [plainPart "country" "string" none, plainPart "number" "string" none]⟩,
    ⟨"Entry", [.manyToOne ⟨"shown", "Passport", none, ["country", "number"], false, none⟩]⟩]⟩

theorem shown_passport_joins : ∃ m a T, travel.metamodel = .ok m ∧ m.HasAttribute (.singular a) ∧
    a.kind = .manyToOne ∧ a.columns.length = 2 ∧ m.entity "Passport" = .ok T ∧
    T.identifier.columns.length = 2 ∧ m.Joins a T := by
  have hrun : (travel.metamodel.toOption.bind fun m => (m.embeddable "Visit.entry").toOption.bind
      fun e => (e.attributes.head?.bind (·.singular?)).bind fun a =>
      (m.entity "Passport").toOption.map fun T =>
      decide (.singular a ∈ e.attributes ∧ a.kind = .manyToOne ∧ a.columns.length = 2 ∧
        a.attributeType = .entity "Passport" ∧ T.identifier.columns.length = 2)) = some true := by
    decide +kernel
  obtain ⟨m, hm, hrun⟩ := Option.bind_eq_some_iff.1 hrun
  obtain ⟨e, he, hrun⟩ := Option.bind_eq_some_iff.1 hrun
  obtain ⟨a, -, hrun⟩ := Option.bind_eq_some_iff.1 hrun
  obtain ⟨T, hT, hrun⟩ := Option.map_eq_some_iff.1 hrun
  obtain ⟨ha, hk, hwidth, htype, hT2⟩ := of_decide_eq_true hrun
  have hm := Except.toOption_eq_some.1 hm
  have hT := Except.toOption_eq_some.1 hT
  have hhas : m.HasAttribute (.singular a) := .inr ⟨_, e, Except.toOption_eq_some.1 he, ha⟩
  obtain ⟨T', ht', hT', -, hjoins⟩ := association_joins_by_width hm hhas (.inl hk)
  rw [← DomainType.entity.inj (htype.symm.trans ht')] at hT'
  cases hT.symm.trans hT'
  exact ⟨m, a, T, hm, hhas, hk, hwidth, hT, hT2, hjoins (hwidth.trans hT2.symm)⟩

/-- Persons with their passports. -/
def passportsOfPersons : Statement :=
  .select ⟨⟨[⟨⟨"Person", some "p"⟩, [⟨some "s", .inner, .attributeOf "p" "passport", false, none⟩]⟩]⟩,
    none, none, none⟩

/-- A one-to-one that shares the key of its owner is not as wide as the identifier of the entity it
leads to, and cannot be joined. -/
theorem shared_key_not_joined : ∃ m E a T, travel.metamodel = .ok m ∧ m.entity "Person" = .ok E ∧
    E.find? "passport" = some (.singular a) ∧ a.kind = .oneToOne ∧
    a.attributeType = .entity "Passport" ∧ m.entity "Passport" = .ok T ∧ a.columns.length = 1 ∧
    T.identifier.columns.length = 2 ∧ lowerWith .default m passportsOfPersons =
      .error (.metamodel (.malformed "Person.passport" (.width 1 2))) := by
  have hrun : (travel.metamodel.toOption.bind fun m => (m.entity "Person").toOption.bind
      fun E => ((E.find? "passport").bind (·.singular?)).bind fun a =>
      (m.entity "Passport").toOption.map fun T =>
      decide (E.find? "passport" = some (.singular a) ∧ a.kind = .oneToOne ∧
        a.attributeType = .entity "Passport" ∧ a.columns.length = 1 ∧
        T.identifier.columns.length = 2 ∧ (match lowerWith .default m passportsOfPersons with
          | .ok _ => none
          | .error e => some e) = some (.metamodel (.malformed "Person.passport" (.width 1 2))))) =
      some true := by
    decide +kernel
  obtain ⟨m, hm, hrun⟩ := Option.bind_eq_some_iff.1 hrun
  obtain ⟨E, hE, hrun⟩ := Option.bind_eq_some_iff.1 hrun
  obtain ⟨a, -, hrun⟩ := Option.bind_eq_some_iff.1 hrun
  obtain ⟨T, hT, hrun⟩ := Option.map_eq_some_iff.1 hrun
  obtain ⟨ha, hk, htype, hwidth, hT2, hl⟩ := of_decide_eq_true hrun
  refine ⟨m, E, a, T, Except.toOption_eq_some.1 hm, Except.toOption_eq_some.1 hE, ha, hk, htype,
    Except.toOption_eq_some.1 hT, hwidth, hT2, ?_⟩
  split at hl
  · cases hl
  · rename_i hf
    rw [hf, Option.some.inj hl]

end EntityQuery
