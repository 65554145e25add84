import EntityQuery.Proofs.ColumnEqualities
import EntityQuery.Proofs.InternalFaults

/-!
# Collections that a definition accepts

A definition checks the key of a collection against the identifier of the entity that declares it,
while a statement compares the key with the identifier of any entity of the line. The two have the
same width, as all entities of a line have the identifier of their root (`Builds.key_width`). The
columns of the elements have the width of their identifier, too (`Builds.element_width`).

So a collection can be joined and tested wherever an entity that has it is in scope
(`accepted_collections_lower`). Only elements of any kind cannot.
-/

set_option autoImplicit false

namespace EntityQuery

/-- Whether the attribute is a collection whose elements are of any kind. -/
def AttributeDefinition.holdsAny : AttributeDefinition → Bool
  | .elementCollection ⟨_, _, _, .any .., _, _⟩ => true
  | _ => false

/-! ## Widths of keys and elements -/

namespace Definition

variable {d : Definition} {component : ComponentMapper} {owner context : String} {n : Nat}
  {a : AttributeDefinition} {am : AttributeMapping} {c : CollectionMapping}

/-- The entities of a line have identifiers of the same SQL types. -/
theorem InLine.keyCodesOf?_eq {e D : EntityDefinition} (h : d.InLine e D) (hv : d.Valid)
    (he : e ∈ d.entities) (embeddable : String → Option (List Column)) :
    d.keyCodesOf? embeddable D.name = d.keyCodesOf? embeddable e.name := by
  have hD : d.entity? D.name = some D := hv.entity? (h.mem he)
  simp only [keyCodesOf?, hD, hv.entity? he, Option.bind_eq_bind, Option.bind_some,
    h.root_eq hv he]

theorem keyCodes_ok {columns : List String} {codes : List SqlCode}
    (h : d.keyCodes component owner columns context = .ok codes) :
    d.identifierCodes component owner = .ok codes ∧ codes.length = columns.length := by
  simp only [keyCodes, Except.bind_eq_ok, Except.guard_eq_ok, Except.pure_eq_ok] at h
  obtain ⟨_, hcodes, hlength, rfl⟩ := h
  exact ⟨hcodes, not_not.1 hlength⟩

/-- The key of a collection has as many columns as the identifier of its owner has types. -/
theorem attributeMapping_keys (h : d.attributeMapping component owner n a = .ok am)
    (hc : am.mappedType = .collection c) :
    ∃ codes, d.identifierCodes component owner = .ok codes ∧
      codes.length = c.keyColumns.length := by
  cases a with
  | oneToMany a =>
    simp only [attributeMapping, oneToManyMapping, Except.bind_eq_ok, Except.pure_eq_ok] at h
    obtain ⟨_, -, codes, hcodes, _, -, rfl⟩ := h
    cases hc
    exact ⟨codes, keyCodes_ok hcodes⟩
  | manyToMany a =>
    simp only [attributeMapping, manyToManyMapping, Except.bind_eq_ok, Except.guard_eq_ok,
      Except.pure_eq_ok] at h
    obtain ⟨_, -, -, codes, hcodes, _, -, rfl⟩ := h
    cases hc
    exact ⟨codes, keyCodes_ok hcodes⟩
  | elementCollection a =>
    simp only [attributeMapping, elementCollectionMapping, Except.bind_eq_ok,
      Except.pure_eq_ok] at h
    obtain ⟨_, -, codes, hcodes, _, -, rfl⟩ := h
    cases hc
    exact ⟨codes, keyCodes_ok hcodes⟩
  | basic | embedded | any | manyToOne | oneToOne => exact (attributeMapping_collection h hc).elim

/-- What the elements of a collection are, by the attribute that declares it. -/
theorem MapsCollection.elementClass (h : d.MapsCollection component context a c) :
    match c.element.elementType.elementClass with
    | .any => a.holdsAny = true
    | .oneToMany => ∃ target, c.element = ⟨.entity target false, [], none, []⟩
    | _ => True := by
  cases a with
  | oneToMany a =>
    rw [h.2]
    exact ⟨a.target, rfl⟩
  | manyToMany a =>
    obtain ⟨-, _, -, -, helement⟩ := h
    rw [helement]
    trivial
  | elementCollection a =>
    obtain ⟨_, _, _, element, _, _⟩ := a
    have htype := elementMapping_type h.2
    cases element with
    | basic =>
      obtain ⟨_, heq⟩ := htype
      rw [heq]
      trivial
    | embeddable =>
      obtain ⟨_, heq, -⟩ := htype
      rw [heq]
      trivial
    | any =>
      obtain ⟨_, heq⟩ := htype
      rw [heq]
      rfl
  | basic | embedded | any | manyToOne | oneToOne => exact h.elim

end Definition

namespace Build

variable {entities : List Entity} {owner : Owner} {name : String} {c : CollectionMapping}
  {p : PluralAttribute} {r r' : Registry}

theorem plural_keyWidth (h : plural entities owner name c r = .ok p r') :
    p.keyColumns.length = c.keyColumns.length := by
  obtain ⟨_, _, _, _, _, _, _, _, _, _, _, -, -, hk, -, -, -, -, rfl⟩ := plural_ok h
  simpa using values_length (keyColumns_ok hk)

/-- Elements without columns of their own are known by the identifier of their entity. -/
theorem plural_elements {target : String} (h : plural entities owner name c r = .ok p r')
    (he : c.element = ⟨.entity target false, [], none, []⟩) :
    ∃ b, known entities target = .ok b ∧ p.element.columns = b.identifier.columns := by
  obtain ⟨_, _, _, ids, _, _, _, _, _, _, _, -, hs, -, -, hids, -, -, rfl⟩ := plural_ok h
  rw [he] at hs hids
  obtain ⟨b, hb⟩ := slotTable_known hs
  refine ⟨b, hb, ?_⟩
  simp only [elementColumns, EStateM.bind_eq_ok] at hids
  obtain ⟨found, _, hfound, hids⟩ := hids
  obtain rfl : found = [] := List.length_eq_zero_iff.1 (values_length hfound)
  obtain ⟨-, hids⟩ := EStateM.guard_eq_ok.1 hids
  simp only [known_eq_ok.1 hb, EStateM.pure_eq_ok] at hids
  exact hids.1.symm

end Build

namespace Definition.Builds

variable {d : Definition} {m : Metamodel} {ems : List EntityMapping} {ps : List PendingEntity}
  {bare : List Entity} {r r1 r2 : Registry} {name : String} {E : Entity} {p : PluralAttribute}

/-- A collection of an entity is built from an attribute that the line of the entity declares. -/
theorem plural_built (h : d.Builds m ems ps bare r r1 r2) (hE : m.entity name = .ok E)
    (hp : .plural p ∈ E.attributes) :
    ∃ e D a am c owner r r', e ∈ d.entities ∧ e.name = name ∧ d.Inherits e D a am ∧
      am.mappedType = .collection c ∧ Build.plural bare owner am.name c r = .ok p r' ∧
      r'.database.Grows m.database := by
  obtain ⟨e, em, q, he, hname, hmap, -, hof, hbuilt, -⟩ := h.entity_of hE
  obtain ⟨am, ham, r, r', hstored, hgrows⟩ := hbuilt.attributes.exists_left hp
  obtain ⟨c, hc, hplural⟩ := Build.stored_plural hstored
  rw [hof.attributes] at ham
  obtain ⟨D, a, hin⟩ := inherits_of_mem h.valid he hmap ham
  exact ⟨e, D, a, am, c, _, r, r', he, hname, hin, hc, hplural, hgrows⟩

/-- The key of a collection is as wide as the identifier of every entity that has it. -/
theorem key_width (h : d.Builds m ems ps bare r r1 r2) (hE : m.entity name = .ok E)
    (hp : .plural p ∈ E.attributes) : p.keyColumns.length = E.identifier.columns.length := by
  obtain ⟨e, D, a, am, c, _, _, _, he, rfl, hin, hc, hplural, -⟩ := h.plural_built hE hp
  obtain ⟨_, _, _, -, -, -, hmapped⟩ := hin.mapped
  -- the key has the types that the identifier of the declaring entity has
  obtain ⟨codes, hcodes, hlength⟩ := attributeMapping_keys hmapped hc
  have hdeclared := identifierCodes_ok (componentMapper_agrees _) hcodes
  rw [hin.line.keyCodesOf?_eq h.valid he] at hdeclared
  obtain ⟨codes', hcodes', hwidth⟩ := h.identifier_width hE
  cases hdeclared.symm.trans hcodes'
  rw [hwidth, hlength, Build.plural_keyWidth hplural]

/-- The columns of elements that are entities are as wide as their identifier. -/
theorem element_width (h : d.Builds m ems ps bare r r1 r2) (hE : m.entity name = .ok E)
    (hp : .plural p ∈ E.attributes) {T : Entity} (hT : m.elementEntity p = .ok T)
    (hk : p.element.kind = .oneToMany ∨ p.element.kind = .manyToMany) :
    p.element.columns.length = T.identifier.columns.length := by
  obtain ⟨-, -, -, -, -, -, -, -, -, hmem⟩ := h.entity_of hE
  rcases hk with hk | hk
  · obtain ⟨e, D, a, am, c, _, _, _, he, rfl, hin, hc, hplural, -⟩ := h.plural_built hE hp
    obtain ⟨_, _, _, -, -, -, hmapped⟩ := hin.mapped
    obtain ⟨hkind, htype, -⟩ := Build.plural_keys hplural
    have hclass := MapsCollection.elementClass (attributeMapping_collection hmapped hc)
    rw [← hkind, hk] at hclass
    obtain ⟨target, helement⟩ := hclass
    obtain ⟨b, hb, hcolumns⟩ := Build.plural_elements hplural helement
    -- the build of attributes leaves the identifier as it is
    have hkeeps := Build.completed_keeps (Build.identified_ok h.identified).length_eq h.completed
    obtain ⟨_, hkept⟩ := Build.known_keeps hkeeps hb
    rw [helement] at htype
    cases hkept.symm.trans (Metamodel.entity_of_elements hT htype)
    rw [hcolumns]
  · exact h.link_width hmem hp hk hT

/-- A collection that the line of an entity declares is found there under its name. -/
theorem find_declared_plural (h : d.Builds m ems ps bare r r1 r2) {e D : EntityDefinition}
    {a : AttributeDefinition} (he : e ∈ d.entities) (hD : d.InLine e D) (ha : a ∈ D.attributes)
    (hplural : a.isPlural = true) :
    ∃ p, m.find (.entity e.name) a.name = .ok (.plural p) ∧
      (p.element.kind = .any → a.holdsAny = true) := by
  obtain ⟨em, q, E, hmap, -, hof, hbuilt, hE⟩ := h.entity he
  obtain ⟨am, ham, hin⟩ := exists_inherits h.valid he hmap hD ha
  obtain ⟨x, hx, _, _, hx', -⟩ := find_declared h.valid he hmap hof hbuilt hin ham
  obtain ⟨_, _, _, -, -, -, hmapped⟩ := hin.mapped
  obtain ⟨c, rfl, -⟩ := attributeMapping_plural hplural hmapped
  obtain ⟨_, -, p, hp, rfl⟩ := Build.stored_ok hx'
  refine ⟨p, Metamodel.find_entity hE hx, fun hany => ?_⟩
  have hclass := MapsCollection.elementClass (attributeMapping_collection hmapped rfl)
  obtain ⟨hkind, -⟩ := Build.plural_keys hp
  rw [← hkind, hany] at hclass
  exact hclass

end Definition.Builds

/-! ## From-elements in scope -/

/-- The from-elements in scope are those of some spaces. Conditions may have been tied to their
joins since. -/
def Scope.Arises (s : Scope) (m : Metamodel) (settings : Settings) : Prop :=
  ∃ spaces u pass, List.forM spaces (Step.space m) (.start settings) = .ok u pass ∧
    s.index = pass.scope.index ∧ groupAt? s.spaces = groupAt? pass.scope.spaces

theorem Scope.Arises.grounded {s : Scope} {m : Metamodel} {settings : Settings}
    (h : s.Arises m settings) : s.Grounded m := by
  obtain ⟨spaces, u, pass, hrun, hindex, hgroups⟩ := h
  have hregisters := Step.spaces_registers (Pass.registers_start settings m) hrun
  exact hregisters.scope.grounded.congr hindex hgroups

/-- The clauses of a statement are lowered over the from-elements of its from clause. -/
theorem Step.fromElements_arise {m : Metamodel} {settings : Settings} {s : Statement} {u : Unit}
    {pass : Pass} (h : fromElements m s (.start settings) = .ok u pass) :
    pass.scope.Arises m settings := by
  have of_root {root : Root} {pass : Pass} {u : Unit}
      (hroot : Step.root m root (.start settings) = .ok u pass) : pass.scope.Arises m settings := by
    have hspace : Step.space m ⟨root, []⟩ (.start settings) = .ok () pass := by
      rw [space_eq]
      exact EStateM.bind_eq_ok.2 ⟨u, pass, hroot, rfl⟩
    exact ⟨[⟨root, []⟩], (), pass, EStateM.bind_eq_ok.2 ⟨(), pass, hspace, rfl⟩, rfl, rfl⟩
  cases s with
  | update x => exact of_root h
  | delete x => exact of_root h
  | select q =>
    obtain ⟨-, v, before, hspaces, hpending⟩ := fromClause_ok h
    have hkeeps := EStateM.forM_inv (fun _ after => after.scope.index = before.scope.index ∧
      groupAt? after.scope.spaces = groupAt? before.scope.spaces) ?_ ⟨rfl, rfl⟩ hpending
    · exact ⟨q.fromClause.spaces, v, before, hspaces, hkeeps⟩
    · rintro _ p after _ _ ⟨hindex, hgroups⟩ hp
      obtain ⟨_, _, _, -, -, rfl⟩ := pendingCondition_ok hp
      exact ⟨hindex, (groupAt?_tied _ _ _ _).trans hgroups⟩

namespace Metamodel

variable {m : Metamodel}

theorem Composes.width {ids : List ColumnId} {v : Sql.Expression} (h : m.Composes ids v) :
    v.parts.length = ids.length := by
  obtain ⟨references, hreferences, hparts⟩ := h
  rw [hparts, List.length_map, hreferences.length_eq]

/-- A collection can be tied to every owner that is as wide as its key. -/
theorem Complete.tiedGroup (h : m.Complete) {p : PluralAttribute} (hs : p.Sound m)
    (hp : p.Placed m) (hk : p.element.kind ≠ .any) {owner : Sql.Expression}
    (hw : p.keyColumns.length = owner.parts.length) (base : String) :
    ∃ g tie, m.tiedGroup p owner base = .ok (g, tie) := by
  obtain ⟨g, hg⟩ := h.collectionGroup hs hp hk base
  obtain ⟨references, hkeys, hlength⟩ := keyValue_of hs hp hg
  have hwidth := (keyValue_composes hkeys).width.trans hw
  obtain ⟨tie, htie⟩ : ∃ tie, m.keyPredicate p g owner = .ok tie :=
    ⟨_, Except.bind_eq_ok.2 ⟨_, hkeys, matching_eq_ok.2 ⟨hwidth, rfl⟩⟩⟩
  exact ⟨g, tie, Except.bind_eq_ok.2 ⟨g, hg, Except.bind_eq_ok.2 ⟨tie, htie, rfl⟩⟩⟩

end Metamodel

namespace Scope

variable {s : Scope} {m : Metamodel} {name entity : String} {ref : GroupRef} {E : Entity}

/-- An entity in scope has its identifier for a value. -/
theorem Grounded.owner (hs : s.Grounded m) (hm : m.Complete) (href : s.index.find? name = some ref)
    (hsource : ref.source = .entity entity) (hE : m.entity entity = .ok E) :
    ∃ owner, s.elementValue m ref = .ok owner ∧
      owner.parts.length = E.identifier.columns.length := by
  obtain ⟨g, hg, hstands⟩ := hs.group (FromIndex.mem_of_find? href)
  rw [hsource] at hstands
  obtain ⟨E', hE', hgroup⟩ := hstands
  cases hE.symm.trans hE'
  have hfirst : E.tables[0]? = some E.primaryTable := rfl
  obtain ⟨use, huse, -⟩ := (Metamodel.entityGroup_ok hgroup).1.table? hfirst
  have hidentifier := hm.identifier (Metamodel.mem_of_entity hE)
  obtain ⟨slots, hslots⟩ := Metamodel.hasColumns_of_contains hidentifier
  obtain ⟨v, hvalue⟩ :
      ∃ v, m.columnsAt g 0 E.identifier.columns (some (.entity E.name)) = .ok v :=
    ⟨_, Metamodel.columnsAt_eq_ok.2 ⟨use, slots, huse, hslots, rfl⟩⟩
  refine ⟨v, ?_, (Metamodel.columnsAt_composes hvalue).width⟩
  refine Except.bind_eq_ok.2 ⟨g, hg, ?_⟩
  rw [hsource]
  exact Except.bind_eq_ok.2 ⟨E, lookedUp_of hE, lookedUp_of hvalue⟩

theorem resolve_attribute (href : s.index.find? name = some ref)
    (hsource : ref.source = .entity entity) {member : String} {a : Attribute}
    (hfind : m.find (.entity entity) member = .ok a) :
    s.resolve m ⟨name, [member]⟩ =
      .ok ⟨AttributePath.dotted ⟨name, [member]⟩, ref, .attributeOf a, 0⟩ := by
  refine Except.bind_eq_ok.2 ⟨ref, FromIndex.resolve_ok.2 href, Except.bind_eq_ok.2 ⟨(_, 0), ?_,
    Except.bind_eq_ok.2 ⟨_, Except.bind_eq_ok.2 ⟨a, lookedUp_of hfind, rfl⟩, rfl⟩⟩⟩
  unfold start
  rw [hsource]

/-- The from clause is open wherever something is in scope. -/
theorem Grounded.space (hs : s.Grounded m) (href : s.index.find? name = some ref) :
    ∃ space, s.spaces.length = space + 1 := by
  obtain ⟨g, hg, -⟩ := hs.group (FromIndex.mem_of_find? href)
  have hat := group_ok.1 hg
  refine Nat.exists_eq_add_one.2 (List.length_pos_iff.2 fun hnil => ?_)
  rw [hnil] at hat
  cases hat

/-- A collection that can be tied to its owner has the subqueries that test it. -/
theorem subquery_of {path : AttributePath} {p : PluralAttribute} {owner : Sql.Expression}
    (howned : s.owned m path = .ok (p, owner))
    (htied : ∀ base, ∃ g tie, m.tiedGroup p owner base = .ok (g, tie))
    (helement : ∀ base g, m.collectionGroup p base = .ok g → ∃ v, m.elementValue p g = .ok v)
    (selected : Selected) (supply : Supply) :
    ∃ q supply', s.subquery m path selected supply = .ok q supply' := by
  obtain ⟨g, tie, hgroup⟩ := htied supply.aliasBases.next.1
  obtain ⟨hg, htie, keys, hkeys, -⟩ := Metamodel.tiedGroup_ok hgroup
  obtain ⟨v, hv⟩ : ∃ v, selected.value m p g = .ok v := by
    cases selected with
    | key => exact ⟨_, hkeys⟩
    | element => exact helement _ g hg
  rw [subquery_eq howned, collectionQuery_of selected hg htie hv]
  exact ⟨_, _, rfl⟩

end Scope

/-! ## Joins and tests -/

/-- Every collection that a definition accepts for the line of an entity can be joined and tested
wherever the entity is in scope, unless its elements are of any kind: its key is as wide as the
identifier of the entity, and its elements as wide as theirs. -/
theorem accepted_collections_lower {d : Definition} {m : Metamodel} {settings : Settings}
    {e D : EntityDefinition} {a : AttributeDefinition} {pass : Pass} {name : String}
    {ref : GroupRef} (hm : d.metamodel = .ok m) (hd : d.PlainAttributes) (he : e ∈ d.entities)
    (hD : d.InLine e D) (ha : a ∈ D.attributes) (hplural : a.isPlural = true)
    (hany : a.holdsAny = false) (hscope : pass.scope.Arises m settings)
    (href : pass.scope.index.find? name = some ref) (hsource : ref.source = .entity e.name) :
    ∃ E p, m.entity e.name = .ok E ∧ m.find (.entity e.name) a.name = .ok (.plural p) ∧
      p.keyColumns.length = E.identifier.columns.length ∧
      (p.element.kind = .oneToMany ∨ p.element.kind = .manyToMany → ∃ T,
        m.elementEntity p = .ok T ∧ p.element.columns.length = T.identifier.columns.length) ∧
      (∀ j : Join, j.source = .attributeOf name a.name →
        j.joinType = .inner ∨ j.joinType = .left ∨ j.joinType = .cross →
        pass.scope.index.find? (nameFor j.aliasName pass.generated) = none →
        ∃ pass' joined, Step.join m j pass = .ok () pass' ∧
          pass'.scope.index.find? (nameFor j.aliasName pass.generated) = some joined ∧
          joined.source = .collection p.role) ∧
      (∀ negated supply, ∃ q supply', pass.scope.predicate m (.isEmpty ⟨name, [a.name]⟩ negated)
        supply = .ok (.nonempty q (!negated)) supply') ∧
      ∀ value v negated supply supply', pass.scope.expression m value supply = .ok v supply' →
        ∃ q supply'', pass.scope.predicate m (.memberOf value ⟨name, [a.name]⟩ negated) supply =
          .ok (.among v q negated) supply'' := by
  obtain ⟨ems, ps, bare, r, r1, r2, hb⟩ := Definition.builds hm
  have hcomplete := Definition.complete hm
  obtain ⟨p, hfind, hkind⟩ := hb.find_declared_plural he hD ha hplural
  obtain ⟨E, hE, hmem, -⟩ := Metamodel.find_plural hfind
  obtain ⟨-, -, -, -, -, -, -, -, -, hEm⟩ := hb.entity_of hE
  have hsound : p.Sound m := hcomplete.attributes hfind
  have hplaced := hcomplete.placed hfind
  have hkey := hb.key_width hE hmem
  -- the owner is as wide as the key, so the collection can be tied to it
  have hgrounded := hscope.grounded
  obtain ⟨owner, ho, hwidth⟩ := hgrounded.owner hcomplete href hsource hE
  have hnotAny : p.element.kind ≠ .any := fun hk => by
    rw [hkind hk] at hany
    cases hany
  have htied := hcomplete.tiedGroup hsound hplaced hnotAny (hkey.trans hwidth.symm)
  have hx := Scope.resolve_attribute href hsource hfind
  have hsubquery := Scope.subquery_of (Scope.owned_plural hx rfl ho) htied
    fun base g hg => hb.element_value hEm hmem hg
  refine ⟨E, p, hE, hfind, hkey, fun hk => ?_, fun j hj htype hn => ?_, fun negated supply => ?_,
    fun value v negated supply supply' hv => ?_⟩
  · obtain ⟨T, hT⟩ := hplaced.elements hk
    exact ⟨T, hT, hb.element_width hE hmem hT hk⟩
  · obtain ⟨joinType, hlower⟩ : ∃ joinType, j.joinType.lower = .ok joinType := by
      rcases htype with h | h | h <;> (rw [h]; exact ⟨_, rfl⟩)
    obtain ⟨space, hspace⟩ := hgrounded.space href
    obtain ⟨g, tie, hgroup⟩ :=
      htied (pass.supply.aliasBases.baseFor (nameFor j.aliasName pass.generated)).1
    have hjoined := Scope.joinedGroup_plural
      (pass.supply.aliasBases.baseFor (nameFor j.aliasName pass.generated)).1
      (hd D (hD.mem he) a ha) hx rfl ho
    rw [hgroup, ← hj] at hjoined
    obtain ⟨pass', l, hrun, hfound, -⟩ := Step.join_of hlower hspace rfl hjoined hn
    exact ⟨pass', _, hrun, hfound, rfl⟩
  · obtain ⟨q, supply', hq⟩ := hsubquery .key supply
    exact ⟨q, supply', by rw [Scope.isEmpty_eq, hq]⟩
  · obtain ⟨q, supply'', hq⟩ := hsubquery .element supply'
    exact ⟨q, supply'', by rw [Scope.memberOf_eq hv, hq]⟩

/-- A branch is an office that has partners. Its table has names of its own for the region and the
number of the office. -/
def branch : EntityDefinition :=
  ⟨"Branch", some "Office", some "branch", [], none, none, some ["branch_region", "branch_number"],
    [.manyToMany ⟨"partners", "Office", "partnership", ["region", "number"],
      ["partner_region", "partner_number"], .set, none⟩]⟩

/-- Offices, known by their region and their number there. -/
def office : EntityDefinition :=
  ⟨"Office", none, some "office", [], none,
    some ⟨"key", ["region_code", "number"], none, some "OfficeKey"⟩, none, []⟩

def offices : Definition :=
  ⟨none, [office, branch],
    [⟨"OfficeKey", [plainPart "region" "string" none, plainPart "number" "integer" none]⟩]⟩

/-- Offices without partners. -/
def lonelyOffices : Statement :=
  .select ⟨⟨[⟨⟨"Office", some "o"⟩, []⟩]⟩, none, some (.isEmpty ⟨"o", ["partners"]⟩ false), none⟩

/-- The partners of offices. -/
def partnersOfOffices : Join := ⟨some "p", .left, .attributeOf "o" "partners", false, none⟩

/-- The partners of branches are reached from any office. -/
theorem partners_of_offices_lower : ∃ m pass E p T pass' joined q supply,
    offices.metamodel = .ok m ∧
    Step.fromElements m lonelyOffices (.start .default) = .ok () pass ∧
    m.entity "Office" = .ok E ∧ m.find (.entity "Office") "partners" = .ok (.plural p) ∧
    p.keyColumns.length = E.identifier.columns.length ∧ m.elementEntity p = .ok T ∧
    p.element.columns.length = T.identifier.columns.length ∧
    Step.join m partnersOfOffices pass = .ok () pass' ∧
    pass'.scope.index.find? "p" = some joined ∧ joined.source = .collection "Branch.partners" ∧
    pass.scope.predicate m (.isEmpty ⟨"o", ["partners"]⟩ false) pass.supply =
      .ok (.nonempty q true) supply := by
  have hrun : (offices.metamodel.toOption.bind fun m =>
      ((do Step.fromElements m lonelyOffices; get : Step Pass).run' (.start .default)).bind
        fun pass =>
      (pass.scope.index.find? "o").bind fun ref =>
      (m.find (.entity "Office") "partners").toOption.map fun found =>
        (ref.source, pass.scope.index.find? "p",
          found.plural?.map fun p => (p.role, p.element.kind))) =
        some (.entity "Office", none, some ("Branch.partners", .manyToMany)) := by
    decide +kernel
  obtain ⟨m, hm, hrun⟩ := Option.bind_eq_some_iff.1 hrun
  obtain ⟨pass, hpass, hrun⟩ := Option.bind_eq_some_iff.1 hrun
  obtain ⟨ref, href, hrun⟩ := Option.bind_eq_some_iff.1 hrun
  obtain ⟨found, hfound, hrun⟩ := Option.map_eq_some_iff.1 hrun
  simp only [Prod.mk.injEq] at hrun
  obtain ⟨hsource, hfree, hrole⟩ := hrun
  have hm := Except.toOption_eq_some.1 hm
  obtain ⟨_, hpass⟩ := EStateM.exists_ok_of_get hpass
  have hplain : offices.PlainAttributes := by
    unfold Definition.PlainAttributes
    decide +kernel
  have hline : offices.InLine office branch :=
    .inr (.inr ⟨by decide, .single ⟨by decide, rfl⟩⟩)
  obtain ⟨E, p, hE, hp, hkey, helements, hjoin, hempty, -⟩ := accepted_collections_lower hm hplain
    (by decide : office ∈ offices.entities) hline List.mem_cons_self rfl rfl
    (Step.fromElements_arise hpass) href hsource
  cases (Except.toOption_eq_some.1 hfound).symm.trans hp
  obtain ⟨hrole, hkind⟩ := Prod.mk.inj (Option.some.inj hrole)
  obtain ⟨T, hT, hwidth⟩ := helements (.inr hkind)
  obtain ⟨pass', joined, hjoin, hindex, hjoined⟩ :=
    hjoin partnersOfOffices rfl (.inr (.inl rfl)) hfree
  obtain ⟨q, supply, hempty⟩ := hempty false pass.supply
  exact ⟨m, pass, E, p, T, pass', joined, q, supply, hm, hpass, hE, hp, hkey, hT, hwidth, hjoin,
    hindex, hrole ▸ hjoined, hempty⟩

end EntityQuery
