import EntityQuery.Proofs.PathGrammar

/-!
# Mappings of any kind

An attribute or an element of any kind may refer to entities of different types, so it has no table
to be read from. `any_mappings_refused`: over a metamodel that has been built, every path that
reaches such an attribute fails as unsupported, as a value, as the target of an assignment and as
the source of a join, and so does every join and test of a collection that has such elements.

Tests of a collection are the exception. A path that ends at a single attribute of any kind fails
there like one that ends at any other single attribute, as it is no collection
(`any_tested_as_collection`).
-/

set_option autoImplicit false

namespace EntityQuery

/-! ## Failures -/

namespace Scope

/-- The path fails as a value: as an expression, and as the target of an assignment. -/
structure ValuesFail (s : Scope) (m : Metamodel) (path : AttributePath) (e : LoweringError) :
    Prop where
  expression : ∀ supply, s.expression m (.path path) supply = .error e supply
  assignment : ∀ value supply, s.assignment m ⟨path, value⟩ supply = .error e supply

/-- The path fails as a collection: the test whether it is empty, and the test for a member that
has a value. -/
structure TestsFail (s : Scope) (m : Metamodel) (path : AttributePath) (e : LoweringError) :
    Prop where
  isEmpty : ∀ negated supply, ∃ supply', s.predicate m (.isEmpty path negated) supply =
    .error e supply'
  memberOf : ∀ value v negated supply supply', s.expression m value supply = .ok v supply' →
    ∃ supply'', s.predicate m (.memberOf value path negated) supply = .error e supply''

end Scope

/-- The path fails as the source of every join of a supported type. -/
def Pass.JoinsFail (pass : Pass) (m : Metamodel) (path : AttributePath) (e : LoweringError) :
    Prop :=
  ∀ j dotted, j.source = .attributeOf path.start dotted → splitDots dotted = path.segments →
    j.joinType = .inner ∨ j.joinType = .left ∨ j.joinType = .cross →
    ∃ pass', Step.join m j pass = .error e pass'

namespace Scope

variable {s : Scope} {m : Metamodel} {path : AttributePath} {e : LoweringError}

theorem valuesFail_of (h : s.path m path = .error e) : s.ValuesFail m path e := by
  refine ⟨fun supply => ?_, fun value supply => ?_⟩
  · rw [Scope.expression_eq, Scope.expressionOfParts, h]
    rfl
  · simp only [Scope.assignment_eq, h, settled, bind, EStateM.bind]
    rfl

/-- Both tests read the collection through a subquery. -/
theorem testsFail_of (h : ∀ selected supply, ∃ supply',
    s.subquery m path selected supply = .error e supply') : s.TestsFail m path e := by
  refine ⟨fun negated supply => ?_, fun value v negated supply supply' hv => ?_⟩
  · obtain ⟨supply', hq⟩ := h .key supply
    exact ⟨supply', by rw [isEmpty_eq, hq]⟩
  · obtain ⟨supply'', hq⟩ := h .element supply'
    exact ⟨supply'', by rw [memberOf_eq hv, hq]⟩

theorem testsFail_of_owned (h : s.owned m path = .error e) : s.TestsFail m path e := by
  refine testsFail_of fun selected supply => ⟨supply, ?_⟩
  simp only [subquery, h, settled, bind, EStateM.bind]
  rfl

end Scope

theorem Pass.joinsFail_of {pass : Pass} {m : Metamodel} {path : AttributePath} {e : LoweringError}
    {ref : GroupRef} (hs : pass.scope.Grounded m)
    (href : pass.scope.index.find? path.start = some ref)
    (h : ∀ base, pass.scope.attributeGroup m path base = .error e) : pass.JoinsFail m path e := by
  intro j dotted hsource hsegments htype
  obtain ⟨joinType, hlower⟩ : ∃ joinType, j.joinType.lower = .ok joinType := by
    rcases htype with h | h | h <;> (rw [h]; exact ⟨_, rfl⟩)
  obtain ⟨space, hspace⟩ := hs.space href
  refine Step.join_error hlower hspace rfl ?_
  rw [hsource, Scope.joinedGroup, hsegments]
  exact h _

/-! ## Attributes of any kind -/

/-- The path reaches a single attribute of any kind. The rest of its segments is what follows. -/
def Metamodel.ReachesAny (m : Metamodel) (type : ManagedType) (segments : List String)
    (a : SingularAttribute) (rest : List String) : Prop :=
  ∃ embedded name reached, segments = embedded ++ name :: rest ∧ m.Enters type embedded reached ∧
    m.find reached name = .ok (.singular a) ∧ a.kind = .any

section

variable {m : Metamodel} {type : ManagedType} {segments : List String} {a : SingularAttribute}

theorem Metamodel.ReachesAny.accepts (h : m.ReachesAny type segments a []) :
    m.Accepts type segments (.attributeOf (.singular a)) := by
  obtain ⟨embedded, name, reached, heq, henters, hfound, -⟩ := h
  exact ⟨embedded, [name], reached, heq, henters, .attributeOf hfound⟩

theorem Metamodel.ReachesAny.rejects {next : String} {rest : List String}
    (h : m.ReachesAny type segments a (next :: rest)) (path : String) :
    m.Rejects path type segments (.metamodel (.unsupported a.role .anyDereferenced)) := by
  obtain ⟨embedded, name, reached, heq, henters, hfound, hany⟩ := h
  exact .inr ⟨embedded, name :: next :: rest, reached, heq, henters, .any hfound hany⟩

theorem Metamodel.ReachesAny.kind {rest : List String} (h : m.ReachesAny type segments a rest) :
    a.kind = .any := by
  obtain ⟨_, _, _, -, -, -, hany⟩ := h
  exact hany

end

/-! ## Elements of any kind -/

/-- The elements of a collection have a value in every group of a collection, unless they are of any
kind. -/
theorem Metamodel.Complete.elementValue {m : Metamodel} (hm : m.Complete) {p q : PluralAttribute}
    {base : String} {g : Sql.TableGroup} (hg : m.collectionGroup p base = .ok g) (hq : q.Sound m)
    (hentity : q.element.kind = .manyToMany ∨ q.element.kind = .oneToMany →
      ∃ e, m.elementEntity q = .ok e) (hk : q.element.kind ≠ .any) :
    ∃ v, m.elementValue q g = .ok v := by
  have hvalue {position : Nat} {use : Sql.TableUse} {ids : List ColumnId} (type : DomainType)
      (huse : g.table? position = some use) (hids : m.database.Contains ids) :
      ∃ v, m.columnsAt g position ids (some type) = .ok v := by
    obtain ⟨slots, hslots⟩ := hasColumns_of_contains hids
    exact ⟨_, columnsAt_eq_ok.2 ⟨use, slots, huse, hslots, rfl⟩⟩
  have hfirst : g.table? 0 = some g.rootTable := rfl
  obtain ⟨use, huse⟩ := collectionGroup_offset hg
  unfold Metamodel.elementValue
  cases hkind : q.element.kind with
  | any => exact absurd hkind hk
  | basic | embeddable => exact hvalue _ hfirst hq.elementColumns
  | manyToMany =>
    obtain ⟨e, he⟩ := hentity (.inl hkind)
    obtain ⟨v, hv⟩ :=
      hvalue (.entity e.name) huse (hm.identifier (mem_of_entity (elementEntity_ok he).2))
    exact ⟨v, Except.bind_eq_ok.2 ⟨e, he, hv⟩⟩
  | oneToMany =>
    obtain ⟨e, he⟩ := hentity (.inr hkind)
    obtain ⟨v, hv⟩ :=
      hvalue (.entity e.name) huse (hm.identifier (mem_of_entity (elementEntity_ok he).2))
    exact ⟨v, Except.bind_eq_ok.2 ⟨e, he, hv⟩⟩

/-- A from-element that paths start at has a value. -/
theorem Scope.Grounded.value {s : Scope} {m : Metamodel} {name path : String} {ref : GroupRef}
    {type : ManagedType} {offset : Nat} (hs : s.Grounded m) (hm : m.Complete)
    (href : s.index.find? name = some ref) (hstart : s.start m ref path = .ok (type, offset)) :
    ∃ owner, s.elementValue m ref = .ok owner := by
  obtain ⟨g, hg, hstands⟩ := hs.group (FromIndex.mem_of_find? href)
  have htype := hs.has hm href hstart
  rcases Scope.start_ok hstart with ⟨_, hsource, rfl, -⟩ | ⟨role, q, hsource, hq, hcases⟩
  · obtain ⟨E, hE⟩ := htype
    obtain ⟨owner, howner, -⟩ := hs.owner hm href hsource hE
    exact ⟨owner, howner⟩
  · rw [hsource] at hstands
    obtain ⟨_, _, p, -, -, hgroup⟩ := hstands
    obtain ⟨v, hv⟩ : ∃ v, m.elementValue q g = .ok v := by
      have hsound := hm.collections hq
      refine hm.elementValue hgroup hsound (fun hk => ?_) (fun hk => ?_)
      · have hresolves := hsound.elementType
        obtain ⟨name, htype⟩ : ∃ name, q.element.elementType = .entity name := by
          rcases hcases with ⟨name, _, -, htype, -⟩ | ⟨name, -, htype, -⟩ | ⟨_, hembeddable, -⟩
          · exact ⟨name, htype⟩
          · exact ⟨name, htype⟩
          · simp [hembeddable] at hk
        rw [htype] at hresolves
        obtain ⟨e, he⟩ := hresolves
        exact ⟨e, by simp [Metamodel.elementEntity, PluralAttribute.elementEntity?, htype, he]⟩
      · rcases hcases with ⟨_, _, hkind, -⟩ | ⟨_, hkind, -⟩ | ⟨_, hkind, -⟩ <;>
          (rw [hk] at hkind; cases hkind)
    refine ⟨v, Except.bind_eq_ok.2 ⟨g, hg, ?_⟩⟩
    rw [hsource]
    exact Except.bind_eq_ok.2 ⟨q, lookedUp_of hq, lookedUp_of hv⟩

/-! ## Every path and every collection -/

/-- Over a metamodel that has been built, a path from a from-element that reaches a single attribute
of any kind fails as unsupported, wherever it stands and whether it ends there or goes on. So do all
joins and tests of a collection whose elements are of any kind. Only a test of a path that ends at
such an attribute fails for another reason: the path leads to no collection. -/
theorem any_mappings_refused {ms : List EntityMapping} {r : Registration} {m : Metamodel}
    {settings : Settings} {pass : Pass} {ref : GroupRef} {type : ManagedType} {offset : Nat}
    (path : AttributePath) (hr : Registration.empty.registerAll ms = .ok r) (hb : r.build = .ok m)
    (hs : pass.scope.Arises m settings) (href : pass.scope.index.find? path.start = some ref)
    (hstart : pass.scope.start m ref path.dotted = .ok (type, offset)) :
    (∀ a next rest, m.ReachesAny type path.segments a (next :: rest) →
      let e := .metamodel (.unsupported a.role .anyDereferenced)
      pass.scope.ValuesFail m path e ∧ pass.JoinsFail m path e ∧ pass.scope.TestsFail m path e) ∧
    (∀ a, m.ReachesAny type path.segments a [] →
      pass.scope.ValuesFail m path (.metamodel (.unsupported a.role .anyLowered)) ∧
      pass.JoinsFail m path (.metamodel (.unsupported a.role .anyJoined)) ∧
      pass.scope.TestsFail m path (.invalidPath path.dotted .notCollection)) ∧
    ∀ p, m.Accepts type path.segments (.attributeOf (.plural p)) → p.element.kind = .any →
      let e := .metamodel (.unsupported p.role .anyElements)
      pass.JoinsFail m path e ∧ pass.scope.TestsFail m path e := by
  have hm := Registration.build_traversable hr hb
  have hcomplete := Registration.build_complete hr hb
  have hgrounded := hs.grounded
  have htype := hgrounded.has hcomplete href hstart
  refine ⟨fun a next rest hany => ?_, fun a hany => ?_, fun p haccepts hany => ?_⟩
  · have hresolve := (Scope.resolve_eq_error href hstart hm htype).2 (hany.rejects path.dotted)
    refine ⟨Scope.valuesFail_of ?_, Pass.joinsFail_of hgrounded href fun base => ?_,
      Scope.testsFail_of_owned ?_⟩
    · rw [Scope.path, hresolve]
      rfl
    · rw [Scope.attributeGroup, hresolve]
      rfl
    · rw [Scope.owned, hresolve]
      rfl
  · have hresolve := (Scope.resolve_eq_ok href hstart hm htype).2 ⟨_, hany.accepts, rfl⟩
    obtain ⟨g, hg, -⟩ := hgrounded.group (FromIndex.mem_of_find? href)
    refine ⟨Scope.valuesFail_of ?_, Pass.joinsFail_of hgrounded href fun base => ?_,
      Scope.testsFail_of_owned ?_⟩
    · simp only [Scope.path, hresolve, Scope.pathValue, hg, bind, Except.bind, hany.kind, if_true]
    · simp only [Scope.attributeGroup, hresolve, bind, Except.bind, hany.kind]
    · rw [Scope.owned, hresolve]
      rfl
  · have hresolve := (Scope.resolve_eq_ok href hstart hm htype).2 ⟨_, haccepts, rfl⟩
    obtain ⟨owner, howner⟩ := hgrounded.value hcomplete href hstart
    have hgroup (base : String) :
        m.collectionGroup p base = .error (.unsupported p.role .anyElements) := by
      rw [Metamodel.collectionGroup, hany]
    have hquery (selected : Selected) (base : String) : collectionQuery m p owner selected base =
        .error (.unsupported p.role .anyElements) := by
      rw [collectionQuery, hgroup]
      rfl
    refine ⟨Pass.joinsFail_of hgrounded href fun base => ?_,
      Scope.testsFail_of fun selected supply => ?_⟩
    · have hlifted : (liftM (m.collectionGroup p base) : Except LoweringError Sql.TableGroup) =
          .error (.metamodel (.unsupported p.role .anyElements)) := by
        rw [hgroup]
        rfl
      simp only [Scope.attributeGroup, hresolve, Scope.pluralGroup, hlifted, bind, Except.bind]
    · rw [Scope.subquery_eq (Scope.owned_plural hresolve rfl howner), hquery]
      exact ⟨_, rfl⟩

/-- Tags of things of any kind, with what they were copied from and what they link to. -/
def tags : Definition :=
  ⟨none,
   [⟨"Tag", none, some "tag", [], none, some ⟨"id", [], none, none⟩, none,
      [.any ⟨"subject", "subject_type", "subject_id", "string", "long", none⟩,
       .embedded ⟨"origin", "Origin", none⟩,
       .elementCollection ⟨"links", "tag_link", ["tag_id"],
         .any "link_type" "link_id" "string" "long", .bag, none⟩]⟩],
   [⟨"Origin", [.any ⟨"source", "source_type", "source_id", "string", "long", none⟩]⟩]⟩

def allTags : Statement := .select ⟨⟨[⟨⟨"Tag", some "t"⟩, []⟩]⟩, none, none, none⟩

theorem any_mappings_of_tags_refused : ∃ m pass,
    tags.metamodel = .ok m ∧ Step.fromElements m allTags (.start .default) = .ok () pass ∧
    pass.scope.ValuesFail m ⟨"t", ["origin", "source"]⟩
      (.metamodel (.unsupported "Tag.origin.source" .anyLowered)) ∧
    pass.JoinsFail m ⟨"t", ["origin", "source"]⟩
      (.metamodel (.unsupported "Tag.origin.source" .anyJoined)) ∧
    pass.scope.TestsFail m ⟨"t", ["origin", "source", "id"]⟩
      (.metamodel (.unsupported "Tag.origin.source" .anyDereferenced)) ∧
    pass.scope.TestsFail m ⟨"t", ["links"]⟩
      (.metamodel (.unsupported "Tag.links" .anyElements)) := by
  have hrun : (tags.metamodel.toOption.bind fun m =>
      ((do Step.fromElements m allTags; get : Step Pass).run' (.start .default)).bind fun pass =>
      (pass.scope.index.find? "t").bind fun ref =>
      ((m.find (.entity "Tag") "origin").toOption.bind (·.singular?)).bind fun origin =>
      ((m.find (.embeddable "Tag.origin") "source").toOption.bind (·.singular?)).bind fun source =>
      ((m.find (.entity "Tag") "links").toOption.bind (·.plural?)).map fun links =>
        decide (ref.source = .entity "Tag" ∧
          m.find (.entity "Tag") "origin" = .ok (.singular origin) ∧
          origin.kind = .embedded ∧ origin.attributeType = .embeddable "Tag.origin" ∧
          m.find (.embeddable "Tag.origin") "source" = .ok (.singular source) ∧
          source.kind = .any ∧ source.role = "Tag.origin.source" ∧
          m.find (.entity "Tag") "links" = .ok (.plural links) ∧
          links.element.kind = .any ∧ links.role = "Tag.links")) = some true := by
    decide +kernel
  obtain ⟨m, hm, hrun⟩ := Option.bind_eq_some_iff.1 hrun
  obtain ⟨pass, hpass, hrun⟩ := Option.bind_eq_some_iff.1 hrun
  obtain ⟨ref, href, hrun⟩ := Option.bind_eq_some_iff.1 hrun
  obtain ⟨origin, -, hrun⟩ := Option.bind_eq_some_iff.1 hrun
  obtain ⟨source, -, hrun⟩ := Option.bind_eq_some_iff.1 hrun
  obtain ⟨links, -, hrun⟩ := Option.map_eq_some_iff.1 hrun
  obtain ⟨hentity, horigin, hembedded, hleads, hsource, hany, hsourceRole, hlinks, helements,
    hlinksRole⟩ := of_decide_eq_true hrun
  have hm := Except.toOption_eq_some.1 hm
  obtain ⟨_, hpass⟩ := EStateM.exists_ok_of_get hpass
  have harises := Step.fromElements_arise hpass
  have hstart (path : String) : pass.scope.start m ref path = .ok (.entity "Tag", 0) := by
    rw [Scope.start, hentity]
  have henters : m.Enters (.entity "Tag") ["origin"] (.embeddable "Tag.origin") :=
    .through horigin hembedded hleads .here
  have hbuilt := hm
  simp only [Definition.metamodel, Except.bind_eq_ok] at hbuilt
  obtain ⟨_, -, r, hr, hb⟩ := hbuilt
  obtain ⟨hvalues, hjoins, -⟩ := (any_mappings_refused ⟨"t", ["origin", "source"]⟩ hr hb harises
    href (hstart _)).2.1 source ⟨["origin"], "source", _, rfl, henters, hsource, hany⟩
  obtain ⟨-, -, hbeyond⟩ := (any_mappings_refused ⟨"t", ["origin", "source", "id"]⟩ hr hb harises
    href (hstart _)).1 source "id" [] ⟨["origin"], "source", _, rfl, henters, hsource, hany⟩
  obtain ⟨-, htests⟩ := (any_mappings_refused ⟨"t", ["links"]⟩ hr hb harises href (hstart _)).2.2
    links (Metamodel.Ends.attributeOf hlinks).accepts helements
  rw [hsourceRole] at hvalues hjoins hbeyond
  rw [hlinksRole] at htests
  exact ⟨m, pass, hm, hpass, hvalues, hjoins, hbeyond, htests⟩

/-- Tags whose subject is empty. -/
def tagsOfNothing : Statement :=
  .select ⟨⟨[⟨⟨"Tag", some "t"⟩, []⟩]⟩, none, some (.isEmpty ⟨"t", ["subject"]⟩ false), none⟩

/-- The test of a single attribute of any kind fails, but not as unsupported. -/
theorem any_tested_as_collection : ∃ m a, tags.metamodel = .ok m ∧
    m.ReachesAny (.entity "Tag") ["subject"] a [] ∧
    lowerWith .default m tagsOfNothing = .error (.invalidPath "t.subject" .notCollection) := by
  have hrun : (tags.metamodel.toOption.bind fun m =>
      ((m.find (.entity "Tag") "subject").toOption.bind (·.singular?)).map fun a =>
        decide (m.find (.entity "Tag") "subject" = .ok (.singular a) ∧ a.kind = .any ∧
          (match lowerWith .default m tagsOfNothing with
            | .ok _ => none
            | .error e => some e) = some (.invalidPath "t.subject" .notCollection))) =
      some true := by
    decide +kernel
  obtain ⟨m, hm, hrun⟩ := Option.bind_eq_some_iff.1 hrun
  obtain ⟨a, -, hrun⟩ := Option.map_eq_some_iff.1 hrun
  obtain ⟨hfound, hany, hfails⟩ := of_decide_eq_true hrun
  refine ⟨m, a, Except.toOption_eq_some.1 hm, ⟨[], "subject", _, rfl, .here, hfound, hany⟩, ?_⟩
  split at hfails
  · cases hfails
  · rename_i e he
    cases hfails
    exact he

end EntityQuery
