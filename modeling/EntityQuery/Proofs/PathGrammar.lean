import EntityQuery.Proofs.CollectionLowering

/-!
# The grammar of paths

A path leads through embedded attributes, and ends with an attribute of the type it has reached, or
with an association and the identifier of the entity that the association leads to
(`Metamodel.Accepts`). Any other path breaks at some segment behind the embedded ones, and the first
such segment decides how it fails (`Metamodel.Rejects`).

`path_resolution_exact`: over a metamodel that has been built, resolution accepts and rejects just
these paths. It rests on what a build makes of attributes (`Metamodel.Traversable`): their kinds go
with their types, their types are there, and only identifiers are marked as such.
-/

set_option autoImplicit false

namespace EntityQuery

/-! ## Attributes of a built metamodel -/

/-- The kind of an attribute goes with its type: an embedded one leads to an embeddable, one to a
single entity to an entity. -/
structure SingularAttribute.Classified (a : SingularAttribute) : Prop where
  embedded : a.kind = .embedded → ∃ role, a.attributeType = .embeddable role
  toOne : a.kind = .manyToOne ∨ a.kind = .oneToOne → ∃ target, a.attributeType = .entity target

/-- The type is one of the metamodel. -/
def Metamodel.Has (m : Metamodel) : ManagedType → Prop
  | .entity name => ∃ E, m.entity name = .ok E
  | .embeddable role => ∃ e, m.embeddable role = .ok e

/-- What the steps of a path rely on. -/
structure Metamodel.Traversable (m : Metamodel) : Prop where
  classified : ∀ {type name a}, m.find type name = .ok (.singular a) → a.Classified
  resolves : ∀ {type name a}, m.find type name = .ok (.singular a) → m.Resolves a.attributeType
  marked : ∀ {name E next a}, m.entity name = .ok E → E.find? next = some (.singular a) →
    (a.isIdentifier = true ↔ a = E.identifier)

namespace Build

variable {entities : List Entity} {owner : Owner} {am : AttributeMapping} {s : SingularAttribute}
  {r r' : Registry}

theorem attributeOf_classified (h : attributeOf entities owner am r = .ok (.singular s) r') :
    s.Classified := by
  refine ⟨fun hk => ⟨_, (attributeOf_embedded h hk).2⟩, fun hk => ?_⟩
  obtain ⟨target, _, -, -, -, htype, -⟩ := attributeOf_association h hk
  exact ⟨target, htype⟩

/-- Only identifiers are marked as such. -/
theorem attributeOf_unmarked (h : attributeOf entities owner am r = .ok (.singular s) r') :
    s.isIdentifier = false := by
  unfold attributeOf at h
  cases hm : am.mappedType with
  | basic t | any t =>
    rw [hm] at h
    obtain ⟨_, -, _, -, heq⟩ := stored_ok h
    cases heq
    rfl
  | component c =>
    rw [hm] at h
    obtain ⟨_, -, _, _, -, -, heq⟩ := stored_ok h
    cases heq
    rfl
  | association target kind =>
    rw [hm] at h
    obtain ⟨_, -, _, _, -, -, heq⟩ := stored_ok h
    cases heq
    rfl
  | collection c =>
    rw [hm] at h
    obtain ⟨_, -, _, -, heq⟩ := stored_ok h
    cases heq

theorem identifier_classified {p : PendingEntity} (h : identifier p r = .ok s r') :
    s.Classified := by
  obtain ⟨_, _, -, ⟨_, -, -, rfl⟩ | ⟨_, -, -, rfl⟩⟩ := identifier_ok h
  · exact ⟨nofun, by simp⟩
  · exact ⟨fun _ => ⟨_, rfl⟩, by simp⟩

end Build

namespace Registration

variable {r : Registration} {m : Metamodel} {E : Entity} {a : SingularAttribute}

/-- A single attribute of an entity is built from a mapping. -/
theorem build_entity_attribute (h : r.build = .ok m) (hE : E ∈ m.entities)
    (ha : .singular a ∈ E.attributes) :
    ∃ entities owner am before after,
      Build.attributeOf entities owner am before = .ok (.singular a) after := by
  obtain ⟨bare, hbuilt⟩ := build_entities h
  obtain ⟨p, -, hof⟩ := hbuilt.exists_left hE
  obtain ⟨am, -, _, _, hmade, -⟩ := hof.attributes.exists_left ha
  exact ⟨_, _, am, _, _, hmade⟩

theorem build_classified (h : r.build = .ok m) {type : ManagedType} {name : String}
    (ha : m.find type name = .ok (.singular a)) : a.Classified := by
  cases type with
  | entity entity =>
    obtain ⟨E, hE, ⟨hmem, -⟩ | heq⟩ := Metamodel.find_entity_ok ha
    · obtain ⟨_, _, _, _, _, hmade⟩ := build_entity_attribute h (Metamodel.mem_of_entity hE) hmem
      exact Build.attributeOf_classified hmade
    · obtain ⟨bare, hbuilt⟩ := build_entities h
      obtain ⟨p, -, hof⟩ := hbuilt.exists_left (Metamodel.mem_of_entity hE)
      obtain ⟨_, _, hid, -⟩ := hof.identifier
      cases heq
      exact Build.identifier_classified hid
  | embeddable role =>
    obtain ⟨e, he, hmem, -⟩ := Metamodel.find_embeddable ha
    obtain ⟨_, _, _, _, _, _, heq, hmade⟩ := build_singular h he hmem
    cases heq
    exact Build.attributeOf_classified hmade

theorem build_marked (h : r.build = .ok m) {name next : String} (hE : m.entity name = .ok E)
    (ha : E.find? next = some (.singular a)) : a.isIdentifier = true ↔ a = E.identifier := by
  have hmem := Metamodel.mem_of_entity hE
  refine ⟨fun hmarked => ?_, fun heq => heq ▸ (build_identifier h hmem).marked⟩
  obtain ⟨E', hE', ⟨hown, -⟩ | heq⟩ := Metamodel.find_entity_ok (Metamodel.find_entity hE ha)
  · cases hE.symm.trans hE'
    obtain ⟨_, _, _, _, _, hmade⟩ := build_entity_attribute h hmem hown
    rw [Build.attributeOf_unmarked hmade] at hmarked
    cases hmarked
  · cases hE.symm.trans hE'
    exact Attribute.singular.inj heq

theorem build_traversable {ms : List EntityMapping}
    (hr : Registration.empty.registerAll ms = .ok r) (h : r.build = .ok m) : m.Traversable :=
  ⟨build_classified h, fun ha => ((build_complete hr h).attributes ha).type, build_marked h⟩

end Registration

/-! ## The grammar -/

namespace Metamodel

/-- The segments lead from one type to another, through embedded attributes. -/
inductive Enters (m : Metamodel) : ManagedType → List String → ManagedType → Prop
  | here {type : ManagedType} : Enters m type [] type
  | through {type target : ManagedType} {name role : String} {rest : List String}
      {a : SingularAttribute} (found : m.find type name = .ok (.singular a))
      (embedded : a.kind = .embedded) (leads : a.attributeType = .embeddable role)
      (more : Enters m (.embeddable role) rest target) : Enters m type (name :: rest) target

/-- The name is one under which the entity that an association leads to has its identifier. -/
def NamesIdentifier (m : Metamodel) (association : SingularAttribute) (name : String)
    (identifier : SingularAttribute) : Prop :=
  ∃ target E, association.attributeType = .entity target ∧ m.entity target = .ok E ∧
    identifier = E.identifier ∧ E.find? name = some (.singular identifier)

/-- What a path may end with, in the type that it has reached. -/
inductive Ends (m : Metamodel) (type : ManagedType) : List String → PathTarget → Prop
  | attributeOf {name : String} {a : Attribute} (found : m.find type name = .ok a) :
      Ends m type [name] (.attributeOf a)
  | foreignKey {name next : String} {a identifier : SingularAttribute}
      (found : m.find type name = .ok (.singular a))
      (toOne : a.kind = .manyToOne ∨ a.kind = .oneToOne)
      (names : m.NamesIdentifier a next identifier) :
      Ends m type [name, next] (.foreignKey a identifier)

/-- How the rest of a path breaks at its first segment, in the type that it has reached. -/
inductive Breaks (m : Metamodel) (path : String) (type : ManagedType) :
    List String → LoweringError → Prop
  | missing {name : String} {rest : List String} (missing : ∀ a, m.find type name ≠ .ok a) :
      Breaks m path type (name :: rest) (.metamodel (.unknownAttribute type.name name))
  | any {name next : String} {rest : List String} {a : SingularAttribute}
      (found : m.find type name = .ok (.singular a)) (any : a.kind = .any) :
      Breaks m path type (name :: next :: rest) (.metamodel (.unsupported a.role .anyDereferenced))
  | plural {name next : String} {rest : List String} {p : PluralAttribute}
      (found : m.find type name = .ok (.plural p)) :
      Breaks m path type (name :: next :: rest) (.invalidPath path (.collectionDereferenced p.role))
  | basic {name next : String} {rest : List String} {a : SingularAttribute}
      (found : m.find type name = .ok (.singular a)) (basic : a.kind = .basic) :
      Breaks m path type (name :: next :: rest) (.invalidPath path (.basicDereferenced a.role))
  | toOne {name next : String} {rest : List String} {a : SingularAttribute}
      (found : m.find type name = .ok (.singular a))
      (toOne : a.kind = .manyToOne ∨ a.kind = .oneToOne)
      (beyond : rest = [] → ∀ identifier, ¬ m.NamesIdentifier a next identifier) :
      Breaks m path type (name :: next :: rest)
        (.invalidPath path (.associationDereferenced a.role))

/-- The segments are a path from the type to the target. -/
def Accepts (m : Metamodel) (type : ManagedType) (segments : List String) (target : PathTarget) :
    Prop :=
  ∃ embedded last reached, segments = embedded ++ last ∧ m.Enters type embedded reached ∧
    m.Ends reached last target

/-- The segments are no path from the type, for the given reason. -/
def Rejects (m : Metamodel) (path : String) (type : ManagedType) (segments : List String)
    (e : LoweringError) : Prop :=
  segments = [] ∧ e = .invalidPath path .namesNothing ∨
    ∃ embedded last reached, segments = embedded ++ last ∧ m.Enters type embedded reached ∧
      m.Breaks path reached last e

variable {m : Metamodel} {path name : String} {type : ManagedType} {segments : List String}
  {e : LoweringError}

theorem Ends.ne_nil {target : PathTarget} (h : m.Ends type segments target) : segments ≠ [] := by
  cases h <;> nofun

theorem Breaks.ne_nil (h : m.Breaks path type segments e) : segments ≠ [] := by
  cases h <;> nofun

theorem Has.find_missing (h : m.Has type) (hmissing : ∀ a, m.find type name ≠ .ok a) :
    m.find type name = .error (.unknownAttribute type.name name) := by
  cases type with
  | entity entity =>
    obtain ⟨E, hE⟩ := h
    cases hf : E.find? name with
    | some a => exact absurd (find_entity hE hf) (hmissing a)
    | none => simp [find, hE, hf, bind, Except.bind, pure, Except.pure]
  | embeddable role =>
    obtain ⟨e, he⟩ := h
    cases hf : e.find? name with
    | some a =>
      exact absurd (by simp [find, he, hf, bind, Except.bind, pure, Except.pure]) (hmissing a)
    | none => simp [find, he, hf, bind, Except.bind, pure, Except.pure]

/-! ## Following a path -/

theorem lifted_find {a : Attribute} (h : m.find type name = .ok a) :
    (liftM (m.find type name) : Except LoweringError Attribute) = .ok a :=
  lookedUp_of h

/-- Embedded attributes are gone through one by one, as long as more segments follow. -/
theorem Enters.walk {target : ManagedType} (h : m.Enters type segments target) {last : List String}
    (hlast : last ≠ []) : walk m path type (segments ++ last) = walk m path target last := by
  induction h with
  | here => rfl
  | @through _ _ _ _ rest a found embedded leads more ih =>
    obtain ⟨next, tail, hnext⟩ :=
      List.exists_cons_of_ne_nil (List.append_ne_nil_of_right_ne_nil rest hlast)
    rw [← ih, List.cons_append, hnext, EntityQuery.walk]
    simp only [lifted_find found, bind, Except.bind, embedded, leads]

/-- The types that embedded attributes lead to are there. -/
theorem Traversable.has (h : m.Traversable) {target : ManagedType}
    (he : m.Enters type segments target) (ht : m.Has type) : m.Has target := by
  induction he with
  | here => exact ht
  | through found embedded leads more ih =>
    have hresolves := h.resolves found
    rw [leads] at hresolves
    exact ih hresolves

section
variable {a : SingularAttribute} (h : m.Traversable) (hf : m.find type name = .ok (.singular a))
  (hk : a.kind = .manyToOne ∨ a.kind = .oneToOne)
include h hf hk

/-- The identifier of the entity that an association leads to is found under its names only. -/
theorem Traversable.identifierAfter? (next : String) :
    ∃ found, identifierAfter? m a next = .ok found ∧
      ∀ identifier, found = some identifier ↔ m.NamesIdentifier a next identifier := by
  obtain ⟨target, htype⟩ := (h.classified hf).toOne hk
  have hresolves := h.resolves hf
  rw [htype] at hresolves
  obtain ⟨E, hE⟩ := hresolves
  have hnames : ∀ identifier, m.NamesIdentifier a next identifier ↔
      identifier = E.identifier ∧ E.find? next = some (.singular identifier) := by
    intro identifier
    refine ⟨?_, fun hn => ⟨target, E, htype, hE, hn⟩⟩
    rintro ⟨target', E', htype', hE', hn⟩
    cases htype.symm.trans htype'
    cases hE.symm.trans hE'
    exact hn
  simp only [hnames]
  have hlifted : (liftM a.targetName : Except LoweringError String) = .ok target :=
    lookedUp_of (SingularAttribute.targetName_eq_ok.2 htype)
  have hentity : (liftM (m.entity target) : Except LoweringError Entity) = .ok E := lookedUp_of hE
  simp only [EntityQuery.identifierAfter?, hlifted, hentity, bind, Except.bind]
  cases hfind : E.find? next with
  | none => exact ⟨none, rfl, by simp⟩
  | some found =>
    cases found with
    | plural p => exact ⟨none, rfl, by simp⟩
    | singular b =>
      refine ⟨_, rfl, fun identifier => ?_⟩
      have hmarked := h.marked hE hfind
      by_cases hb : b.isIdentifier = true
      · rw [if_pos hb]
        constructor
        · intro heq
          cases heq
          exact ⟨hmarked.1 hb, rfl⟩
        · rintro ⟨-, heq⟩
          cases heq
          rfl
      · rw [if_neg hb]
        constructor
        · intro hnone
          cases hnone
        · rintro ⟨hown, heq⟩
          cases heq
          exact absurd (hmarked.2 hown) hb

/-- Behind an association a path ends with the identifier, or it breaks. -/
theorem Traversable.walk_toOne (path next : String) (rest : List String) :
    ∃ found : Option SingularAttribute,
      (∀ identifier, found = some identifier ↔ rest = [] ∧ m.NamesIdentifier a next identifier) ∧
      walk m path type (name :: next :: rest) = match found with
        | some identifier => .ok (.foreignKey a identifier)
        | none => .error (.invalidPath path (.associationDereferenced a.role)) := by
  obtain ⟨found, hfound, hnames⟩ := h.identifierAfter? hf hk next
  cases rest with
  | nil =>
    refine ⟨found, by simpa using hnames, ?_⟩
    rw [walk]
    rcases hk with hk | hk <;>
      simp only [lifted_find hf, bind, Except.bind, hk, hfound, List.isEmpty, if_true] <;> rfl
  | cons more rest =>
    refine ⟨none, by simp, ?_⟩
    rw [walk]
    rcases hk with hk | hk <;> simp only [lifted_find hf, bind, Except.bind, hk] <;> rfl

end

section
variable (h : m.Traversable)
include h

theorem Traversable.walk_ends {target : PathTarget} (he : m.Ends type segments target) :
    walk m path type segments = .ok target := by
  cases he with
  | attributeOf found => exact Except.bind_eq_ok.2 ⟨_, lookedUp_of found, rfl⟩
  | @foreignKey _ next _ identifier found toOne names =>
    obtain ⟨read, hread, hwalk⟩ := h.walk_toOne found toOne path next []
    rw [hwalk, (hread identifier).2 ⟨rfl, names⟩]

theorem Traversable.walk_breaks (ht : m.Has type) (hb : m.Breaks path type segments e) :
    walk m path type segments = .error e := by
  cases hb with
  | @missing name rest missing =>
    have hfind : (liftM (m.find type name) : Except LoweringError Attribute) =
        .error (.metamodel (.unknownAttribute type.name name)) := by
      change lookedUp (m.find type name) = _
      rw [ht.find_missing missing, lookedUp]
    cases rest <;> simp only [walk, hfind, bind, Except.bind]
  | any found any => simp only [walk, lifted_find found, bind, Except.bind, any]
  | plural found => simp only [walk, lifted_find found, bind, Except.bind]
  | basic found basic => simp only [walk, lifted_find found, bind, Except.bind, basic]
  | @toOne _ next rest _ found toOne beyond =>
    obtain ⟨read, hread, hwalk⟩ := h.walk_toOne found toOne path next rest
    cases read with
    | none => exact hwalk
    | some identifier =>
      obtain ⟨hnil, hnames⟩ := (hread identifier).1 rfl
      exact absurd hnames (beyond hnil identifier)

theorem Traversable.walk_accepts {target : PathTarget} (ha : m.Accepts type segments target) :
    walk m path type segments = .ok target := by
  obtain ⟨_, _, _, rfl, henters, hends⟩ := ha
  rw [henters.walk hends.ne_nil, h.walk_ends hends]

theorem Traversable.walk_rejects (ht : m.Has type) (hr : m.Rejects path type segments e) :
    walk m path type segments = .error e := by
  obtain ⟨rfl, rfl⟩ | ⟨_, _, _, rfl, henters, hbreaks⟩ := hr
  · rfl
  · rw [henters.walk hbreaks.ne_nil, h.walk_breaks (h.has henters ht) hbreaks]

end

/-! ## Every path -/

section
variable {a : SingularAttribute} {role : String} (found : m.find type name = .ok (.singular a))
  (embedded : a.kind = .embedded) (leads : a.attributeType = .embeddable role)
include found embedded leads

theorem Accepts.through {target : PathTarget} (h : m.Accepts (.embeddable role) segments target) :
    m.Accepts type (name :: segments) target := by
  obtain ⟨names, last, reached, rfl, henters, hends⟩ := h
  exact ⟨name :: names, last, reached, rfl, .through found embedded leads henters, hends⟩

theorem Rejects.through (hne : segments ≠ [])
    (h : m.Rejects path (.embeddable role) segments e) :
    m.Rejects path type (name :: segments) e := by
  obtain ⟨hnil, -⟩ | ⟨names, last, reached, rfl, henters, hbreaks⟩ := h
  · exact absurd hnil hne
  · exact .inr ⟨name :: names, last, reached, rfl, .through found embedded leads henters, hbreaks⟩

end

theorem Ends.accepts {target : PathTarget} (h : m.Ends type segments target) :
    m.Accepts type segments target :=
  ⟨[], segments, type, rfl, .here, h⟩

theorem Breaks.rejects (h : m.Breaks path type segments e) : m.Rejects path type segments e :=
  .inr ⟨[], segments, type, rfl, .here, h⟩

/-- The segments are a path, or there is a first one that breaks it. -/
theorem Traversable.accepts_or_rejects (h : m.Traversable) (path : String) :
    ∀ (segments : List String) (type : ManagedType),
      (∃ target, m.Accepts type segments target) ∨ ∃ e, m.Rejects path type segments e
  | [], _ => .inr ⟨_, .inl ⟨rfl, rfl⟩⟩
  | name :: rest, type => by
    match hfound : m.find type name, rest with
    | .error _, _ => exact .inr ⟨_, Breaks.rejects (.missing fun a => by rw [hfound]; nofun)⟩
    | .ok found, [] => exact .inl ⟨_, Ends.accepts (.attributeOf hfound)⟩
    | .ok found, next :: rest =>
      cases found with
      | plural p => exact .inr ⟨_, Breaks.rejects (.plural hfound)⟩
      | singular a =>
        have toOne (hk : a.kind = .manyToOne ∨ a.kind = .oneToOne) :
            (∃ target, m.Accepts type (name :: next :: rest) target) ∨
              ∃ e, m.Rejects path type (name :: next :: rest) e := by
          by_cases hnames : rest = [] ∧ ∃ identifier, m.NamesIdentifier a next identifier
          · obtain ⟨rfl, identifier, hnames⟩ := hnames
            exact .inl ⟨_, Ends.accepts (.foreignKey hfound hk hnames)⟩
          · refine .inr ⟨_, Breaks.rejects (.toOne hfound hk fun hnil identifier hn => ?_)⟩
            exact hnames ⟨hnil, identifier, hn⟩
        cases hk : a.kind with
        | embedded =>
          obtain ⟨role, hleads⟩ := (h.classified hfound).embedded hk
          rcases h.accepts_or_rejects path (next :: rest) (.embeddable role) with ⟨_, ha⟩ | ⟨_, hr⟩
          · exact .inl ⟨_, ha.through hfound hk hleads⟩
          · exact .inr ⟨_, hr.through hfound hk hleads (by simp)⟩
        | manyToOne => exact toOne (.inl hk)
        | oneToOne => exact toOne (.inr hk)
        | any => exact .inr ⟨_, Breaks.rejects (.any hfound hk)⟩
        | basic => exact .inr ⟨_, Breaks.rejects (.basic hfound hk)⟩

section
variable (h : m.Traversable) (ht : m.Has type)
include h ht

theorem Traversable.walk_eq_ok {target : PathTarget} :
    walk m path type segments = .ok target ↔ m.Accepts type segments target := by
  refine ⟨fun hw => ?_, h.walk_accepts⟩
  rcases h.accepts_or_rejects path segments type with ⟨_, ha⟩ | ⟨_, hr⟩
  · cases hw.symm.trans (h.walk_accepts ha)
    exact ha
  · cases hw.symm.trans (h.walk_rejects ht hr)

theorem Traversable.walk_eq_error :
    walk m path type segments = .error e ↔ m.Rejects path type segments e := by
  refine ⟨fun hw => ?_, h.walk_rejects ht⟩
  rcases h.accepts_or_rejects path segments type with ⟨_, ha⟩ | ⟨_, hr⟩
  · cases hw.symm.trans (h.walk_accepts ha)
  · cases hw.symm.trans (h.walk_rejects ht hr)
    exact hr

end

end Metamodel

/-! ## Paths from a from-element -/

/-- The type that a path starts at is there. -/
theorem Scope.Grounded.has {s : Scope} {m : Metamodel} {name path : String} {ref : GroupRef}
    {type : ManagedType} {offset : Nat} (hs : s.Grounded m) (hm : m.Complete)
    (href : s.index.find? name = some ref) (hstart : s.start m ref path = .ok (type, offset)) :
    m.Has type := by
  rcases Scope.start_ok hstart with ⟨_, hsource, rfl, -⟩ | ⟨role, q, -, hq, hcases⟩
  · obtain ⟨g, -, hstands⟩ := hs.group (FromIndex.mem_of_find? href)
    rw [hsource] at hstands
    obtain ⟨E, hE, -⟩ := hstands
    exact ⟨E, hE⟩
  · have hresolves := (hm.collections hq).elementType
    obtain ⟨_, _, -, htype, -, rfl, -⟩ | ⟨_, -, htype, rfl, -⟩ | ⟨_, -, htype, rfl, -⟩ := hcases
    all_goals
      rw [htype] at hresolves
      exact hresolves

section

variable {s : Scope} {m : Metamodel} {path : AttributePath} {ref : GroupRef} {type : ManagedType}
  {offset : Nat} (href : s.index.find? path.start = some ref)
  (hstart : s.start m ref path.dotted = .ok (type, offset))
include href hstart

theorem Scope.resolve_eq : s.resolve m path = do
      let target ← walk m path.dotted type path.segments
      return ⟨path.dotted, ref, target, offset⟩ := by
  simp only [Scope.resolve, FromIndex.resolve_ok.2 href, hstart, bind, Except.bind]

variable (hm : m.Traversable) (ht : m.Has type)
include hm ht

theorem Scope.resolve_eq_ok {x : ResolvedPath} :
    s.resolve m path = .ok x ↔ ∃ target, m.Accepts type path.segments target ∧
      x = ⟨path.dotted, ref, target, offset⟩ := by
  simp only [Scope.resolve_eq href hstart, Except.bind_eq_ok, Except.pure_eq_ok,
    hm.walk_eq_ok ht, @eq_comm _ x]

theorem Scope.resolve_eq_error {e : LoweringError} :
    s.resolve m path = .error e ↔ m.Rejects path.dotted type path.segments e := by
  rw [Scope.resolve_eq href hstart, ← hm.walk_eq_error ht]
  cases walk m path.dotted type path.segments <;> simp [bind, Except.bind, pure, Except.pure]

end

/-- Over a metamodel that has been built, a path from a from-element is resolved just if it leads
through embedded attributes to an attribute, or to an association and the identifier behind it; and
what it is resolved to is what it leads to. If it is no such path, the first segment that breaks it
decides how it fails. -/
theorem path_resolution_exact {ms : List EntityMapping} {r : Registration} {m : Metamodel}
    {settings : Settings} {s : Scope} {ref : GroupRef} {type : ManagedType} {offset : Nat}
    (path : AttributePath) (hr : Registration.empty.registerAll ms = .ok r) (hb : r.build = .ok m)
    (hs : s.Arises m settings) (href : s.index.find? path.start = some ref)
    (hstart : s.start m ref path.dotted = .ok (type, offset)) :
    (∀ x, s.resolve m path = .ok x ↔ ∃ target, m.Accepts type path.segments target ∧
      x = ⟨path.dotted, ref, target, offset⟩) ∧
    ∀ e, s.resolve m path = .error e ↔ m.Rejects path.dotted type path.segments e := by
  have hm := Registration.build_traversable hr hb
  have htype := hs.grounded.has (Registration.build_complete hr hb) href hstart
  exact ⟨fun x => Scope.resolve_eq_ok href hstart hm htype,
    fun e => Scope.resolve_eq_error href hstart hm htype⟩

/-- The order of a parcel can be read off the parcel, but its region only behind a join. -/
theorem parcel_paths_resolve : ∃ r m pass ref x,
    Registration.empty.registerAll parcels = .ok r ∧ r.build = .ok m ∧
    List.forM shipmentsAndParcels.spaces (Step.space m) (.start .default) = .ok () pass ∧
    pass.scope.index.find? "p" = some ref ∧
    pass.scope.resolve m ⟨"p", ["origin", "order", "id"]⟩ = .ok x ∧ x.elementOffset = 1 ∧
    m.Accepts (.entity "Parcel") ["origin", "order", "id"] x.target ∧
    m.Rejects "p.origin.order.key.region" (.entity "Parcel") ["origin", "order", "key", "region"]
      (.invalidPath "p.origin.order.key.region"
        (.associationDereferenced "Parcel.origin.order")) := by
  have hrun : ((Registration.empty.registerAll parcels).toOption.bind fun r =>
      r.build.toOption.bind fun m =>
      ((do List.forM shipmentsAndParcels.spaces (Step.space m); get : Step Pass).run'
        (.start .default)).bind fun pass =>
      (pass.scope.index.find? "p").bind fun ref =>
      (pass.scope.start m ref "p.origin.order.id").toOption.bind fun start =>
      (pass.scope.resolve m ⟨"p", ["origin", "order", "id"]⟩).toOption.map fun x =>
        decide (start = (.entity "Parcel", 1) ∧ x.elementOffset = 1 ∧
          (match pass.scope.resolve m ⟨"p", ["origin", "order", "key", "region"]⟩ with
            | .ok _ => none
            | .error e => some e) = some (.invalidPath "p.origin.order.key.region"
              (.associationDereferenced "Parcel.origin.order")))) = some true := by
    decide +kernel
  obtain ⟨r, hr, hrun⟩ := Option.bind_eq_some_iff.1 hrun
  obtain ⟨m, hm, hrun⟩ := Option.bind_eq_some_iff.1 hrun
  obtain ⟨pass, hpass, hrun⟩ := Option.bind_eq_some_iff.1 hrun
  obtain ⟨ref, href, hrun⟩ := Option.bind_eq_some_iff.1 hrun
  obtain ⟨start, hstart, hrun⟩ := Option.bind_eq_some_iff.1 hrun
  obtain ⟨x, hx, hrun⟩ := Option.map_eq_some_iff.1 hrun
  obtain ⟨rfl, hoffset, hfails⟩ := of_decide_eq_true hrun
  have hr := Except.toOption_eq_some.1 hr
  have hm := Except.toOption_eq_some.1 hm
  have hx := Except.toOption_eq_some.1 hx
  have hstart := Except.toOption_eq_some.1 hstart
  obtain ⟨_, hpass⟩ := EStateM.exists_ok_of_get hpass
  have harises : pass.scope.Arises m .default := ⟨_, _, pass, hpass, rfl, rfl⟩
  obtain ⟨target, haccepts, rfl⟩ := ((path_resolution_exact ⟨"p", ["origin", "order", "id"]⟩ hr hm
    harises href hstart).1 x).1 hx
  refine ⟨r, m, pass, ref, _, hr, hm, hpass, href, hx, hoffset, haccepts, ?_⟩
  split at hfails
  · cases hfails
  · rename_i e he
    cases hfails
    exact ((path_resolution_exact ⟨"p", ["origin", "order", "key", "region"]⟩ hr hm harises href
      (Scope.start_congr hstart)).2 _).1 he

end EntityQuery
