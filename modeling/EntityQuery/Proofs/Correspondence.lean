import EntityQuery.Proofs.FromElements
import EntityQuery.Proofs.TwoRuns
import Mathlib.Logic.Relator

/-!
# From-elements under other names

Two passes over from-elements that range over the same, under names that correspond to each other
one to one, register the same groups (`Step.spaces_agree`). What is reached from a from-element in
one of them is reached from the corresponding one in the other (`Scope.Matches`), and both fail if
one of them does.

The conditions of the joins do not matter there: they are kept for later, each with the place of its
join (`Step.spaces_pending`).
-/

set_option autoImplicit false

namespace EntityQuery

variable {N : String → String → Prop}

/-! ## Alias bases -/

/-- As many alias bases have been drawn, and corresponding names have the same one. -/
structure AliasBases.Matches (N : String → String → Prop) (a b : AliasBases) : Prop where
  stem : a.stem = b.stem
  count : a.count = b.count
  assigned : ∀ {x y}, N x y → a.assigned? x = b.assigned? y

theorem AliasBases.Matches.next {a b : AliasBases} (h : a.Matches N b) :
    a.next.1 = b.next.1 ∧ a.next.2.Matches N b.next.2 := by
  refine ⟨?_, h.stem, congrArg (· + 1) h.count, h.assigned⟩
  simp only [AliasBases.next, h.stem, h.count]

/-- Corresponding names are given the same alias base, whether it is new or not. -/
theorem AliasBases.Matches.baseFor {a b : AliasBases} (hN : Relator.BiUnique N)
    (h : a.Matches N b) {x y : String} (hxy : N x y) :
    (a.baseFor x).1 = (b.baseFor y).1 ∧ (a.baseFor x).2.Matches N (b.baseFor y).2 := by
  have hassigned := h.assigned hxy
  unfold AliasBases.baseFor
  cases hx : a.assigned? x with
  | some base =>
    rw [hx] at hassigned
    rw [← hassigned]
    exact ⟨rfl, h⟩
  | none =>
    rw [hx] at hassigned
    rw [← hassigned]
    obtain ⟨hbase, hnext⟩ := h.next
    refine ⟨hbase, hnext.stem, hnext.count, fun {x' y'} hxy' => ?_⟩
    -- a name is the new one if the name that corresponds to it is
    have hnew : x' = x ↔ y' = y :=
      ⟨fun heq => hN.2 hxy' (heq ▸ hxy), fun heq => hN.1 hxy' (heq ▸ hxy)⟩
    simp only [AliasBases.assigned?, List.lookup_cons, beq_eq_decide, hnew]
    cases decide (y' = y) with
    | true => exact congrArg some hbase
    | false => exact h.assigned hxy'

/-! ## The index -/

/-- The entries of two indexes are the same up to their names, which correspond to each other. -/
def FromIndex.Matches (N : String → String → Prop) (i j : FromIndex) : Prop :=
  ∃ shared : List (String × String × GroupRef), (∀ e ∈ shared, N e.1 e.2.1) ∧
    i.entries.Perm (shared.map fun e => (e.1, e.2.2)) ∧
    j.entries.Perm (shared.map fun e => (e.2.1, e.2.2))

namespace FromIndex

variable {i j : FromIndex} {x y : String}

theorem find?_eq_some {ref : GroupRef} : i.find? x = some ref ↔ (x, ref) ∈ i.entries :=
  ⟨mem_of_find?, fun h => find?_of_mem h⟩

theorem Matches.find? (hN : Relator.BiUnique N) (h : i.Matches N j) (hxy : N x y) :
    i.find? x = j.find? y := by
  obtain ⟨shared, hnames, hi, hj⟩ := h
  apply Option.ext
  intro ref
  rw [find?_eq_some, find?_eq_some, hi.mem_iff, hj.mem_iff]
  simp only [List.mem_map, Prod.mk.injEq]
  constructor
  · rintro ⟨e, he, rfl, rfl⟩
    exact ⟨e, he, hN.2 (hnames e he) hxy, rfl⟩
  · rintro ⟨e, he, rfl, rfl⟩
    exact ⟨e, he, hN.1 (hnames e he) hxy, rfl⟩

theorem Matches.resolve (hN : Relator.BiUnique N) (h : i.Matches N j) (hxy : N x y) :
    Except.Agree Eq (i.resolve x) (j.resolve y) := by
  unfold FromIndex.resolve
  rw [h.find? hN hxy]
  cases j.find? y with
  | none => exact .error
  | some ref => exact .ok rfl

theorem Matches.insert (h : i.Matches N j) (hxy : N x y) (ref : GroupRef)
    (hi : i.find? x = none) (hj : j.find? y = none) :
    (i.insert x ref).Matches N (j.insert y ref) := by
  obtain ⟨shared, hnames, hshared, hshared'⟩ := h
  refine ⟨(x, y, ref) :: shared, List.forall_mem_cons.2 ⟨hxy, hnames⟩, ?_, ?_⟩
  · exact (insertEntry_perm (find?_eq_none.1 hi)).trans (hshared.cons _)
  · exact (insertEntry_perm (find?_eq_none.1 hj)).trans (hshared'.cons _)

/-- Whatever the names, the same groups are referred to. -/
theorem Matches.refs (h : i.Matches N j) :
    (i.entries.map Prod.snd).Perm (j.entries.map Prod.snd) := by
  obtain ⟨shared, -, hi, hj⟩ := h
  have hrefs : (shared.map fun e => (e.1, e.2.2)).map Prod.snd =
      (shared.map fun e => (e.2.1, e.2.2)).map Prod.snd := by
    simp
  exact (hi.map Prod.snd).trans ((List.Perm.of_eq hrefs).trans (hj.map Prod.snd).symm)

/-- Indexes whose names correspond to themselves are the same. -/
theorem Matches.eq (h : i.Matches Eq j) : i = j := by
  obtain ⟨shared, hnames, hi, hj⟩ := h
  have hshared : shared.map (fun e => (e.1, e.2.2)) = shared.map fun e => (e.2.1, e.2.2) :=
    List.map_congr_left fun e he => by rw [hnames e he]
  have hperm : i.entries.Perm j.entries := hi.trans (hshared ▸ hj.symm)
  have hsorted (k : FromIndex) : k.entries.Pairwise (fun e e' => e.1 < e'.1) :=
    (List.pairwise_map (f := Prod.fst)).1 k.sorted
  have hentries : i.entries = j.entries :=
    hperm.eq_of_pairwise (fun e e' _ _ h h' => absurd (String.lt_trans h h') (String.lt_irrefl _))
      (hsorted i) (hsorted j)
  cases i
  cases j
  cases hentries
  rfl

end FromIndex

/-! ## Scopes -/

/-- The same groups, under names that correspond to each other. -/
structure Scope.Matches (N : String → String → Prop) (s t : Scope) : Prop where
  index : s.index.Matches N t.index
  spaces : s.spaces = t.spaces

theorem Scope.Matches.eq {s t : Scope} (h : s.Matches Eq t) : s = t := by
  cases s
  cases t
  cases h.index.eq
  cases h.spaces
  rfl

/-- What the segments of a path reach does not depend on how the path is called in an error. -/
theorem walk_agrees (m : Metamodel) (path path' : String) : ∀ (segments : List String)
    (type : ManagedType),
    Except.Agree Eq (walk m path type segments) (walk m path' type segments)
  | [], _ => .error
  | [_], _ => .refl _
  | name :: next :: rest, type => by
    simp only [walk]
    refine (Except.Agree.refl _).bind fun found _ hfound => ?_
    subst hfound
    cases found with
    | plural p => exact .error
    | singular a =>
      cases hk : a.kind with
      | embedded =>
        simp only [hk]
        cases a.attributeType with
        | embeddable role => exact walk_agrees m path path' (next :: rest) (.embeddable role)
        | _ => exact .error
      | manyToOne | oneToOne =>
        simp only [hk]
        split
        · refine (Except.Agree.refl _).bind fun identifier? _ h => ?_
          subst h
          cases identifier? with
          | none => exact .error
          | some identifier => exact .refl _
        · exact .error
      | any | basic =>
        simp only [hk]
        exact .error

namespace Scope

variable {s t : Scope} {m : Metamodel}

theorem Matches.group (h : s.Matches N t) : s.group = t.group :=
  group_congr (by rw [h.spaces])

theorem Matches.elementValue (h : s.Matches N t) : s.elementValue m = t.elementValue m :=
  elementValue_congr (by rw [h.spaces])

theorem Matches.start (h : s.Matches N t) (ref : GroupRef) (path path' : String) :
    Except.Agree Eq (s.start m ref path) (t.start m ref path') := by
  unfold Scope.start
  cases ref.source with
  | entity name => exact .refl _
  | collection role =>
    refine (Except.Agree.refl _).bind fun p _ hp => ?_
    subst hp
    rw [h.group]
    split
    · exact .refl _
    · exact .refl _
    · exact .refl _
    · exact .error
    · exact .error

/-- Corresponding paths reach the same. -/
theorem Matches.resolve (hN : Relator.BiUnique N) (h : s.Matches N t) {x y : String} (hxy : N x y)
    (segments : List String) :
    Except.Agree (fun r r' => r.ref = r'.ref ∧ r.target = r'.target ∧
        r.elementOffset = r'.elementOffset)
      (s.resolve m ⟨x, segments⟩) (t.resolve m ⟨y, segments⟩) := by
  refine (h.index.resolve hN hxy).bind fun ref _ href => ?_
  subst href
  refine (h.start ref _ _).bind fun start _ hstart => ?_
  subst hstart
  refine (walk_agrees m _ _ segments start.1).bind fun target _ htarget => ?_
  subst htarget
  exact .ok ⟨rfl, rfl, rfl⟩

end Scope

/-! ## From-elements -/

/-- What is joined is the same, reached from corresponding from-elements. -/
inductive JoinSource.Alike (N : String → String → Prop) : JoinSource → JoinSource → Prop
  | entity (name : String) : Alike N (.entity name) (.entity name)
  | attributeOf {x y : String} (start : N x y) (dotted : String) :
      Alike N (.attributeOf x dotted) (.attributeOf y dotted)

/-- The same is joined in the same way, perhaps under another name and condition. -/
structure Join.Alike (N : String → String → Prop) (j k : Join) : Prop where
  joinType : j.joinType = k.joinType
  source : j.source.Alike N k.source
  fetch : j.fetch = k.fetch

/-- From-elements of a space that range over the same. -/
structure Space.Alike (N : String → String → Prop) (s t : Space) : Prop where
  entity : s.root.entity = t.root.entity
  joins : List.Forall₂ (Join.Alike N) s.joins t.joins

theorem Scope.Matches.joinedGroup {s t : Scope} {m : Metamodel} (hN : Relator.BiUnique N)
    (h : s.Matches N t) {source source' : JoinSource} (hs : source.Alike N source')
    (base : String) :
    Except.Agree Eq (s.joinedGroup m source base) (t.joinedGroup m source' base) := by
  cases hs with
  | entity name => exact .refl _
  | attributeOf start dotted =>
    refine (h.resolve hN start _).bind fun r r' hr => ?_
    obtain ⟨href, htarget, hoffset⟩ := hr
    have association (a : SingularAttribute) :
        s.associationGroup m r a base = t.associationGroup m r' a base := by
      simp only [associationGroup, h.group, href, hoffset]
    have plural (p : PluralAttribute) : s.pluralGroup m r p base = t.pluralGroup m r' p base := by
      simp only [pluralGroup, h.elementValue, href]
    rw [htarget]
    split
    · split
      · exact .of_eq (association _)
      · exact .of_eq (association _)
      · exact .error
      · exact .error
      · exact .error
    · exact .of_eq (plural _)
    · exact .error

/-! ## Registration -/

/-- Corresponding amounts have been drawn. -/
structure Supply.Matches (N : String → String → Prop) (s t : Supply) : Prop where
  aliasBases : s.aliasBases.Matches N t.aliasBases
  parameters : s.parameters = t.parameters

/-- Two passes that have registered the same groups under corresponding names, and have from-elements
with corresponding names ahead of them. -/
structure Pass.Matches (N : String → String → Prop) (more more' : List (Option String))
    (p q : Pass) : Prop where
  supply : p.supply.Matches N q.supply
  scope : p.scope.Matches N q.scope
  ahead : List.Forall₂ N (namesFrom p.generated more) (namesFrom q.generated more')

theorem Pass.matches_start (settings : Settings) {more more' : List (Option String)}
    (h : List.Forall₂ N (namesFrom 0 more) (namesFrom 0 more')) :
    (Pass.start settings).Matches N more more' (Pass.start settings) := by
  refine ⟨⟨⟨rfl, rfl, fun _ => rfl⟩, rfl⟩, ⟨⟨[], ?_, ?_, ?_⟩, rfl⟩, h⟩
  · simp
  · exact .refl _
  · exact .refl _

namespace Step

variable {m : Metamodel} {p q : Pass} {more more' : List (Option String)}

theorem aliasFor_agrees {a b : Option String} (h : p.Matches N (a :: more) (b :: more') q) :
    EStateM.Agree (fun x p' y q' => N x y ∧ p'.Matches N more more' q') (aliasFor a p)
      (aliasFor b q) := by
  rw [aliasFor_eq, aliasFor_eq]
  have hahead := h.ahead
  simp only [namesFrom, List.forall₂_cons] at hahead
  exact .ok ⟨hahead.1, h.supply, h.scope, hahead.2⟩

theorem lookup_agrees {α : Type} {f g : Scope → Except LoweringError α}
    (h : p.Matches N more more' q) (hfg : Except.Agree Eq (f p.scope) (g q.scope)) :
    EStateM.Agree (fun a p' b q' => a = b ∧ p'.Matches N more more' q') (lookup f p)
      (lookup g q) := by
  unfold lookup
  generalize f p.scope = x at hfg
  generalize g q.scope = y at hfg
  cases hfg with
  | ok related => exact .ok ⟨related, h⟩
  | error => exact .error

theorem lookup_const_agrees {α : Type} (x : Except LoweringError α)
    (h : p.Matches N more more' q) :
    EStateM.Agree (fun a p' b q' => a = b ∧ p'.Matches N more more' q') (lookup (fun _ => x) p)
      (lookup (fun _ => x) q) :=
  lookup_agrees h (.refl x)

theorem aliasBaseFor_agrees (hN : Relator.BiUnique N) {x y : String} (hxy : N x y)
    (h : p.Matches N more more' q) :
    EStateM.Agree (fun a p' b q' => a = b ∧ p'.Matches N more more' q') (aliasBaseFor x p)
      (aliasBaseFor y q) := by
  obtain ⟨hbase, hbases⟩ := h.supply.aliasBases.baseFor hN hxy
  exact .ok ⟨hbase, ⟨hbases, h.supply.parameters⟩, h.scope, h.ahead⟩

/-- A name is in use when the corresponding one is. -/
theorem register_agrees (hN : Relator.BiUnique N) {x y : String} (hxy : N x y) (ref : GroupRef)
    (h : p.Matches N more more' q) :
    EStateM.Agree (fun _ p' _ q' => p'.Matches N more more' q') (register x ref p)
      (register y ref q) := by
  have hfind := h.scope.index.find? hN hxy
  unfold register FromIndex.add
  cases hy : q.scope.index.find? y with
  | some _ =>
    rw [hfind, hy]
    exact .error
  | none =>
    rw [hy] at hfind
    rw [hfind]
    exact .ok ⟨h.supply, ⟨h.scope.index.insert hxy ref hfind hy, h.scope.spaces⟩, h.ahead⟩

theorem changeSpaces_agrees (f : List Sql.TableSpace → List Sql.TableSpace)
    (h : p.Matches N more more' q) :
    EStateM.Agree (fun _ p' _ q' => p'.Matches N more more' q') (changeSpaces f p)
      (changeSpaces f q) :=
  .ok ⟨h.supply, ⟨h.scope.index, congrArg f h.scope.spaces⟩, h.ahead⟩

theorem openSpace_agrees (h : p.Matches N more more' q) :
    EStateM.Agree (fun a p' b q' => a = b ∧ p'.Matches N more more' q') (openSpace p)
      (openSpace q) := by
  unfold openSpace
  rw [h.scope.spaces]
  split
  · exact .error
  · exact .ok ⟨rfl, h⟩

theorem root_agrees (hN : Relator.BiUnique N) {r r' : Root} (he : r.entity = r'.entity)
    (h : p.Matches N (r.aliasName :: more) (r'.aliasName :: more') q) :
    EStateM.Agree (fun _ p' _ q' => p'.Matches N more more' q') (root m r p) (root m r' q) := by
  unfold root
  refine (aliasFor_agrees h).bind fun x p1 y q1 h1 => ?_
  obtain ⟨hxy, h1⟩ := h1
  rw [he]
  refine (lookup_const_agrees _ h1).bind fun e p2 _ q2 h2 => ?_
  obtain ⟨rfl, h2⟩ := h2
  refine (aliasBaseFor_agrees hN hxy h2).bind fun base p3 _ q3 h3 => ?_
  obtain ⟨rfl, h3⟩ := h3
  refine (lookup_const_agrees _ h3).bind fun group p4 _ q4 h4 => ?_
  obtain ⟨rfl, h4⟩ := h4
  refine EStateM.Agree.get_bind ?_
  rw [h4.scope.spaces]
  exact (register_agrees hN hxy _ h4).bind fun _ _ _ _ h5 => changeSpaces_agrees _ h5

theorem join_agrees (hN : Relator.BiUnique N) {j k : Join} (hjk : j.Alike N k)
    (h : p.Matches N (j.aliasName :: more) (k.aliasName :: more') q) :
    EStateM.Agree (fun _ p' _ q' => p'.Matches N more more' q') (join m j p) (join m k q) := by
  unfold join
  rw [hjk.joinType, hjk.fetch]
  refine (lookup_const_agrees _ h).bind fun joinType p1 _ q1 h1 => ?_
  obtain ⟨rfl, h1⟩ := h1
  refine (openSpace_agrees h1).bind fun space p2 _ q2 h2 => ?_
  obtain ⟨rfl, h2⟩ := h2
  refine (aliasFor_agrees h2).bind fun x p3 y q3 h3 => ?_
  obtain ⟨hxy, h3⟩ := h3
  refine (aliasBaseFor_agrees hN hxy h3).bind fun base p4 _ q4 h4 => ?_
  obtain ⟨rfl, h4⟩ := h4
  refine (lookup_agrees h4 (h4.scope.joinedGroup hN hjk.source base)).bind
    fun joined p5 _ q5 h5 => ?_
  obtain ⟨rfl, h5⟩ := h5
  refine EStateM.Agree.get_bind ?_
  rw [h5.scope.spaces]
  refine (register_agrees hN hxy _ h5).bind fun _ p6 _ q6 h6 => ?_
  refine (changeSpaces_agrees _ h6).bind fun _ p7 _ q7 h7 => ?_
  have hkeep : p7.Matches N more more' q7 := h7
  -- conditions are only kept for later
  cases j.condition <;> cases k.condition <;> exact .ok ⟨hkeep.supply, hkeep.scope, hkeep.ahead⟩

theorem joins_agree (hN : Relator.BiUnique N) {js ks : List Join}
    (hs : List.Forall₂ (Join.Alike N) js ks) :
    ∀ {p q : Pass}, p.Matches N (js.map (·.aliasName) ++ more) (ks.map (·.aliasName) ++ more') q →
      EStateM.Agree (fun _ p' _ q' => p'.Matches N more more' q') (js.forM (join m) p)
        (ks.forM (join m) q) := by
  induction hs with
  | nil => exact fun h => .ok h
  | cons hjk _ ih =>
    intro p q h
    exact (join_agrees hN hjk h).bind fun _ _ _ _ h' => ih h'

theorem space_agrees (hN : Relator.BiUnique N) {s t : Space} (hs : s.Alike N t)
    (h : p.Matches N (s.elements ++ more) (t.elements ++ more') q) :
    EStateM.Agree (fun _ p' _ q' => p'.Matches N more more' q') (space m s p) (space m t q) := by
  rw [space_eq, space_eq]
  exact (root_agrees hN hs.entity h).bind fun _ _ _ _ h' => joins_agree hN hs.joins h'

/-- From-elements that range over the same are registered as the same groups. -/
theorem spaces_agree (hN : Relator.BiUnique N) {ss ts : List Space}
    (hs : List.Forall₂ (Space.Alike N) ss ts) :
    ∀ {p q : Pass}, p.Matches N (ss.flatMap (·.elements)) (ts.flatMap (·.elements)) q →
      EStateM.Agree (fun _ p' _ q' => p'.Matches N [] [] q') (ss.forM (space m) p)
        (ts.forM (space m) q) := by
  induction hs with
  | nil => exact fun h => .ok h
  | cons hst _ ih =>
    intro p q h
    exact (space_agrees hN hst h).bind fun _ _ _ _ h' => ih h'

end Step

/-! ## Conditions that are left for later -/

/-- The conditions of joins, each with its place in the space of the given number. -/
def conditionsOf (space : Nat) (joins : List Join) : List PendingCondition :=
  joins.zipIdx.filterMap fun j => j.1.condition.map (⟨space, j.2, ·⟩)

/-- The conditions of the joins of spaces, in order. -/
def pendingOf (spaces : List Space) : List PendingCondition :=
  spaces.zipIdx.flatMap fun s => conditionsOf s.2 s.1.joins

theorem mem_pendingOf {spaces : List Space} {p : PendingCondition} :
    p ∈ pendingOf spaces ↔ ∃ s j, spaces[p.space]? = some s ∧ s.joins[p.position]? = some j ∧
      j.condition = some p.condition := by
  obtain ⟨space, position, condition⟩ := p
  simp only [pendingOf, conditionsOf, List.mem_flatMap, List.mem_filterMap, Prod.exists,
    List.mem_zipIdx_iff_getElem?, Option.map_eq_some_iff, PendingCondition.mk.injEq]
  constructor
  · rintro ⟨s, _, hs, j, _, hj, _, hc, rfl, rfl, rfl⟩
    exact ⟨s, j, hs, hj, hc⟩
  · rintro ⟨s, j, hs, hj, hc⟩
    exact ⟨s, space, hs, j, position, hj, condition, hc, rfl, rfl, rfl⟩

namespace Step

variable {m : Metamodel} {pass pass' : Pass} {u : Unit}

theorem space_pending {s : Space} (h : space m s pass = .ok u pass') :
    shape pass'.scope.spaces = shape pass.scope.spaces ++ [s.joins.length] ∧
      pass'.pending = pass.pending ++ conditionsOf pass.scope.spaces.length s.joins := by
  obtain ⟨_, p, hroot, hjoins⟩ := space_ok h
  obtain ⟨_, _, _, g, _, -, -, -, -, rfl⟩ := root_ok hroot
  refine EStateM.forM_inv (fun done p =>
      shape p.scope.spaces = shape pass.scope.spaces ++ [done.length] ∧
      p.pending = pass.pending ++ conditionsOf pass.scope.spaces.length done)
    (fun {done j p p' _} hi hj => ?_) (by simp [shape, conditionsOf]) hjoins
  obtain ⟨hshape, hpending⟩ := hi
  obtain ⟨joinType, space, _, _, joined, _, -, hl, -, -, -, rfl⟩ := join_ok hj
  obtain ⟨before, last, hspaces, rfl, hjoined⟩ :=
    joinedOnto_last ⟨joinType, joined.group, joined.predicate, j.fetch⟩ hl
  have hcount : joinCount p.scope.spaces before.length = last.joins.length := by
    simp [joinCount, hspaces]
  rw [hspaces, shape, List.map_append, List.map_singleton] at hshape
  obtain ⟨hbefore, hlast⟩ := List.append_inj' hshape rfl
  have hnumber : before.length = pass.scope.spaces.length := by
    simpa [shape] using congrArg List.length hbefore
  have hposition : last.joins.length = done.length := List.singleton_inj.1 hlast
  rw [hjoined, hcount, hpending, hnumber, hposition]
  constructor
  · simp [shape, hbefore, hposition]
  · cases hc : j.condition <;> simp [conditionsOf, List.zipIdx_append, hc]

/-- The conditions that are left for later are those of the joins, with their places. -/
theorem spaces_pending {spaces : List Space} {settings : Settings}
    (h : spaces.forM (space m) (.start settings) = .ok u pass) :
    pass.pending = pendingOf spaces := by
  obtain ⟨-, hpending⟩ := EStateM.forM_inv
    (fun done p => p.scope.spaces.length = done.length ∧ p.pending = pendingOf done)
    (fun {done s p p' _} hi hs => by
      obtain ⟨hshape, hpending⟩ := space_pending hs
      constructor
      · simpa [shape, hi.1] using congrArg List.length hshape
      · rw [hpending, hi.1, hi.2]
        simp [pendingOf, List.zipIdx_append])
    ⟨rfl, rfl⟩ h
  exact hpending

end Step

end EntityQuery
