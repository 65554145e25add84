import EntityQuery.Proofs.ClauseCases
import EntityQuery.Proofs.Registration

/-!
# Subqueries

A predicate holds a subquery for each test of a collection in it, from left to right, and nothing
else draws on alias bases (`Scope.predicate_answers`). The subquery of a test is over one group,
whose alias base is the next one at that time (`Scope.Answers`).

The predicates that are made to tie groups and tables together hold no subqueries
(`Metamodel.matching_plain`, `Scope.joinedGroup_plain`).
-/

set_option autoImplicit false

namespace EntityQuery

/-! ## Subqueries of lowered statements -/

namespace Sql

namespace Predicate

mutual
/-- The subqueries of a predicate, from left to right. -/
def subqueries : Predicate → List Query
  | .junction _ ps => subqueriesOfAll ps
  | .grouped p => p.subqueries
  | .negated p => p.subqueries
  | .comparison .. => []
  | .between .. => []
  | .like .. => []
  | .nullness .. => []
  | .nonempty q _ => [q]
  | .among _ q _ => [q]
def subqueriesOfAll : List Predicate → List Query
  | [] => []
  | p :: ps => p.subqueries ++ subqueriesOfAll ps
end

/-- The subqueries of a predicate that may be missing. -/
def subqueriesOf (p : Option Predicate) : List Query := p.elim [] subqueries

theorem subqueriesOfAll_eq (ps : List Predicate) : subqueriesOfAll ps = ps.flatMap subqueries := by
  induction ps with
  | nil => rfl
  | cons p ps ih => rw [subqueriesOfAll, ih, List.flatMap_cons]

theorem subqueriesOf_conjunction (ps : List Predicate) :
    subqueriesOf (conjunction ps) = ps.flatMap subqueries := by
  match ps with
  | [] => rfl
  | [p] => simp [conjunction, subqueriesOf]
  | p :: p' :: ps => simp [conjunction, subqueriesOf, subqueries, subqueriesOfAll_eq]

theorem subqueriesOf_equality (lhs rhs : List Expression) :
    subqueriesOf (equality lhs rhs) = [] := by
  rw [equality, subqueriesOf_conjunction, ← List.map_uncurry_zip_eq_zipWith, List.flatMap_eq_nil_iff]
  intro p hp
  obtain ⟨⟨l, r⟩, -, rfl⟩ := List.mem_map.1 hp
  rfl

end Predicate

/-- The subqueries in the conditions between the tables of a group. -/
def TableGroup.subqueries (g : TableGroup) : List Query :=
  g.tableJoins.flatMap fun j => Predicate.subqueriesOf j.predicate

def GroupJoin.subqueries (j : GroupJoin) : List Query :=
  TableGroup.subqueries j.group ++ Predicate.subqueriesOf j.predicate

def TableSpace.subqueries (s : TableSpace) : List Query :=
  TableGroup.subqueries s.root ++ s.joins.flatMap GroupJoin.subqueries

/-- The subqueries of a from clause, in the order of its spaces and joins. -/
def FromClause.subqueries (f : FromClause) : List Query := f.spaces.flatMap TableSpace.subqueries

/-- The subqueries of a query: those of its from clause, then those of its condition. -/
def Query.subqueries (q : Query) : List Query :=
  FromClause.subqueries q.fromClause ++ Predicate.subqueriesOf q.predicate

/-- The subqueries of a statement: those of its from clause, then those of its condition. -/
def Statement.subqueries (s : Statement) : List Query :=
  FromClause.subqueries s.fromClause ++ Predicate.subqueriesOf s.predicate

end Sql

/-! ## Groups and their ties hold no subqueries -/

namespace Metamodel

variable {m : Metamodel} {base : String} {g : Sql.TableGroup}

theorem entityGroup_plain {e : Entity} (h : m.entityGroup e base = .ok g) :
    Sql.TableGroup.subqueries g = [] := by
  rw [Sql.TableGroup.subqueries, List.flatMap_eq_nil_iff]
  intro j hj
  rw [((entityGroup_ok h).2.2.2 j hj).2]
  rfl

theorem linkGroup_plain {p : PluralAttribute} {link : TableId} {e : Entity}
    (h : m.linkGroup p link e base = .ok g) : Sql.TableGroup.subqueries g = [] := by
  rw [Sql.TableGroup.subqueries, List.flatMap_eq_nil_iff]
  intro j hj
  cases hp : j.predicate with
  | none => rfl
  | some q =>
    obtain ⟨lhs, rhs, hq⟩ := (linkGroup_ok h).2.2.2 j hj q hp
    rw [← hq]
    exact Sql.Predicate.subqueriesOf_equality lhs rhs

theorem collectionGroup_plain {p : PluralAttribute} (h : m.collectionGroup p base = .ok g) :
    Sql.TableGroup.subqueries g = [] := by
  obtain ⟨-, e, -, hg⟩ | ⟨-, link, e, -, -, hg⟩ | ⟨-, table, root, -, -, rfl⟩ := collectionGroup_ok h
  · exact entityGroup_plain hg
  · exact linkGroup_plain hg
  · rfl

theorem matching_plain {role : String} {lhs rhs : Sql.Expression} {p : Option Sql.Predicate}
    (h : matching role lhs rhs = .ok p) : Sql.Predicate.subqueriesOf p = [] := by
  unfold matching at h
  split at h
  · cases h
    exact Sql.Predicate.subqueriesOf_equality _ _
  · cases h

theorem keyPredicate_plain {p : PluralAttribute} {owner : Sql.Expression}
    {predicate : Option Sql.Predicate} (h : m.keyPredicate p g owner = .ok predicate) :
    Sql.Predicate.subqueriesOf predicate = [] := by
  simp only [keyPredicate, Except.bind_eq_ok] at h
  obtain ⟨key, -, hp⟩ := h
  exact matching_plain hp

end Metamodel

/-- Neither a joined group nor what ties it to the groups before it holds a subquery. -/
theorem Scope.joinedGroup_plain {s : Scope} {m : Metamodel} {source : JoinSource} {base : String}
    {joined : JoinedGroup} (h : s.joinedGroup m source base = .ok joined) :
    Sql.TableGroup.subqueries joined.group = [] ∧
      Sql.Predicate.subqueriesOf joined.predicate = [] := by
  have association {r : ResolvedPath} {a : SingularAttribute}
      (h : s.associationGroup m r a base = .ok joined) :
      Sql.TableGroup.subqueries joined.group = [] ∧
        Sql.Predicate.subqueriesOf joined.predicate = [] := by
    simp only [associationGroup, Except.bind_eq_ok, Except.pure_eq_ok] at h
    obtain ⟨name, -, target, -, group, hg, owner, -, lhs, -, rhs, -, predicate, hp, rfl⟩ := h
    exact ⟨Metamodel.entityGroup_plain (lookedUp_ok hg), Metamodel.matching_plain (lookedUp_ok hp)⟩
  cases source with
  | entity name =>
    simp only [joinedGroup, Except.bind_eq_ok, Except.pure_eq_ok] at h
    obtain ⟨e, -, group, hg, rfl⟩ := h
    exact ⟨Metamodel.entityGroup_plain (lookedUp_ok hg), rfl⟩
  | attributeOf start dotted =>
    simp only [joinedGroup, attributeGroup, Except.bind_eq_ok] at h
    obtain ⟨r, -, h⟩ := h
    split at h
    · split at h
      · exact association h
      · exact association h
      · cases h
      · cases h
      · cases h
    · simp only [pluralGroup, Except.bind_eq_ok, Except.pure_eq_ok] at h
      obtain ⟨group, hg, owner, -, predicate, hp, rfl⟩ := h
      exact ⟨Metamodel.collectionGroup_plain (lookedUp_ok hg),
        Metamodel.keyPredicate_plain (lookedUp_ok hp)⟩
    · cases h

/-! ## Tests of collections -/

/-- A test whether a collection is empty or has a given member, by what its subquery selects. -/
structure CollectionTest where
  collection : AttributePath
  selected : Selected

/-- The tests of collections in a predicate, from left to right. -/
def Predicate.tests : Predicate → List CollectionTest
  | .grouped p => p.tests
  | .and l r => l.tests ++ r.tests
  | .or l r => l.tests ++ r.tests
  | .negated p => p.tests
  | .relational .. => []
  | .isNull .. => []
  | .isEmpty collection _ => [⟨collection, .key⟩]
  | .between .. => []
  | .like .. => []
  | .memberOf _ collection _ => [⟨collection, .element⟩]

/-- The tests of collections in a predicate that may be missing. -/
def testsOf (p : Option Predicate) : List CollectionTest := p.elim [] Predicate.tests

namespace Scope

/-- The subquery over the tested collection, with a group of the given alias base. -/
def Opens (s : Scope) (m : Metamodel) (test : CollectionTest) (base : String) (q : Sql.Query) :
    Prop :=
  ∃ p owner, s.owned m test.collection = .ok (p, owner) ∧
    collectionQuery m p owner test.selected base = .ok q

/-- Tests are answered by subqueries, one each and in order, under alias bases that are drawn one
after the other. -/
inductive Answers (s : Scope) (m : Metamodel) :
    AliasBases → List CollectionTest → List Sql.Query → AliasBases → Prop
  | nil (bases : AliasBases) : Answers s m bases [] [] bases
  | cons {bases bases' : AliasBases} {test : CollectionTest} {tests : List CollectionTest}
      {q : Sql.Query} {qs : List Sql.Query} (first : s.Opens m test bases.next.1 q)
      (rest : Answers s m bases.next.2 tests qs bases') :
      Answers s m bases (test :: tests) (q :: qs) bases'

variable {s : Scope} {m : Metamodel} {supply supply' : Supply}

theorem Answers.append {b1 b2 b3 : AliasBases} {ts ts' : List CollectionTest}
    {qs qs' : List Sql.Query} (h : s.Answers m b1 ts qs b2) (h' : s.Answers m b2 ts' qs' b3) :
    s.Answers m b1 (ts ++ ts') (qs ++ qs') b3 := by
  induction h with
  | nil => exact h'
  | cons first _ ih => exact .cons first (ih h')

/-- Expressions draw on no alias bases. -/
theorem expressions_keep_bases : s.ExpressionCases m
    (fun _ supply _ supply' => supply'.aliasBases = supply.aliasBases)
    (fun _ supply _ supply' => supply'.aliasBases = supply.aliasBases) where
  parameter hp := by
    cases hp
    rfl
  entityType _ := rfl
  unary ih := ih
  path _ := rfl
  element _ _ := rfl
  function ih := ih
  literal := rfl
  concatenation ihl ihr := ihr.trans ihl
  enumConstant := rfl
  fieldConstant := rfl
  arithmetic ihl ihr := ihr.trans ihl
  nil := rfl
  cons ih ihs := ihs.trans ih

theorem expression_keeps {e : Expression} {v : Sql.Expression}
    (h : s.expression m e supply = .ok v supply') : supply'.aliasBases = supply.aliasBases :=
  expressions_keep_bases.expression h

theorem subquery_opens {collection : AttributePath} {selected : Selected} {q : Sql.Query}
    (h : s.subquery m collection selected supply = .ok q supply') :
    s.Answers m supply.aliasBases [⟨collection, selected⟩] [q] supply'.aliasBases := by
  simp only [subquery, EStateM.bind_eq_ok] at h
  obtain ⟨⟨p, owner⟩, _, ho, base, _, hb, hq⟩ := h
  obtain ⟨howned, rfl⟩ := settled_ok.1 ho
  cases hb
  obtain ⟨hquery, rfl⟩ := settled_ok.1 hq
  exact .cons ⟨p, owner, howned, lookedUp_ok hquery⟩ (.nil _)

theorem predicates_answer : s.PredicateCases m fun p supply q supply' =>
    s.Answers m supply.aliasBases p.tests q.subqueries supply'.aliasBases where
  grouped ih := by simpa only [Predicate.tests, Sql.Predicate.subqueries] using ih
  and ihl ihr := by
    simpa [Predicate.tests, Sql.Predicate.subqueries, Sql.Predicate.subqueriesOfAll] using
      ihl.append ihr
  or ihl ihr := by
    simpa [Predicate.tests, Sql.Predicate.subqueries, Sql.Predicate.subqueriesOfAll] using
      ihl.append ihr
  negated ih := by simpa only [Predicate.tests, Sql.Predicate.subqueries] using ih
  relational hl hr := by
    rw [expression_keeps hr, expression_keeps hl]
    exact .nil _
  isNull hv := by
    rw [expression_keeps hv]
    exact .nil _
  isEmpty hq := subquery_opens hq
  between hs hl hu := by
    rw [expression_keeps hu, expression_keeps hl, expression_keeps hs]
    exact .nil _
  like hs hp := by
    rw [expression_keeps hp, expression_keeps hs]
    exact .nil _
  likeEscaping hs hp he := by
    rw [expression_keeps he, expression_keeps hp, expression_keeps hs]
    exact .nil _
  memberOf hv hq := by
    rw [← expression_keeps hv]
    exact subquery_opens hq

/-- A predicate holds the subqueries of its tests, and draws on alias bases for nothing else. -/
theorem predicate_answers {p : Predicate} {q : Sql.Predicate}
    (h : s.predicate m p supply = .ok q supply') :
    s.Answers m supply.aliasBases p.tests q.subqueries supply'.aliasBases :=
  predicates_answer.predicate h

theorem condition_answers {p : Option Predicate} {q : Option Sql.Predicate}
    (h : s.condition m p supply = .ok q supply') :
    s.Answers m supply.aliasBases (testsOf p) (Sql.Predicate.subqueriesOf q)
      supply'.aliasBases := by
  obtain ⟨rfl, rfl, rfl⟩ | ⟨p, q, rfl, rfl, hp⟩ := condition_ok h
  · exact .nil _
  · exact predicate_answers hp

/-! ## Selections and assignments -/

theorem items_keep_bases : s.ItemCases m fun _ supply _ supply' =>
    supply'.aliasBases = supply.aliasBases where
  nil := rfl
  expression hv ih := ih.trans (expression_keeps hv)
  instantiation iha ih := ih.trans iha

theorem assignments_keep {es : List Assignment} {vs : List Sql.Assignment}
    (h : es.mapM (s.assignment m) supply = .ok vs supply') :
    supply'.aliasBases = supply.aliasBases := by
  refine EStateM.mapM_cases (P := fun _ supply _ supply' =>
    supply'.aliasBases = supply.aliasBases) rfl (fun ha ih => ?_) h
  obtain ⟨_, -, -, hv⟩ := assignment_ok ha
  exact ih.trans (expression_keeps hv)

/-- What comes between from-elements and condition draws on no alias bases. -/
theorem values_keep {statement : Statement} {u : Unit}
    (h : s.values m statement supply = .ok u supply') :
    supply'.aliasBases = supply.aliasBases := by
  cases statement with
  | select q =>
    simp only [values, EStateM.bind_eq_ok, EStateM.pure_eq_ok] at h
    obtain ⟨_, _, hs, -, rfl⟩ := h
    cases hc : q.select with
    | none =>
      rw [hc] at hs
      obtain ⟨_, _, -, -, rfl⟩ := selected_none hs
      rfl
    | some c =>
      rw [hc] at hs
      exact items_keep_bases.items (selected_some hs).2
  | update x =>
    simp only [values, EStateM.bind_eq_ok, EStateM.pure_eq_ok] at h
    obtain ⟨_, _, ha, -, rfl⟩ := h
    exact assignments_keep ha
  | delete x =>
    simp only [values, EStateM.pure_eq_ok] at h
    rw [h.2]

end Scope

/-! ## The groups of subqueries -/

/-- A subquery over a collection: its one group, tied to the owner, and what it selects. -/
theorem collectionQuery_parts {m : Metamodel} {p : PluralAttribute} {owner : Sql.Expression}
    {selected : Selected} {base : String} {q : Sql.Query}
    (h : collectionQuery m p owner selected base = .ok q) :
    ∃ g predicate value, m.collectionGroup p base = .ok g ∧
      m.keyPredicate p g owner = .ok predicate ∧
      (match selected with
        | .key => m.keyValue p g
        | .element => m.elementValue p g) = .ok value ∧
      q = ⟨false, [⟨.expression value, none⟩], ⟨[⟨g, []⟩]⟩, predicate, []⟩ := by
  simp only [collectionQuery, Except.bind_eq_ok] at h
  obtain ⟨g, hg, predicate, hp, h⟩ := h
  cases selected with
  | key | element =>
    simp only [Except.bind_eq_ok, Except.pure_eq_ok] at h
    obtain ⟨value, hv, rfl⟩ := h
    exact ⟨g, predicate, value, hg, hp, hv, rfl⟩

theorem collectionQuery_ok {m : Metamodel} {p : PluralAttribute} {owner : Sql.Expression}
    {selected : Selected} {base : String} {q : Sql.Query}
    (h : collectionQuery m p owner selected base = .ok q) :
    ∃ g ids, q.fromClause.groups = [g] ∧ m.Covers base ids g ∧ Sql.Query.subqueries q = [] := by
  obtain ⟨g, predicate, value, hg, hp, -, rfl⟩ := collectionQuery_parts h
  obtain ⟨ids, hc⟩ := Metamodel.collectionGroup_covers hg
  refine ⟨g, ids, rfl, hc, ?_⟩
  simp [Sql.Query.subqueries, Sql.FromClause.subqueries, Sql.TableSpace.subqueries,
    Metamodel.collectionGroup_plain hg, Metamodel.keyPredicate_plain hp]

namespace Scope

variable {s : Scope} {m : Metamodel}

/-- Each subquery of a test has one group, and these are numbered in order behind the alias bases
that were drawn before. -/
theorem Answers.groups {bases bases' : AliasBases} {ts : List CollectionTest} {qs : List Sql.Query}
    (h : s.Answers m bases ts qs bases') :
    ∃ gs, qs.map (·.fromClause.groups) = gs.map ([·]) ∧
      List.Forall₂ (m.Numbered bases.stem) gs (List.range' (bases.count + 1) ts.length) := by
  induction h with
  | nil => exact ⟨[], rfl, .nil⟩
  | cons first _ ih =>
    obtain ⟨p, owner, -, hq⟩ := first
    obtain ⟨g, ids, hg, hc, -⟩ := collectionQuery_ok hq
    obtain ⟨gs, hgs, hnumbered⟩ := ih
    refine ⟨g :: gs, by simp [hg, hgs], ?_⟩
    rw [List.length_cons, List.range'_succ]
    exact .cons ⟨ids, hc⟩ hnumbered

theorem Answers.plain {bases bases' : AliasBases} {ts : List CollectionTest} {qs : List Sql.Query}
    (h : s.Answers m bases ts qs bases') : ∀ q ∈ qs, Sql.Query.subqueries q = [] := by
  induction h with
  | nil => simp
  | cons first _ ih =>
    obtain ⟨p, owner, -, hq⟩ := first
    obtain ⟨g, ids, -, -, hplain⟩ := collectionQuery_ok hq
    exact List.forall_mem_cons.2 ⟨hplain, ih⟩

/-- Each test has its subquery at the same place, under the alias base of that place. -/
theorem Answers.opens {bases bases' : AliasBases} {ts : List CollectionTest} {qs : List Sql.Query}
    (h : s.Answers m bases ts qs bases') {k : Nat} {test : CollectionTest} (ht : ts[k]? = some test) :
    ∃ q, qs[k]? = some q ∧ s.Opens m test (AliasBases.base bases.stem (bases.count + k + 1)) q := by
  induction h generalizing k with
  | nil => simp at ht
  | @cons bases _ _ _ q _ first _ ih =>
    cases k with
    | zero =>
      cases ht
      exact ⟨q, rfl, first⟩
    | succ k =>
      obtain ⟨q', hq, ho⟩ := ih (by simpa using ht)
      refine ⟨q', by simpa using hq, ?_⟩
      simpa only [AliasBases.next, Nat.add_assoc, Nat.add_comm, Nat.add_left_comm] using ho

/-- Each test has its own subquery. -/
theorem Answers.forall₂ {bases bases' : AliasBases} {ts : List CollectionTest} {qs : List Sql.Query}
    (h : s.Answers m bases ts qs bases') :
    List.Forall₂ (fun t q => ∃ base, s.Opens m t base q) ts qs := by
  induction h with
  | nil => exact .nil
  | cons first _ ih => exact .cons ⟨_, first⟩ ih

/-- What a path owns depends on the index and the groups only. -/
theorem owned_congr {t : Scope} (hi : s.index = t.index)
    (hg : groupAt? s.spaces = groupAt? t.spaces) (path : AttributePath) :
    s.owned m path = t.owned m path := by
  have hgroup : s.group = t.group := by
    funext ref
    simp only [group, hg]
  have hvalue : s.elementValue m = t.elementValue m := by
    funext ref
    simp only [elementValue, hgroup]
  simp only [owned, resolve, start, hi, hgroup, hvalue]

theorem Answers.congr {t : Scope} (hi : s.index = t.index)
    (hg : groupAt? s.spaces = groupAt? t.spaces) {bases bases' : AliasBases}
    {ts : List CollectionTest} {qs : List Sql.Query} (h : s.Answers m bases ts qs bases') :
    t.Answers m bases ts qs bases' := by
  induction h with
  | nil => exact .nil _
  | cons first _ ih =>
    obtain ⟨p, owner, ho, hq⟩ := first
    exact .cons ⟨p, owner, (owned_congr hi hg _).symm.trans ho, hq⟩ ih

end Scope

end EntityQuery
