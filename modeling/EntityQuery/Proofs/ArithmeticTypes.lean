import EntityQuery.Proofs.ClausePairs
import EntityQuery.Proofs.Registration

/-!
# Types of arithmetic

The type of arithmetic on numbers is found from the bottom of an expression to its top, one operator
at a time. `arithmetic_typed_by_operands`: it is that of the operands alone, whatever the operators,
their nesting and the order of the operands.

`BasicType.combined` says what operands of given types give together. `arithmeticType_combined` is the
step at one operator and `ArithmeticTree.lowered` the induction over a tree. What the type of one
operand is does not depend on where it stands (`Scope.expression_typed`): only the places of parameters
do.
-/

set_option autoImplicit false

namespace EntityQuery

/-! ## The order of numeric kinds -/

namespace ValueType

/-- The numeric kinds, those that arithmetic prefers first. -/
def numerics : List ValueType :=
  [.bigDecimal, .double, .float, .bigInteger, .long, .integer, .short, .byte]

/-- The one of several kinds that arithmetic prefers. -/
def preferred (kinds : List ValueType) : Option ValueType := numerics.find? (· ∈ kinds)

theorem mem_numerics {t : ValueType} : t ∈ numerics ↔ t.isNumeric := by
  cases t <;> simp [numerics, isNumeric, rank]

theorem numerics_sorted : numerics.Pairwise fun t u => u.rank.getD 0 < t.rank.getD 0 := by decide

theorem preferred_eq_some_iff {kinds : List ValueType} {k : ValueType} :
    preferred kinds = some k ↔
      k ∈ kinds ∧ k.isNumeric ∧ ∀ l ∈ kinds, l.rank.getD 0 ≤ k.rank.getD 0 := by
  have hsorted := numerics_sorted
  constructor
  · intro h
    obtain ⟨hk, before, after, heq, hbefore⟩ := List.find?_eq_some_iff_append.1 h
    rw [heq, List.pairwise_append, List.pairwise_cons] at hsorted
    obtain ⟨-, ⟨hafter, -⟩, -⟩ := hsorted
    refine ⟨by simpa using hk, mem_numerics.1 (by simp [heq]), fun l hl => ?_⟩
    by_cases hnumeric : l.isNumeric
    · have hmem := mem_numerics.2 hnumeric
      rw [heq, List.mem_append, List.mem_cons] at hmem
      rcases hmem with hmem | rfl | hmem
      · have hnot := hbefore l hmem
        simp [hl] at hnot
      · exact Nat.le_refl _
      · exact Nat.le_of_lt (hafter l hmem)
    · have hnone : l.rank = none := by simpa [isNumeric] using hnumeric
      simp [hnone]
  · rintro ⟨hk, hnumeric, hmax⟩
    obtain ⟨before, after, heq⟩ := List.append_of_mem (mem_numerics.2 hnumeric)
    refine List.find?_eq_some_iff_append.2 ⟨by simpa using hk, before, after, heq, ?_⟩
    intro l hl
    rw [heq, List.pairwise_append] at hsorted
    have hlt := hsorted.2.2 l hl k List.mem_cons_self
    by_cases hmem : l ∈ kinds
    · have hle := hmax l hmem
      omega
    · simpa using hmem

theorem preferred_perm {kinds others : List ValueType} (h : kinds.Perm others) :
    preferred kinds = preferred others := by
  have hmem : (fun t => decide (t ∈ kinds)) = fun t => decide (t ∈ others) := by
    funext t
    simp only [h.mem_iff]
  rw [preferred, preferred, hmem]

theorem exists_preferred {kinds : List ValueType} (hkinds : kinds ≠ [])
    (hnumeric : ∀ k ∈ kinds, k.isNumeric) : ∃ k, preferred kinds = some k := by
  obtain ⟨k, hk⟩ := List.exists_mem_of_ne_nil kinds hkinds
  rw [← Option.isSome_iff_exists, preferred, List.find?_isSome]
  exact ⟨k, mem_numerics.2 (hnumeric k hk), by simpa using hk⟩

theorem preferred_append {kinds others : List ValueType} {k l : ValueType}
    (hk : preferred kinds = some k) (hl : preferred others = some l) :
    preferred (kinds ++ others) = some (if k.rank.getD 0 < l.rank.getD 0 then l else k) := by
  obtain ⟨hkmem, hknumeric, hkmax⟩ := preferred_eq_some_iff.1 hk
  obtain ⟨hlmem, hlnumeric, hlmax⟩ := preferred_eq_some_iff.1 hl
  rw [preferred_eq_some_iff]
  split
  · refine ⟨List.mem_append_right _ hlmem, hlnumeric, fun t ht => ?_⟩
    rcases List.mem_append.1 ht with ht | ht
    · have hle := hkmax t ht
      omega
    · exact hlmax t ht
  · refine ⟨List.mem_append_left _ hkmem, hknumeric, fun t ht => ?_⟩
    rcases List.mem_append.1 ht with ht | ht
    · exact hkmax t ht
    · have hle := hlmax t ht
      omega

end ValueType

/-! ## What types give together -/

namespace BasicType

theorem promote_eq {l r : BasicType} (hl : l.valueType.isNumeric) (hr : r.valueType.isNumeric) :
    promote l r = standard
      (if l.valueType.rank.getD 0 < r.valueType.rank.getD 0 then r.valueType else l.valueType) := by
  obtain ⟨n, hn⟩ := Option.isSome_iff_exists.1 hl
  obtain ⟨k, hk⟩ := Option.isSome_iff_exists.1 hr
  simp only [promote, hn, hk, Option.getD_some]
  split <;> rfl

/-- The type of arithmetic on operands of the given types: none without operands, that of a single
operand, and otherwise the standard type of the preferred kind. -/
def combined : List BasicType → Option BasicType
  | [] => none
  | [b] => some b
  | bs => (ValueType.preferred (bs.map (·.valueType))).map standard

variable {bs cs : List BasicType}

theorem combined_of_two (h : 2 ≤ bs.length) :
    combined bs = (ValueType.preferred (bs.map (·.valueType))).map standard := by
  match bs, h with
  | _ :: _ :: _, _ => rfl

/-- The kind of what numeric operands give is the preferred one. -/
theorem combined_valueType (hnumeric : ∀ b ∈ bs, b.valueType.isNumeric) :
    (combined bs).map (·.valueType) = ValueType.preferred (bs.map (·.valueType)) := by
  match bs, hnumeric with
  | [], _ => rfl
  | [b], hnumeric =>
    symm
    rw [combined, Option.map_some, List.map_singleton, ValueType.preferred_eq_some_iff]
    exact ⟨List.mem_cons_self, hnumeric b List.mem_cons_self, by simp⟩
  | b :: c :: rest, _ =>
    rw [combined_of_two (by simp), Option.map_map]
    exact Option.map_id'

theorem exists_combined (hbs : bs ≠ []) (hnumeric : ∀ b ∈ bs, b.valueType.isNumeric) :
    ∃ b, combined bs = some b ∧ ValueType.preferred (bs.map (·.valueType)) = some b.valueType := by
  have hkinds : bs.map (·.valueType) ≠ [] := by simpa using hbs
  obtain ⟨k, hk⟩ := ValueType.exists_preferred hkinds (by simpa using hnumeric)
  have hkind := combined_valueType hnumeric
  rw [hk] at hkind ⊢
  obtain ⟨b, hb, rfl⟩ := Option.map_eq_some_iff.1 hkind
  exact ⟨b, hb, rfl⟩

theorem combined_eq_none_iff (hnumeric : ∀ b ∈ bs, b.valueType.isNumeric) :
    combined bs = none ↔ bs = [] := by
  constructor
  · intro hnone
    by_contra hne
    obtain ⟨b, hb, -⟩ := exists_combined hne hnumeric
    cases hnone.symm.trans hb
  · rintro rfl
    rfl

/-- Two or more operands give the standard type of its kind. -/
theorem combined_standard {b : BasicType} (h : 2 ≤ bs.length) (hb : combined bs = some b) :
    b = standard b.valueType := by
  rw [combined_of_two h, Option.map_eq_some_iff] at hb
  obtain ⟨k, -, rfl⟩ := hb
  rfl

end BasicType

/-- The operands of an arithmetic operator give together what those on both of its sides give. -/
theorem arithmeticType_combined {bs cs : List BasicType}
    (hbs : ∀ b ∈ bs, b.valueType.isNumeric) (hcs : ∀ c ∈ cs, c.valueType.isNumeric) :
    arithmeticType ((BasicType.combined bs).map .basic) ((BasicType.combined cs).map .basic) =
      (BasicType.combined (bs ++ cs)).map .basic := by
  by_cases hb : bs = []
  · subst hb
    rw [List.nil_append]
    cases BasicType.combined cs <;> rfl
  by_cases hc : cs = []
  · subst hc
    rw [List.append_nil]
    cases BasicType.combined bs <;> rfl
  obtain ⟨b, hcombined, hpreferred⟩ := BasicType.exists_combined hb hbs
  obtain ⟨c, hcombined', hpreferred'⟩ := BasicType.exists_combined hc hcs
  have htwo : 2 ≤ (bs ++ cs).length := by
    have := List.length_pos_iff.2 hb
    have := List.length_pos_iff.2 hc
    rw [List.length_append]
    omega
  have hbnumeric := (ValueType.preferred_eq_some_iff.1 hpreferred).2.1
  have hcnumeric := (ValueType.preferred_eq_some_iff.1 hpreferred').2.1
  rw [hcombined, hcombined', BasicType.combined_of_two htwo, List.map_append,
    ValueType.preferred_append hpreferred hpreferred']
  simp only [Option.map_some, arithmeticType, BasicType.promote_eq hbnumeric hcnumeric]

/-! ## Types do not depend on the supply -/

namespace Scope

variable {s : Scope} {m : Metamodel}

/-- From any two supplies an expression fails twice, or has two values of the same type. -/
theorem types_paired : ExpressionPairs (fun _ _ => True) (fun _ _ => True) (fun _ => True) id m s s
    fun v w => v.type = w.type where
  parameter _ _ := ⟨fun _ => .ok ⟨rfl, trivial⟩⟩
  entityType _ := (settled_coupled (.of_eq (fun _ => trivial) rfl)).imp fun _ _ h => by rw [h]
  unary h := h
  path _ := (settled_coupled (.of_eq (fun _ => trivial) rfl)).imp fun _ _ h => by rw [h]
  element _ := (settled_coupled (.of_eq (fun _ => trivial) rfl)).imp fun _ _ h => by rw [h]
  function h := congrArg (fun types => _ <|> resultType _ types) (List.Forall₂.map_eq h)
  literal _ := rfl
  concatenation h _ := congrArg (_ <|> ·) h
  enumConstant _ _ := rfl
  arithmetic h h' := congrArg₂ (fun l r => _ <|> arithmeticType l r) h h'

/-- An expression that has a value has one of the same type wherever it stands. -/
theorem expression_typed {e : Expression} {v : Sql.Expression} {supply supply' : Supply}
    (h : s.expression m e supply = .ok v supply') (other : Supply) :
    ∃ w after, s.expression m e other = .ok w after ∧ w.type = v.type := by
  have hpair := (types_paired (s := s) (m := m)).expression_id e
  have hrun := hpair.run (s := supply) (t := other) trivial
  rw [h] at hrun
  generalize s.expression m e other = r at hrun ⊢
  cases hrun with
  | ok related => exact ⟨_, _, rfl, related.1.symm⟩

/-- The type of an expression in a scope, if it has a value there. -/
def typeOf (s : Scope) (m : Metamodel) (e : Expression) : Option DomainType :=
  match s.expression m e ⟨.start "", []⟩ with
  | .ok v _ => v.type
  | .error _ _ => none

theorem typeOf_eq {e : Expression} {v : Sql.Expression} {supply supply' : Supply}
    (h : s.expression m e supply = .ok v supply') : s.typeOf m e = v.type := by
  obtain ⟨w, after, hw, htype⟩ := expression_typed h ⟨.start "", []⟩
  rw [typeOf, hw]
  exact htype

theorem expressions_append {es fs : List Expression} {vs ws : List Sql.Expression}
    {s1 s2 s3 : Supply} (h : s.expressions m es s1 = .ok vs s2)
    (h' : s.expressions m fs s2 = .ok ws s3) :
    s.expressions m (es ++ fs) s1 = .ok (vs ++ ws) s3 := by
  induction es generalizing s1 vs with
  | nil =>
    obtain ⟨rfl, rfl⟩ := EStateM.pure_eq_ok.1 h
    exact h'
  | cons e es ih =>
    simp only [expressions_cons, EStateM.bind_eq_ok, EStateM.pure_eq_ok] at h
    obtain ⟨v, _, hv, vs, _, hvs, rfl, rfl⟩ := h
    simp only [List.cons_append, expressions_cons, EStateM.bind_eq_ok, EStateM.pure_eq_ok]
    exact ⟨v, _, hv, _, _, ih hvs, rfl, rfl⟩

theorem expressions_lowered {es : List Expression} {vs : List Sql.Expression} {s1 s2 : Supply}
    (h : s.expressions m es s1 = .ok vs s2) :
    (∀ e ∈ es, ∃ v before after, s.expression m e before = .ok v after) ∧
      vs.map (·.type) = es.map (s.typeOf m) := by
  induction es generalizing s1 vs with
  | nil =>
    obtain ⟨rfl, -⟩ := EStateM.pure_eq_ok.1 h
    exact ⟨by simp, rfl⟩
  | cons e es ih =>
    simp only [expressions_cons, EStateM.bind_eq_ok, EStateM.pure_eq_ok] at h
    obtain ⟨v, _, hv, vs, _, hvs, rfl, rfl⟩ := h
    obtain ⟨hall, htypes⟩ := ih hvs
    refine ⟨List.forall_mem_cons.2 ⟨⟨v, _, _, hv⟩, hall⟩, ?_⟩
    rw [List.map_cons, List.map_cons, htypes, typeOf_eq hv]

end Scope

/-! ## Trees of operators -/

/-- Operands that arithmetic operators put together. -/
inductive ArithmeticTree
  | operand (e : Expression)
  | operation (lhs : ArithmeticTree) (operator : ArithmeticOperator) (rhs : ArithmeticTree)

namespace ArithmeticTree

/-- The expression that a tree stands for, without explicit types. -/
def expression : ArithmeticTree → Expression
  | .operand e => e
  | .operation lhs operator rhs => .arithmetic lhs.expression operator rhs.expression none

/-- The operands of a tree, from left to right. -/
def operands : ArithmeticTree → List Expression
  | .operand e => [e]
  | .operation lhs _ rhs => lhs.operands ++ rhs.operands

end ArithmeticTree

/-- The kind of the values of an expression, if it is of a basic type. -/
def Sql.Expression.kind (v : Sql.Expression) : Option ValueType :=
  (v.type.bind (·.basic?)).map (·.valueType)

/-- The types that are known are those of numbers. -/
def Numeric (types : List (Option DomainType)) : Prop :=
  ∀ t ∈ types, t = none ∨ ∃ b : BasicType, t = some (.basic b) ∧ b.valueType.isNumeric

namespace Numeric

/-- The basic types among given types. -/
def basics (types : List (Option DomainType)) : List BasicType :=
  types.filterMap (·.bind (·.basic?))

variable {types others : List (Option DomainType)}

theorem mem_basics (h : Numeric types) : ∀ b ∈ basics types, b.valueType.isNumeric := by
  intro b hb
  obtain ⟨t, ht, hb⟩ := List.mem_filterMap.1 hb
  rcases h t ht with rfl | ⟨c, rfl, hnumeric⟩
  · cases hb
  · cases hb
    exact hnumeric

/-- All types that are known are basic ones. -/
theorem map_basics (h : Numeric types) : (basics types).map .basic = types.filterMap id := by
  rw [basics, List.map_filterMap]
  refine List.filterMap_congr fun t ht => ?_
  rcases h t ht with rfl | ⟨b, rfl, -⟩ <;> rfl

theorem basics_eq_nil (h : Numeric types) : basics types = [] ↔ ∀ t ∈ types, t = none := by
  rw [← List.map_eq_nil_iff (f := DomainType.basic), map_basics h, List.filterMap_eq_nil_iff]
  rfl

theorem kinds {vs : List Sql.Expression} :
    (basics (vs.map (·.type))).map (·.valueType) = vs.filterMap (·.kind) := by
  rw [basics, List.map_filterMap, List.filterMap_map]
  rfl

theorem append : Numeric (types ++ others) ↔ Numeric types ∧ Numeric others :=
  List.forall_mem_append

end Numeric

namespace ArithmeticTree

variable {s : Scope} {m : Metamodel}

/-- A tree is lowered by lowering its operands from left to right, and its type is what they give
together. -/
theorem lowered {t : ArithmeticTree} {v : Sql.Expression} {s1 s2 : Supply}
    (h : s.expression m t.expression s1 = .ok v s2) :
    ∃ vs, s.expressions m t.operands s1 = .ok vs s2 ∧ (Numeric (vs.map (·.type)) →
      v.type = (BasicType.combined (Numeric.basics (vs.map (·.type)))).map .basic) := by
  induction t generalizing s1 s2 v with
  | operand e =>
    refine ⟨[v], ?_, fun hnumeric => ?_⟩
    · simp only [operands, Scope.expressions_cons, EStateM.bind_eq_ok, EStateM.pure_eq_ok]
      exact ⟨v, s2, h, [], s2, rfl, rfl, rfl⟩
    · rcases hnumeric v.type List.mem_cons_self with hv | ⟨b, hv, -⟩ <;>
        rw [List.map_singleton, hv] <;> rfl
  | operation lhs operator rhs ihl ihr =>
    rw [expression, Scope.expression_eq] at h
    simp only [Scope.expressionOfParts, EStateM.bind_eq_ok, EStateM.pure_eq_ok] at h
    obtain ⟨l, s3, hl, r, _, hr, rfl, rfl⟩ := h
    obtain ⟨ls, hls, htypel⟩ := ihl hl
    obtain ⟨rs, hrs, htyper⟩ := ihr hr
    refine ⟨ls ++ rs, Scope.expressions_append hls hrs, fun hnumeric => ?_⟩
    rw [List.map_append] at hnumeric ⊢
    obtain ⟨hlnumeric, hrnumeric⟩ := Numeric.append.1 hnumeric
    rw [Numeric.basics, List.filterMap_append, ← Numeric.basics, ← Numeric.basics,
      ← arithmeticType_combined hlnumeric.mem_basics hrnumeric.mem_basics, ← htypel hlnumeric,
      ← htyper hrnumeric]
    rfl

/-- The kind of a tree on numbers is the preferred one among those of its operands. -/
theorem kind_lowered {t : ArithmeticTree} {v : Sql.Expression} {vs : List Sql.Expression}
    {s1 s2 : Supply} (h : s.expression m t.expression s1 = .ok v s2)
    (hvs : s.expressions m t.operands s1 = .ok vs s2) (hnumeric : Numeric (vs.map (·.type))) :
    v.kind = ValueType.preferred (vs.filterMap (·.kind)) := by
  obtain ⟨ws, hws, htype⟩ := lowered h
  rw [hvs] at hws
  cases hws
  rw [← Numeric.kinds, ← BasicType.combined_valueType hnumeric.mem_basics, Sql.Expression.kind,
    htype hnumeric]
  cases BasicType.combined (Numeric.basics (vs.map (·.type))) <;> rfl

/-- A tree has a value if its operands have one. -/
theorem exists_lowered {t : ArithmeticTree}
    (h : ∀ e ∈ t.operands, ∃ v before after, s.expression m e before = .ok v after)
    (supply : Supply) : ∃ v after, s.expression m t.expression supply = .ok v after := by
  induction t generalizing supply with
  | operand e =>
    obtain ⟨v, before, after, hv⟩ := h e List.mem_cons_self
    obtain ⟨w, after', hw, -⟩ := Scope.expression_typed hv supply
    exact ⟨w, after', hw⟩
  | operation lhs operator rhs ihl ihr =>
    obtain ⟨hl, hr⟩ := List.forall_mem_append.1 h
    obtain ⟨l, s1, hl⟩ := ihl hl supply
    obtain ⟨r, s2, hr⟩ := ihr hr s1
    rw [expression, Scope.expression_eq]
    simp only [Scope.expressionOfParts, EStateM.bind_eq_ok, EStateM.pure_eq_ok]
    exact ⟨_, s2, l, s1, hl, r, s2, hr, rfl, rfl⟩

/-- Trees of the same operands, in any order, have operands of the same types. -/
theorem types_perm {t t' : ArithmeticTree} {vs vs' : List Sql.Expression} {s1 s2 s3 s4 : Supply}
    (hperm : t'.operands.Perm t.operands) (h : s.expressions m t.operands s1 = .ok vs s2)
    (h' : s.expressions m t'.operands s3 = .ok vs' s4) :
    (vs'.map (·.type)).Perm (vs.map (·.type)) := by
  rw [(Scope.expressions_lowered h).2, (Scope.expressions_lowered h').2]
  exact hperm.map _

/-- Trees of the same numbers, in any order, are of the same kind. -/
theorem kind_perm {t t' : ArithmeticTree} {v v' : Sql.Expression} {vs : List Sql.Expression}
    {s1 s2 s3 s4 : Supply} (hperm : t'.operands.Perm t.operands)
    (h : s.expression m t.expression s1 = .ok v s2)
    (hvs : s.expressions m t.operands s1 = .ok vs s2) (hnumeric : Numeric (vs.map (·.type)))
    (h' : s.expression m t'.expression s3 = .ok v' s4) : v'.kind = v.kind := by
  obtain ⟨vs', hvs', -⟩ := lowered h'
  have htypes := types_perm hperm hvs hvs'
  have hnumeric' : Numeric (vs'.map (·.type)) := fun t ht => hnumeric t (htypes.mem_iff.1 ht)
  rw [kind_lowered h' hvs' hnumeric', kind_lowered h hvs hnumeric]
  apply ValueType.preferred_perm
  rw [← Numeric.kinds, ← Numeric.kinds]
  exact (htypes.filterMap _).map _

end ArithmeticTree

/-- The type of arithmetic on numbers, of any shape: it is unknown if that of all operands is, its kind
is the preferred one among those of the operands, and it is the standard type of its kind if at least
two operands have a type. Every tree of the same operands, in any order, has a value of the same
kind. -/
theorem arithmetic_typed_by_operands {s : Scope} {m : Metamodel} {t : ArithmeticTree}
    {v : Sql.Expression} {supply supply' : Supply}
    (h : s.expression m t.expression supply = .ok v supply') :
    ∃ vs, s.expressions m t.operands supply = .ok vs supply' ∧ (Numeric (vs.map (·.type)) →
      (v.type = none ↔ ∀ w ∈ vs, w.type = none) ∧
      (¬ (∀ w ∈ vs, w.type = none) → ∃ b, v.type = some (.basic b) ∧
        ValueType.preferred (vs.filterMap (·.kind)) = some b.valueType ∧
        (2 ≤ (vs.filterMap (·.type)).length → b = .standard b.valueType)) ∧
      ∀ t' : ArithmeticTree, t'.operands.Perm t.operands → ∀ before, ∃ v' after,
        s.expression m t'.expression before = .ok v' after ∧ v'.kind = v.kind) := by
  obtain ⟨vs, hvs, htype⟩ := t.lowered h
  refine ⟨vs, hvs, fun hnumeric => ?_⟩
  have hnil : Numeric.basics (vs.map (·.type)) = [] ↔ ∀ w ∈ vs, w.type = none := by
    rw [hnumeric.basics_eq_nil, List.forall_mem_map]
  refine ⟨?_, fun htyped => ?_, fun t' hperm before => ?_⟩
  · rw [← hnil, htype hnumeric, Option.map_eq_none_iff,
      BasicType.combined_eq_none_iff hnumeric.mem_basics]
  · rw [← hnil] at htyped
    obtain ⟨b, hb, hpreferred⟩ := BasicType.exists_combined htyped hnumeric.mem_basics
    refine ⟨b, by rw [htype hnumeric, hb]; rfl, by rw [← Numeric.kinds, hpreferred], fun htwo => ?_⟩
    refine BasicType.combined_standard ?_ hb
    have hlength := congrArg List.length hnumeric.map_basics
    rw [List.length_map, List.filterMap_map] at hlength
    rw [hlength]
    exact htwo
  · have hall := (Scope.expressions_lowered hvs).1
    obtain ⟨v', after, hv'⟩ := t'.exists_lowered (fun e he => hall e (hperm.mem_iff.1 he)) before
    exact ⟨v', after, hv', ArithmeticTree.kind_perm hperm h hvs hnumeric hv'⟩

/-- A whole number plus an untyped parameter, times a rate that is stored through a converter. -/
def interest : ArithmeticTree :=
  .operation
    (.operation (.operand (.literal (.integer 1))) .add (.operand (.parameter (.named "n") none)))
    .multiply
    (.operand (.parameter (.named "rate") (some (.basic ⟨.double, .varchar, some "percent"⟩))))

/-- The product is of the standard type for doubles, and so is every other arithmetic on the same
three operands. -/
theorem interest_is_double : ∃ v supply,
    Scope.expression ⟨.empty, []⟩ library interest.expression ⟨.start "", []⟩ = .ok v supply ∧
      v.type = some (.basic (.standard .double)) ∧
      ∀ t : ArithmeticTree, t.operands.Perm interest.operands → ∀ before, ∃ v' after,
        Scope.expression ⟨.empty, []⟩ library t.expression before = .ok v' after ∧
          v'.kind = some .double := by
  obtain ⟨vs, hvs, htyped⟩ := arithmetic_typed_by_operands
    (h := (rfl : Scope.expression ⟨.empty, []⟩ library interest.expression ⟨.start "", []⟩ = .ok _ _))
  cases hvs
  have hnumeric : Numeric [some (.basic (.standard .integer)), none,
      some (.basic ⟨.double, .varchar, some "percent"⟩)] := by
    intro t ht
    simp only [List.mem_cons, List.not_mem_nil, or_false] at ht
    rcases ht with rfl | rfl | rfl
    · exact .inr ⟨_, rfl, rfl⟩
    · exact .inl rfl
    · exact .inr ⟨_, rfl, rfl⟩
  obtain ⟨-, htype, hperm⟩ := htyped hnumeric
  obtain ⟨b, hb, hkind, hstandard⟩ := htype (by decide)
  have hdouble : b.valueType = .double := (Option.some.inj hkind).symm
  rw [hdouble] at hstandard
  refine ⟨_, _, rfl, ?_, hperm⟩
  rw [← hstandard (by decide)]
  exact hb

end EntityQuery
