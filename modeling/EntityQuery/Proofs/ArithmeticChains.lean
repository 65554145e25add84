import EntityQuery.Proofs.ArithmeticTypes

/-!
# Chains of operators that begin with something other than a number

A chain puts one operand after the other to what stands before it. `nonnumeric_chain_typed`: if its
first operand is of a basic type that is not one of numbers, such as a date, the chain has this type as
long as no number follows. With the first number the type of the first operand is lost, and from there
on the numbers alone decide.

`arithmeticType_passes` is the step at one operator and `foldl_arithmeticType` the induction along a
chain: what has been passed counts by its numbers only.
-/

set_option autoImplicit false

namespace EntityQuery

/-! ## Types along a chain -/

namespace BasicType

theorem promote_nonnumeric {l r : BasicType} (hr : r.valueType.isNumeric = false) :
    promote l r = l := by
  have hrank : r.valueType.rank = none := by simpa [ValueType.isNumeric] using hr
  rw [promote, hrank]
  cases l.valueType.rank <;> rfl

theorem promote_of_nonnumeric {l r : BasicType} (hl : l.valueType.isNumeric = false)
    (hr : r.valueType.isNumeric) : promote l r = r := by
  have hrank : l.valueType.rank = none := by simpa [ValueType.isNumeric] using hl
  obtain ⟨n, hn⟩ := Option.isSome_iff_exists.1 hr
  rw [promote, hrank, hn]

/-- The types of numbers among given types. -/
def numbers (types : List (Option DomainType)) : List BasicType :=
  (Numeric.basics types).filter (·.valueType.isNumeric)

theorem numbers_cons (t : Option DomainType) (types : List (Option DomainType)) :
    numbers (t :: types) = numbers [t] ++ numbers types := by
  rw [numbers, Numeric.basics, ← List.singleton_append, List.filterMap_append, List.filter_append]
  rfl

theorem isNumeric_of_mem_numbers {types : List (Option DomainType)} :
    ∀ b ∈ numbers types, b.valueType.isNumeric := by
  intro b hb
  exact (List.mem_filter.1 hb).2

end BasicType

open BasicType (combined numbers)

/-- One more operand: what the numbers so far give is put together with it if it is a number, and stays
otherwise. Without numbers so far, that is the type `a` of the first operand. -/
theorem arithmeticType_passes {a : BasicType} (ha : a.valueType.isNumeric = false)
    {seen : List BasicType} (hseen : ∀ b ∈ seen, b.valueType.isNumeric) (t : Option DomainType) :
    arithmeticType (some (.basic ((combined seen).getD a))) t =
      some (.basic ((combined (seen ++ numbers [t])).getD a)) := by
  have hother (h : numbers [t] = []) (hl : ∀ l,
      arithmeticType (some (.basic l)) t = some (.basic l)) :
      arithmeticType (some (.basic ((combined seen).getD a))) t =
        some (.basic ((combined (seen ++ numbers [t])).getD a)) := by
    rw [h, List.append_nil, hl]
  match t with
  | none | some (.entity _) | some (.embeddable _) | some (.any _) | some (.collection _) =>
    exact hother rfl fun _ => rfl
  | some (.basic b) =>
    by_cases hb : b.valueType.isNumeric
    · have hnumbers : numbers [some (.basic b)] = [b] := by
        simp [numbers, Numeric.basics, DomainType.basic?, hb]
      rw [hnumbers]
      by_cases hnil : seen = []
      · subst hnil
        exact congrArg (fun c => some (DomainType.basic c)) (BasicType.promote_of_nonnumeric ha hb)
      · have hnew : ∀ c ∈ [b], c.valueType.isNumeric := by simpa using hb
        have hall := List.forall_mem_append.2 ⟨hseen, hnew⟩
        obtain ⟨c, hc, -⟩ := BasicType.exists_combined hnil hseen
        obtain ⟨d, hd, -⟩ := BasicType.exists_combined (List.append_ne_nil_of_left_ne_nil hnil _) hall
        have hstep := arithmeticType_combined hseen hnew
        rw [hc, hd] at hstep
        rw [hc, hd]
        exact hstep
    · rw [Bool.not_eq_true] at hb
      refine hother (by simp [numbers, Numeric.basics, DomainType.basic?, hb]) fun l => ?_
      exact congrArg (fun c => some (DomainType.basic c)) (BasicType.promote_nonnumeric hb)

/-- The type at the end of a chain. -/
theorem foldl_arithmeticType {a : BasicType} (ha : a.valueType.isNumeric = false)
    (types : List (Option DomainType)) {seen : List BasicType}
    (hseen : ∀ b ∈ seen, b.valueType.isNumeric) :
    types.foldl arithmeticType (some (.basic ((combined seen).getD a))) =
      some (.basic ((combined (seen ++ numbers types)).getD a)) := by
  induction types generalizing seen with
  | nil => rw [List.foldl_nil, show numbers [] = [] from rfl, List.append_nil]
  | cons t types ih =>
    have hnumeric : ∀ b ∈ seen ++ numbers [t], b.valueType.isNumeric :=
      List.forall_mem_append.2 ⟨hseen, BasicType.isNumeric_of_mem_numbers⟩
    rw [List.foldl_cons, arithmeticType_passes ha hseen, ih hnumeric,
      BasicType.numbers_cons t types, List.append_assoc]

/-! ## Chains -/

/-- An operand, and further ones that are each put to what stands before them. -/
structure ArithmeticChain where
  first : Expression
  rest : List (ArithmeticOperator × Expression)

namespace ArithmeticChain

/-- The expression that a chain stands for, nested to the left and without explicit types. -/
def expression (c : ArithmeticChain) : Expression :=
  c.rest.foldl (fun lhs step => .arithmetic lhs step.1 step.2 none) c.first

variable {s : Scope} {m : Metamodel}

/-- A chain is lowered by lowering its operands from left to right, and its type is found along the
chain. -/
theorem lowered {c : ArithmeticChain} {v : Sql.Expression} {s1 s3 : Supply}
    (h : s.expression m c.expression s1 = .ok v s3) :
    ∃ w ws s2, s.expression m c.first s1 = .ok w s2 ∧
      s.expressions m (c.rest.map (·.2)) s2 = .ok ws s3 ∧
      v.type = (ws.map (·.type)).foldl arithmeticType w.type := by
  obtain ⟨first, rest⟩ := c
  -- the first operation of a chain is the first operand of the rest of it
  induction rest generalizing first with
  | nil => exact ⟨v, [], s3, h, rfl, rfl⟩
  | cons step rest ih =>
    obtain ⟨w, ws, s2, hw, hws, htype⟩ := ih (.arithmetic first step.1 step.2 none) h
    rw [Scope.expression_eq] at hw
    simp only [Scope.expressionOfParts, EStateM.bind_eq_ok, EStateM.pure_eq_ok] at hw
    obtain ⟨l, sl, hl, r, sr, hr, rfl, rfl⟩ := hw
    refine ⟨l, r :: ws, sl, hl, ?_, htype⟩
    simp only [List.map_cons, Scope.expressions_cons, EStateM.bind_eq_ok, EStateM.pure_eq_ok]
    exact ⟨r, sr, hr, ws, s3, hws, rfl, rfl⟩

end ArithmeticChain

/-- A chain whose first operand is of the basic type `a`, not one of numbers: its type is `a` exactly if
no number follows, and otherwise what the numbers among its operands give. -/
theorem nonnumeric_chain_typed {s : Scope} {m : Metamodel} {c : ArithmeticChain}
    {v : Sql.Expression} {supply supply' : Supply}
    (h : s.expression m c.expression supply = .ok v supply') :
    ∃ w ws mid, s.expression m c.first supply = .ok w mid ∧
      s.expressions m (c.rest.map (·.2)) mid = .ok ws supply' ∧
      ∀ a, w.type = some (.basic a) → a.valueType.isNumeric = false →
        (v.type = w.type ↔ numbers (ws.map (·.type)) = []) ∧
        (numbers (ws.map (·.type)) ≠ [] → ∃ b, b.valueType.isNumeric ∧
          combined (numbers (ws.map (·.type))) = some b ∧ v.type = some (.basic b)) := by
  obtain ⟨w, ws, mid, hw, hws, htype⟩ := c.lowered h
  refine ⟨w, ws, mid, hw, hws, fun a ha hnonnumeric => ?_⟩
  have hstart : ∀ b ∈ ([] : List BasicType), b.valueType.isNumeric := by simp
  have hv := foldl_arithmeticType hnonnumeric (ws.map (·.type)) hstart
  rw [List.nil_append, show (combined []).getD a = a from rfl, ← ha, ← htype] at hv
  have hnumbers (hne : numbers (ws.map (·.type)) ≠ []) : ∃ b, b.valueType.isNumeric ∧
      combined (numbers (ws.map (·.type))) = some b ∧ v.type = some (.basic b) := by
    obtain ⟨b, hb, hpreferred⟩ :=
      BasicType.exists_combined hne BasicType.isNumeric_of_mem_numbers
    refine ⟨b, (ValueType.preferred_eq_some_iff.1 hpreferred).2.1, hb, ?_⟩
    rw [hv, hb, Option.getD_some]
  refine ⟨⟨fun hsame => ?_, fun hnil => ?_⟩, hnumbers⟩
  · by_contra hne
    obtain ⟨b, hnumeric, -, hb⟩ := hnumbers hne
    rw [hsame, ha, Option.some.injEq, DomainType.basic.injEq] at hb
    subst hb
    rw [hnonnumeric] at hnumeric
    cases hnumeric
  · rw [hv, hnil, ha]
    rfl

/-- The time that is left before a deadline, less an untyped margin. -/
def remaining : ArithmeticChain :=
  ⟨.parameter (.named "deadline") (some (.basic ⟨.timestamp, .varchar, some "iso"⟩)),
    [(.subtract, .parameter (.named "now") (some (.basic (.standard .timestamp)))),
      (.subtract, .parameter (.named "margin") none)]⟩

/-- Without numbers the chain has the type of the deadline, with its converter. -/
theorem remaining_is_deadline : ∃ v supply,
    Scope.expression ⟨.empty, []⟩ library remaining.expression ⟨.start "", []⟩ = .ok v supply ∧
      v.type = some (.basic ⟨.timestamp, .varchar, some "iso"⟩) := by
  obtain ⟨w, ws, mid, hw, hws, htyped⟩ := nonnumeric_chain_typed
    (h := (rfl : Scope.expression ⟨.empty, []⟩ library remaining.expression ⟨.start "", []⟩ =
      .ok _ _))
  cases hw
  cases hws
  obtain ⟨hsame, -⟩ := htyped ⟨.timestamp, .varchar, some "iso"⟩ rfl rfl
  exact ⟨_, _, rfl, hsame.2 rfl⟩

/-- A week after a date. -/
def weekLater : ArithmeticChain :=
  ⟨.parameter (.named "due") (some (.basic (.standard .date))), [(.add, .literal (.integer 7))]⟩

/-- A date and a number of days give a whole number, not a date. -/
theorem week_later_is_no_date : ∃ v w mid supply,
    Scope.expression ⟨.empty, []⟩ library weekLater.expression ⟨.start "", []⟩ = .ok v supply ∧
      Scope.expression ⟨.empty, []⟩ library weekLater.first ⟨.start "", []⟩ = .ok w mid ∧
      w.type = some (.basic (.standard .date)) ∧ ValueType.date.isNumeric = false ∧
      v.type = some (.basic (.standard .integer)) ∧ v.type ≠ w.type := by
  exact ⟨_, _, _, _, rfl, rfl, rfl, rfl, rfl, by decide⟩

end EntityQuery
