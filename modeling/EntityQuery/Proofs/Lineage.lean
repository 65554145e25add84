import EntityQuery.Proofs.Hierarchy
import Mathlib.Data.List.Perm.Subperm

/-!
# Walks along a hierarchy

The way up from an entity is a chain (`Ascends`), and the way down lists each entity before its
children and these before their own (`Descends`). `lineage_walks`: the ancestors of an entity are
found exactly if the way up ends at a root, and a cycle on it is noticed, be the entity part of it or
not. Where all entities have ancestors, the descendants of an entity are found by a walk that needs
no bound (`walkDown`), each once, and they are those that the entity is an ancestor of.

A chain that ends has no repetition (`Ascends.nodup`), so it is shorter than the list of entities
(`Ascends.length_lt`). This is why the budget of `ancestors` is enough, and why the walk down ends: a
child has one more ancestor than its parent.
-/

set_option autoImplicit false

namespace EntityQuery.Definition

open Relation (TransGen ReflTransGen)

variable {d : Definition} {e x : EntityDefinition} {as : List EntityDefinition}

/-! ## The way up -/

/-- The ancestors of an entity, nearest first. -/
inductive Ascends (d : Definition) : EntityDefinition → List EntityDefinition → Prop
  | root {e : EntityDefinition} (none : e.parent = none) : Ascends d e []
  | step {e p : EntityDefinition} {above : List EntityDefinition} (parent : d.Extends e p)
      (rest : Ascends d p above) : Ascends d e (p :: above)

theorem ascends_ancestorsFrom {x : EntityDefinition} : ∀ {as : List EntityDefinition} {budget : Nat}
    {c : EntityDefinition}, d.ancestorsFrom x budget c.parent = .ok as → d.Ascends c as
  | [], _, _, h => .root (ancestorsFrom_nil h)
  | _ :: _, _, _, h => by
    obtain ⟨hmem, hname, _, -, hrest⟩ := ancestorsFrom_cons h
    exact .step ⟨hmem, hname⟩ (ascends_ancestorsFrom hrest)

/-- Whatever is on a chain goes on along the rest of it. -/
theorem Ascends.of_mem (h : d.Ascends e as) (hx : x ∈ as) :
    x ∈ d.entities ∧ ∃ rest, d.Ascends x rest ∧ rest.length < as.length := by
  induction h with
  | root => simp at hx
  | step parent rest ih =>
    rcases List.mem_cons.1 hx with rfl | hx
    · exact ⟨parent.1, _, rest, Nat.lt_succ_self _⟩
    · obtain ⟨hmem, rest, hrest, hlength⟩ := ih hx
      exact ⟨hmem, rest, hrest, Nat.lt_succ_of_lt hlength⟩

section
variable (hn : (d.entities.map (·.name)).Nodup)
include hn

theorem Ascends.unique {as bs : List EntityDefinition} (h : d.Ascends e as)
    (h' : d.Ascends e bs) : as = bs := by
  induction h generalizing bs with
  | root hnone =>
    cases h' with
    | root _ => rfl
    | step parent _ => exact absurd (hnone.symm.trans parent.2) nofun
  | step parent _ ih =>
    cases h' with
    | root hnone => exact absurd (hnone.symm.trans parent.2) nofun
    | step parent' rest' =>
      cases extends_rightUnique hn parent parent'
      rw [ih rest']

/-- A chain does not come back to where it starts: what follows there is the same chain, and
shorter. -/
theorem Ascends.notMem (h : d.Ascends e as) : e ∉ as := by
  intro he
  obtain ⟨-, rest, hrest, hlength⟩ := h.of_mem he
  rw [hrest.unique hn h] at hlength
  exact Nat.lt_irrefl _ hlength

theorem Ascends.nodup (h : d.Ascends e as) : (e :: as).Nodup := by
  induction h with
  | root => exact List.nodup_singleton _
  | step parent rest ih => exact List.nodup_cons.2 ⟨(Ascends.step parent rest).notMem hn, ih⟩

/-- A chain has fewer members than there are entities: the entity it starts at is another one. -/
theorem Ascends.length_lt (he : e ∈ d.entities) (h : d.Ascends e as) :
    as.length < d.entities.length := by
  have hsubset : e :: as ⊆ d.entities :=
    List.cons_subset.2 ⟨he, fun _ hx => (h.of_mem hx).1⟩
  exact ((h.nodup hn).subperm hsubset).length_le

/-- The budget lasts along a chain, and no member of it is taken for the entity at its start. -/
theorem ancestorsFrom_of_ascends {c : EntityDefinition} (h : d.Ascends c as) :
    ∀ {budget : Nat}, (∀ p ∈ as, p.name ≠ e.name) → as.length ≤ budget →
      d.ancestorsFrom e budget c.parent = .ok as := by
  induction h with
  | root hnone =>
    intro budget _ _
    simp [hnone, ancestorsFrom]
  | @step c p above parent _ ih =>
    intro budget hne hlength
    obtain ⟨budget, rfl⟩ := Nat.exists_eq_add_one_of_ne_zero (Nat.ne_of_gt (Nat.lt_of_lt_of_le
      (Nat.succ_pos _) hlength))
    rw [parent.2, ancestorsFrom, entity?_of_mem hn parent.1]
    simp only [if_neg (hne p List.mem_cons_self)]
    rw [ih (fun q hq => hne q (List.mem_cons_of_mem p hq)) (Nat.le_of_succ_le_succ hlength)]
    rfl

/-- The ancestors of an entity are found if the way up ends, and they are that way. -/
theorem ancestors_ok_iff (he : e ∈ d.entities) : d.ancestors e = .ok as ↔ d.Ascends e as := by
  refine ⟨ascends_ancestorsFrom, fun h => ?_⟩
  refine ancestorsFrom_of_ascends hn h (fun p hp hname => ?_) (Nat.le_of_lt (h.length_lt hn he))
  exact h.notMem hn (eq_of_name hn (h.of_mem hp).1 he hname ▸ hp)

end

/-! ### Ways up without an end -/

/-- What can go wrong on the way up: a parent is missing, or there is a cycle. -/
theorem ancestorsFrom_error : ∀ {budget : Nat} {c : EntityDefinition} {err : MetamodelError},
    d.ancestorsFrom e budget c.parent = .error err →
    (∃ y name, ReflTransGen d.Extends c y ∧ y.parent = some name ∧ d.entity? name = none ∧
      err = .invalid (.unknownParent e.name name)) ∨
      err = .invalid (.inheritanceCycle e.name) := by
  intro budget
  induction budget with
  | zero =>
    intro c err h
    unfold ancestorsFrom at h
    split at h
    · cases h
    · rename_i name hparent
      split at h
      · rename_i hnone
        cases h
        exact .inl ⟨c, name, .refl, hparent, hnone, rfl⟩
      · split at h <;> cases h <;> exact .inr rfl
  | succ budget ih =>
    intro c err h
    unfold ancestorsFrom at h
    split at h
    · cases h
    · rename_i name hparent
      split at h
      · rename_i hnone
        cases h
        exact .inl ⟨c, name, .refl, hparent, hnone, rfl⟩
      · rename_i p hp
        split at h
        · cases h
          exact .inr rfl
        · obtain h | ⟨_, -, h⟩ := Except.bind_eq_error.1 h
          · obtain ⟨hmem, rfl⟩ := mem_of_entity? hp
            obtain ⟨y, name, hy, hyname, hnone, rfl⟩ | rfl := ih h
            · exact .inl ⟨y, name, .head ⟨hmem, hparent⟩ hy, hyname, hnone, rfl⟩
            · exact .inr rfl
          · cases h

section
variable (hn : (d.entities.map (·.name)).Nodup)
include hn

/-- A way that has come to a cycle stays on it. -/
theorem cycle_of_extends {y : EntityDefinition} (hx : TransGen d.Extends x x)
    (h : ReflTransGen d.Extends x y) : TransGen d.Extends y y := by
  induction h with
  | refl => exact hx
  | tail _ hstep ih =>
    obtain ⟨_, hstep', hback⟩ := TransGen.head'_iff.1 ih
    cases extends_rightUnique hn hstep hstep'
    exact TransGen.tail' hback hstep

/-- An entity that leads into a cycle has no ancestors, be it part of the cycle or not. -/
theorem ancestors_of_cycle (he : e ∈ d.entities) (hx : ReflTransGen d.Extends e x)
    (hcycle : TransGen d.Extends x x) :
    d.ancestors e = .error (.invalid (.inheritanceCycle e.name)) := by
  cases h : d.ancestors e with
  | ok as =>
    -- the rest of the chain behind `x` would have to hold `x`
    obtain ⟨rest, hrest⟩ : ∃ rest, d.Ascends x rest := by
      rcases Relation.reflTransGen_iff_eq_or_transGen.1 hx with rfl | hx
      · exact ⟨as, ascends_ancestorsFrom h⟩
      · obtain ⟨-, rest, hrest, -⟩ :=
          (ascends_ancestorsFrom h).of_mem ((mem_ancestors_iff hn h).2 hx)
        exact ⟨rest, hrest⟩
    have hxmem : x ∈ d.entities := by
      obtain ⟨_, -, hmem, -⟩ := TransGen.tail'_iff.1 hcycle
      exact hmem
    have hself := (mem_ancestors_iff hn ((ancestors_ok_iff hn hxmem).2 hrest)).2 hcycle
    exact absurd hself (hrest.notMem hn)
  | error err =>
    obtain ⟨y, name, hy, hyname, hnone, -⟩ | rfl := ancestorsFrom_error h
    · -- the way ends at `y`, so it cannot go round
      have stuck (z : EntityDefinition) : ¬ d.Extends y z := by
        rintro ⟨hz, hparent⟩
        cases hyname.symm.trans hparent
        rw [entity?_of_mem hn hz] at hnone
        cases hnone
      have hround : TransGen d.Extends y y := by
        rcases ReflTransGen.total_of_right_unique (extends_rightUnique hn) hx hy with hxy | hyx
        · exact cycle_of_extends hn hcycle hxy
        · rcases Relation.reflTransGen_iff_eq_or_transGen.1 hyx with rfl | hyx
          · exact hcycle
          · obtain ⟨z, hz, -⟩ := TransGen.head'_iff.1 hyx
            exact absurd hz (stuck z)
      obtain ⟨z, hz, -⟩ := TransGen.head'_iff.1 hround
      exact absurd hz (stuck z)
    · rfl

end

/-! ## The way down -/

/-- Entities one after the other, each before its children, and these before their own. -/
inductive Descends (d : Definition) : List EntityDefinition → List EntityDefinition → Prop
  | nil : Descends d [] []
  | cons {e : EntityDefinition} {es below rest : List EntityDefinition}
      (children : Descends d (d.children e) below) (others : Descends d es rest) :
      Descends d (e :: es) (e :: below ++ rest)

theorem descends_flatMap {n : Nat} : ∀ {cs : List EntityDefinition},
    (∀ c ∈ cs, d.Descends (d.children c) (d.descendantsWithin n c)) →
    d.Descends cs (cs.flatMap fun c => c :: d.descendantsWithin n c)
  | [], _ => .nil
  | c :: _, h =>
    .cons (h c List.mem_cons_self) (descends_flatMap fun x hx => h x (List.mem_cons_of_mem c hx))

/-- The descendants are followed deep enough if the depth, with the ancestors of the entity, comes
to the number of entities: a child has one more ancestor, and no entity has more than there are. -/
theorem descends_descendantsWithin (hr : d.Rooted) : ∀ {n : Nat} {e : EntityDefinition}
    {above : List EntityDefinition}, e ∈ d.entities → d.Ascends e above →
    d.entities.length ≤ above.length + n → d.Descends (d.children e) (d.descendantsWithin n e) := by
  intro n
  induction n with
  | zero =>
    intro e above he ha hlength
    exact absurd (ha.length_lt hr.names he) (Nat.not_lt.2 hlength)
  | succ n ih =>
    intro e above he ha hlength
    refine descends_flatMap fun c hc => ?_
    obtain ⟨hmem, hparent⟩ := mem_children_iff.1 hc
    refine ih hmem (.step ⟨he, hparent⟩ ha) ?_
    rw [List.length_cons]
    omega

theorem descends_descendants (hr : d.Rooted) (he : e ∈ d.entities) :
    d.Descends (d.children e) (d.descendants e) := by
  obtain ⟨above, habove⟩ := hr.ancestors e he
  exact descends_descendantsWithin hr he (ascends_ancestorsFrom habove) (Nat.le_add_left _ _)

/-- The descendants of an entity, found by a walk without a bound; `none` if it does not end. -/
def walkDown (d : Definition) (e : EntityDefinition) : Option (List EntityDefinition) := do
  let below ← (d.children e).mapM fun child => do return child :: (← d |>.walkDown child)
  return below.flatten
partial_fixpoint

/-- A list of entities in the order of the walk is what the walk finds. -/
theorem Descends.walkDown {es below : List EntityDefinition} (h : d.Descends es below) :
    ∃ rows, es.mapM (fun child => do return child :: (← d.walkDown child)) = some rows ∧
      rows.flatten = below := by
  induction h with
  | nil => exact ⟨[], rfl, rfl⟩
  | @cons e es below rest _ _ ihchildren ihothers =>
    obtain ⟨rows, hrows, rfl⟩ := ihchildren
    obtain ⟨more, hmore, rfl⟩ := ihothers
    have he : d.walkDown e = some rows.flatten := by
      rw [Definition.walkDown, hrows]
      rfl
    refine ⟨(e :: rows.flatten) :: more, ?_, by simp⟩
    rw [List.mapM_cons, he, hmore]
    rfl

theorem walkDown_eq (hr : d.Rooted) (he : e ∈ d.entities) :
    d.walkDown e = some (d.descendants e) := by
  obtain ⟨rows, hrows, hflat⟩ := (descends_descendants hr he).walkDown
  rw [walkDown, hrows]
  exact congrArg some hflat

/-- No entity is above itself. -/
theorem Rooted.acyclic (hr : d.Rooted) (he : e ∈ d.entities) : ¬ TransGen d.Extends e e := by
  intro hround
  obtain ⟨as, has⟩ := hr.ancestors e he
  exact (ascends_ancestorsFrom has).notMem hr.names ((mem_ancestors_iff hr.names has).2 hround)

/-- Two children of one entity have no descendants in common: one of them would be above the other,
and the entity above itself. -/
theorem children_apart (hr : d.Rooted) (he : e ∈ d.entities) {c c' : EntityDefinition}
    (hc : c ∈ d.children e) (hc' : c' ∈ d.children e) (hx : ReflTransGen d.Extends x c)
    (hx' : ReflTransGen d.Extends x c') : c = c' := by
  have below {c c' : EntityDefinition} (hc : c ∈ d.children e) (hc' : c' ∈ d.children e)
      (h : ReflTransGen d.Extends c c') : c = c' := by
    rcases Relation.reflTransGen_iff_eq_or_transGen.1 h with heq | h
    · exact heq.symm
    · obtain ⟨p, hp, hback⟩ := TransGen.head'_iff.1 h
      cases extends_rightUnique hr.names ⟨he, (mem_children_iff.1 hc).2⟩ hp
      exact absurd (.tail' hback ⟨he, (mem_children_iff.1 hc').2⟩) (hr.acyclic he)
  rcases ReflTransGen.total_of_right_unique (extends_rightUnique hr.names) hx hx' with h | h
  · exact below hc hc' h
  · exact (below hc' hc h).symm

theorem descendantsWithin_nodup (hr : d.Rooted) : ∀ {n : Nat} {e : EntityDefinition},
    e ∈ d.entities → (d.descendantsWithin n e).Nodup
  | 0, _, _ => List.nodup_nil
  | n + 1, e, he => by
    have upward {c x : EntityDefinition} (hc : c ∈ d.children e)
        (hx : x ∈ c :: d.descendantsWithin n c) : ReflTransGen d.Extends x c := by
      rcases List.mem_cons.1 hx with rfl | hx
      · exact .refl
      · exact (extends_of_mem_descendantsWithin (mem_children_iff.1 hc).1 hx).2.to_reflTransGen
    refine List.nodup_flatMap.2 ⟨fun c hc => ?_, ?_⟩
    · have hmem := (mem_children_iff.1 hc).1
      refine List.nodup_cons.2 ⟨fun hself => ?_, descendantsWithin_nodup hr hmem⟩
      exact hr.acyclic hmem (extends_of_mem_descendantsWithin hmem hself).2
    · have hchildren : (d.children e).Nodup := (List.Nodup.of_map _ hr.names).filter _
      refine hchildren.imp_of_mem fun {c c'} hc hc' hne => ?_
      exact fun x hx hx' => hne (children_apart hr he hc hc' (upward hc hx) (upward hc' hx'))

/-- An entity is among the descendants of those that are among its ancestors. -/
theorem mem_descendants_iff_mem_ancestors (hr : d.Rooted) (he : e ∈ d.entities) (hx : x ∈ d.entities)
    (has : d.ancestors x = .ok as) : x ∈ d.descendants e ↔ e ∈ as := by
  rw [mem_descendants_iff hr he, mem_ancestors_iff hr.names has]
  exact ⟨And.right, fun h => ⟨hx, h⟩⟩

/-- An entity, its ancestors and its descendants are different entities. -/
theorem line_nodup (hr : d.Rooted) (he : e ∈ d.entities) (has : d.ancestors e = .ok as) :
    (e :: as ++ d.descendants e).Nodup := by
  refine List.Nodup.append ((ascends_ancestorsFrom has).nodup hr.names)
    (descendantsWithin_nodup hr he) fun x hx hbelow => ?_
  obtain ⟨hmem, hup⟩ := (mem_descendants_iff hr he).1 hbelow
  rcases List.mem_cons.1 hx with rfl | hx
  · exact hr.acyclic hmem hup
  · exact hr.acyclic hmem (hup.trans ((mem_ancestors_iff hr.names has).1 hx))

/-! ## Validation -/

/-- A computation that ends, where another might not. -/
def ended {α : Type} (x : Except MetamodelError α) : ExceptT MetamodelError Option α := .mk (some x)

theorem ended_bind {α β : Type} {x : Except MetamodelError α} {g : α → Except MetamodelError β}
    {f : α → ExceptT MetamodelError Option β} (h : ∀ a, x = .ok a → f a = ended (g a)) :
    (ended x >>= f) = ended (x >>= g) := by
  cases x with
  | ok a => exact h a rfl
  | error err => rfl

theorem ended_forM {α : Type} {g : α → Except MetamodelError PUnit}
    {f : α → ExceptT MetamodelError Option PUnit} :
    ∀ {xs : List α}, (∀ x ∈ xs, f x = ended (g x)) → xs.forM f = ended (xs.forM g)
  | [], _ => rfl
  | x :: xs, h => by
    rw [List.forM, List.forM, h x List.mem_cons_self]
    exact ended_bind fun _ _ => ended_forM fun y hy => h y (List.mem_cons_of_mem x hy)

/-- The check of the names of a hierarchy with the given members. -/
def checkMembers (root : EntityDefinition) (members : List EntityDefinition) :
    Except MetamodelError Unit :=
  match firstCollision [(root.identifier.map (·.name)).getD "id"] (declared members) with
  | some (e, name) => .error (.invalid (.nameCollision name e.name root.name))
  | none => .ok ()

/-- The check of the definition, with the members of hierarchies found by walks without a bound;
`none` if one of the walks does not end. -/
def validateWalking (d : Definition) : ExceptT MetamodelError Option Unit := do
  if d.entities.isEmpty then throw (.invalid .noEntities)
  if let some name := firstRepeated [] (d.embeddables.map (·.name)) then
    throw (.invalid (.duplicateEmbeddable name))
  if let some name := firstRepeated [] (d.entities.map (·.name)) then
    throw (.invalid (.duplicateEntity name))
  d.entities.forM fun e => ended (d.checkEntity e)
  (d.entities.filter (·.parent.isNone)).forM fun root => do
    ended (checkMembers root (root :: (← d.walkDown root)))

theorem checkNames_walking (hr : d.Rooted) (he : e ∈ d.entities) :
    (do ended (checkMembers e (e :: (← d.walkDown e))) : ExceptT MetamodelError Option Unit) =
      ended (d.checkNames e) := by
  rw [walkDown_eq hr he]
  rfl

/-- The check of a definition always ends: the walks are made only when all entities are known to
have ancestors. -/
theorem validateWalking_eq (d : Definition) : d.validateWalking = ended d.validate := by
  unfold validateWalking validate
  cases hempty : d.entities.isEmpty with
  | true => rfl
  | false =>
    cases hm : firstRepeated [] (d.embeddables.map (·.name)) with
    | some name => rfl
    | none =>
      cases hn : firstRepeated [] (d.entities.map (·.name)) with
      | some name => rfl
      | none =>
        simp only [Bool.false_eq_true, if_false]
        rw [ended_forM fun e _ => rfl]
        refine ended_bind fun _ hentities => ended_forM fun root hroot => ?_
        have hr : d.Rooted := ⟨(firstRepeated_eq_none hn).1,
          fun e he => ancestors_of_checkEntity (Except.forM_ok hentities e he)⟩
        exact checkNames_walking hr (List.mem_filter.1 hroot).1

/-! ## Both ways -/

/-- The check of a definition ends, with all walks that it makes. Where entities are told apart by
their names, the ancestors of an entity are the chain that leads from it to a root without coming to
an entity twice; without such a chain there is an error, and a cycle is one also for an entity that
is not part of it. Where all entities have ancestors, the walk down from an entity ends, has each
entity once, each before its children and these before their own, and finds those entities that have
the first one for an ancestor. -/
theorem lineage_walks (d : Definition) :
    d.validateWalking.run = some d.validate ∧
      ((d.entities.map (·.name)).Nodup → ∀ e ∈ d.entities,
        (∀ as, d.ancestors e = .ok as ↔ d.Ascends e as ∧ (e :: as).Nodup) ∧
        ((¬ ∃ as, d.Ascends e as ∧ (e :: as).Nodup) →
          ∃ defect, d.ancestors e = .error (.invalid defect)) ∧
        (∀ x, ReflTransGen d.Extends e x → TransGen d.Extends x x →
          d.ancestors e = .error (.invalid (.inheritanceCycle e.name))) ∧
        ((∀ x ∈ d.entities, ∃ as, d.ancestors x = .ok as) →
          d.walkDown e = some (d.descendants e) ∧
          d.Descends (d.children e) (d.descendants e) ∧ (d.descendants e).Nodup ∧
          (∀ x ∈ d.descendants e, x ∈ d.entities) ∧
          ∀ x ∈ d.entities, ∀ as, d.ancestors x = .ok as → (x ∈ d.descendants e ↔ e ∈ as))) := by
  refine ⟨by rw [validateWalking_eq]; rfl, fun hn e he => ?_⟩
  have hok (as : List EntityDefinition) :
      d.ancestors e = .ok as ↔ d.Ascends e as ∧ (e :: as).Nodup :=
    (ancestors_ok_iff hn he).trans ⟨fun h => ⟨h, h.nodup hn⟩, And.left⟩
  refine ⟨hok, fun hnone => ?_, fun x => ancestors_of_cycle hn he, fun hall => ?_⟩
  · cases h : d.ancestors e with
    | ok as => exact absurd ⟨as, (hok as).1 h⟩ hnone
    | error err =>
      obtain ⟨_, name, -, -, -, rfl⟩ | rfl := ancestorsFrom_error h
      · exact ⟨_, rfl⟩
      · exact ⟨_, rfl⟩
  · have hr : d.Rooted := ⟨hn, hall⟩
    exact ⟨walkDown_eq hr he, descends_descendants hr he, descendantsWithin_nodup hr he,
      fun x hx => ((mem_descendants_iff hr he).1 hx).1,
      fun x hx as has => mem_descendants_iff_mem_ancestors hr he hx has⟩

/-- An entity of which only the place in its hierarchy matters. -/
def placed (name : String) (parent : Option String) : EntityDefinition :=
  ⟨name, parent, some name, [], none, none, none, []⟩

/-- Two branches below one root, declared from the leaves up, and another root. -/
def holdings : Definition :=
  ⟨none, [placed "Atlas" (some "Book"), placed "Map" (some "Item"), placed "Book" (some "Item"),
    placed "Item" none, placed "Reader" none], []⟩

/-- Two entities that extend each other, and a third that extends one of them. -/
def lasso : Definition :=
  ⟨none, [placed "Tail" (some "Left"), placed "Left" (some "Right"), placed "Right" (some "Left")],
    []⟩

theorem lineage_walks_of_holdings :
    holdings.ancestors (placed "Atlas" (some "Book")) =
        .ok [placed "Book" (some "Item"), placed "Item" none] ∧
      holdings.walkDown (placed "Item" none) = some [placed "Map" (some "Item"),
        placed "Book" (some "Item"), placed "Atlas" (some "Book")] ∧
      lasso.ancestors (placed "Tail" (some "Left")) = .error (.invalid (.inheritanceCycle "Tail")) ∧
      lasso.validateWalking.run = some (.error (.invalid (.inheritanceCycle "Tail"))) := by
  have hnames : (holdings.entities.map (·.name)).Nodup := by decide
  have hall : ∀ x ∈ holdings.entities, ∃ as, holdings.ancestors x = .ok as := by
    have hsome : ∀ x ∈ holdings.entities, (holdings.ancestors x).toOption.isSome := by
      decide +kernel
    exact fun x hx => Except.exists_ok_of_isSome (hsome x hx)
  obtain ⟨-, hholdings⟩ := lineage_walks holdings
  obtain ⟨hatlas, -⟩ := hholdings hnames (placed "Atlas" (some "Book")) (by decide)
  obtain ⟨-, -, -, hitem⟩ := hholdings hnames (placed "Item" none) (by decide)
  obtain ⟨hlasso, hcycle⟩ := lineage_walks lasso
  refine ⟨(hatlas _).2 ⟨?_, by decide⟩, (hitem hall).1, ?_, hlasso.trans (by decide +kernel)⟩
  · exact .step ⟨by decide, rfl⟩ (.step ⟨by decide, rfl⟩ (.root rfl))
  · -- the cycle begins behind the entity
    have hback : lasso.Extends (placed "Right" (some "Left")) (placed "Left" (some "Right")) :=
      ⟨by decide, rfl⟩
    have hforth : lasso.Extends (placed "Left" (some "Right")) (placed "Right" (some "Left")) :=
      ⟨by decide, rfl⟩
    exact (hcycle (by decide) _ (by decide)).2.2.1 (placed "Left" (some "Right"))
      (.single ⟨by decide, rfl⟩) (.tail (.single hforth) hback)

end EntityQuery.Definition
