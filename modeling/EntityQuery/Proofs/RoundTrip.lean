import EntityQuery.Json.Definition
import EntityQuery.Proofs.SqlDocuments

/-!
# Documents read back

Statements, SQL statements, from-indexes and definitions are read from the documents that are
written for them, as long as no number in them is infinite or undefined (`documents_round_trip`).
-/

set_option autoImplicit false

namespace EntityQuery

/-! ## From-indexes -/

@[simp] theorem GroupPosition.ofDocument?_toDocument (p : GroupPosition) :
    ofDocument? p.toDocument = some p := by
  cases p <;> simp [ofDocument?, toDocument]

@[simp] theorem GroupLocator.ofDocument?_toDocument (l : GroupLocator) :
    ofDocument? l.toDocument = some l := by
  simp [ofDocument?, toDocument]

@[simp] theorem GroupSource.ofDocument?_toDocument (s : GroupSource) :
    ofDocument? s.toDocument = some s := by
  cases s <;> simp [ofDocument?, toDocument]

@[simp] theorem GroupRef.ofDocument?_toDocument (r : GroupRef) :
    ofDocument? r.toDocument = some r := by
  simp [ofDocument?, toDocument]

theorem insertEntry_last {name : String} {ref : GroupRef} {entries : List (String × GroupRef)}
    (h : ∀ x ∈ aliases entries, x < name) :
    insertEntry name ref entries = entries ++ [(name, ref)] := by
  induction entries with
  | nil => rfl
  | cons entry rest ih =>
    simp only [aliases, List.map_cons, List.forall_mem_cons] at h
    have hlt : ¬ name < entry.1 := Std.not_lt.2 (Std.le_of_lt h.1)
    have hne : name ≠ entry.1 := fun heq => Std.lt_irrefl (heq ▸ h.1)
    rw [insertEntry, if_neg hlt, if_neg hne, ih h.2, List.cons_append]

namespace FromIndex

theorem entries_foldl_insert : ∀ {rest : List (String × GroupRef)} {index : FromIndex},
    (aliases (index.entries ++ rest)).Pairwise (· < ·) →
    (rest.foldl (fun index entry => index.insert entry.1 entry.2) index).entries =
      index.entries ++ rest
  | [], _, _ => by simp
  | entry :: rest, index, h => by
    have hlast : (index.insert entry.1 entry.2).entries = index.entries ++ [entry] := by
      refine insertEntry_last fun x hx => ?_
      simp only [aliases, List.map_append, List.map_cons, List.pairwise_append] at h
      exact h.2.2 x hx entry.1 List.mem_cons_self
    have hrest : (aliases ((index.insert entry.1 entry.2).entries ++ rest)).Pairwise (· < ·) := by
      rwa [hlast, List.append_assoc, List.singleton_append]
    rw [List.foldl_cons, entries_foldl_insert hrest, hlast, List.append_assoc,
      List.singleton_append]

/-- The entries of an index, put into an index one after the other, make up the same index. -/
theorem ofEntries_entries (index : FromIndex) : ofEntries index.entries = index := by
  have hentries : (ofEntries index.entries).entries = index.entries :=
    entries_foldl_insert index.sorted
  cases index
  generalize ofEntries _ = i at hentries
  cases i
  simp_all

theorem entries?_fields (entries : List (String × GroupRef)) :
    entries? (.fields (entries.map fun e => (e.1, e.2.toDocument))) = some entries := by
  rw [entries?]
  induction entries with
  | nil => rfl
  | cons entry rest ih =>
    rw [List.map_cons, List.mapM_cons, ih]
    simp

theorem ofDocument?_toDocument (index : FromIndex) :
    ofDocument? index.toDocument = some index := by
  simp [ofDocument?, toDocument, entries?_fields, ofEntries_entries]

end FromIndex

/-! ## Definitions -/

/-- The document of an alternative gives its kind, and leaves its fields. -/
@[simp] theorem Document.kind?_ofKind (kinds : List String) (kind : String)
    {members : List (String × Document)} (h : "kind" ∉ keys members) :
    kind? kinds (.ofKind kind members) = some (kind, .fields members) := by
  have hother : ∀ member ∈ members, member.1 ≠ "kind" := fun member hmember heq =>
    h (heq ▸ List.mem_map_of_mem hmember)
  have hnone : members.filter (·.1 = "kind") = [] :=
    List.filter_eq_nil_iff.2 fun member hmember => by simpa using hother member hmember
  have hall : members.filter (·.1 ≠ "kind") = members :=
    List.filter_eq_self.2 fun member hmember => by simpa using hother member hmember
  simpa [ofKind, kind?, hnone, kindName?, keyName?] using hall

@[simp ↓] theorem Document.kind?_bind {α : Type} (kinds : List String) (kind : String)
    {members : List (String × Document)} (h : "kind" ∉ keys members)
    (next : String × Document → Option α) :
    ((ofKind kind members).kind? kinds >>= next) = next (kind, .fields members) := by
  rw [kind?_ofKind kinds kind h, Option.bind_eq_bind, Option.bind_some]

@[simp] theorem Document.plain_text (names : List String) (s : String) :
    plain names (.text s) = .text s := by
  rw [plain] <;> simp

@[simp] theorem Document.plain_variant (names : List String) (name : String) {d : Document}
    (h : d.emptyAsNull = d) : plain names (.variant name d) = .variant name d := by
  rw [variant, plain, h]

@[simp] theorem Inheritance.ofDocument?_toDocument (i : Inheritance) :
    ofDocument? i.toDocument = some i := by
  cases i <;> simp [ofDocument?, toDocument, List.lookup_cons]

@[simp] theorem Inheritance.isNull_toDocument (i : Inheritance) : i.toDocument.isNull = false := by
  cases i <;> simp [toDocument]

@[simp] theorem EnumForm.ofDocument?_toDocument (f : EnumForm) :
    ofDocument? f.toDocument = some f := by
  cases f <;> simp [ofDocument?, toDocument, named, List.lookup_cons]

@[simp] theorem EnumForm.isNull_toDocument (f : EnumForm) : f.toDocument.isNull = false := by
  cases f <;> simp [toDocument]

@[simp] theorem ContainerKind.ofSettled?_toDocument (k : ContainerKind) :
    ofSettled? k.toDocument = some k := by
  cases k <;> simp [ofSettled?, ofDocument?, toDocument, named, List.lookup_cons]

@[simp] theorem ContainerKind.emptyAsNull_toDocument (k : ContainerKind) :
    k.toDocument.emptyAsNull = k.toDocument := by
  cases k <;> simp [toDocument, Document.emptyAsNull]

@[simp] theorem CollectionShape.ofSettled?_toDocument (s : CollectionShape) :
    ofSettled? s.toDocument = some s := by
  cases s <;> simp [ofSettled?, read?, toDocument, named, List.lookup_cons]

@[simp] theorem IndexDefinition.ofDocument?_toDocument (d : IndexDefinition) :
    ofDocument? d.toDocument = some d := by
  simp [ofDocument?, toDocument, Document.texts?]

@[simp] theorem IndexDefinition.isNull_toDocument (d : IndexDefinition) :
    d.toDocument.isNull = false := by
  simp [toDocument]

@[simp] theorem BasicDefinition.ofDocument?_fields (d : BasicDefinition) :
    ofDocument? (.fields d.fields) = some d := by
  simp [ofDocument?, fields, Document.texts?]

@[simp] theorem EmbeddedDefinition.ofDocument?_fields (d : EmbeddedDefinition) :
    ofDocument? (.fields d.fields) = some d := by
  simp [ofDocument?, fields]

@[simp] theorem AnyDefinition.ofDocument?_fields (d : AnyDefinition) :
    ofDocument? (.fields d.fields) = some d := by
  simp [ofDocument?, fields]

@[simp] theorem ToOneDefinition.ofDocument?_fields (d : ToOneDefinition) :
    ofDocument? (.fields d.fields) = some d := by
  simp [ofDocument?, fields, Document.texts?]

@[simp] theorem OneToManyDefinition.ofDocument?_fields (d : OneToManyDefinition) :
    ofDocument? (.fields d.fields) = some d := by
  simp [ofDocument?, fields, Document.texts?]

@[simp] theorem ManyToManyDefinition.ofDocument?_fields (d : ManyToManyDefinition) :
    ofDocument? (.fields d.fields) = some d := by
  simp [ofDocument?, fields, Document.texts?]

@[simp] theorem ElementDefinition.ofDocument?_toDocument (d : ElementDefinition) :
    ofDocument? d.toDocument = some d := by
  cases d <;> rw [toDocument, ofDocument?] <;> simp

@[simp] theorem ElementCollectionDefinition.ofDocument?_fields (d : ElementCollectionDefinition) :
    ofDocument? (.fields d.fields) = some d := by
  simp [ofDocument?, fields, Document.texts?]

@[simp] theorem AttributeDefinition.read?_toDocument (d : AttributeDefinition) :
    read? some d.toDocument = some d := by
  cases d with
  | basic d =>
    rw [toDocument, read?,
      Document.kind?_ofKind [] "basic" (by simp [BasicDefinition.fields])]
    simp
  | embedded d =>
    rw [toDocument, read?,
      Document.kind?_ofKind [] "embedded" (by simp [EmbeddedDefinition.fields])]
    simp
  | any d =>
    rw [toDocument, read?,
      Document.kind?_ofKind [] "any" (by simp [AnyDefinition.fields])]
    simp
  | manyToOne d =>
    rw [toDocument, read?,
      Document.kind?_ofKind [] "many_to_one" (by simp [ToOneDefinition.fields])]
    simp
  | oneToOne d =>
    rw [toDocument, read?,
      Document.kind?_ofKind [] "one_to_one" (by simp [ToOneDefinition.fields])]
    simp
  | oneToMany d =>
    rw [toDocument, read?,
      Document.kind?_ofKind [] "one_to_many" (by simp [OneToManyDefinition.fields])]
    simp
  | manyToMany d =>
    rw [toDocument, read?,
      Document.kind?_ofKind [] "many_to_many" (by simp [ManyToManyDefinition.fields])]
    simp
  | elementCollection d =>
    rw [toDocument, read?,
      Document.kind?_ofKind [] "element_collection" (by simp [ElementCollectionDefinition.fields])]
    simp

@[simp] theorem IdentifierDefinition.read?_toDocument (d : IdentifierDefinition) :
    read? Document.slots d.toDocument = some d := by
  simp [read?, toDocument, Document.texts?]

@[simp] theorem IdentifierDefinition.isNull_toDocument (d : IdentifierDefinition) :
    d.toDocument.isNull = false := by
  simp [toDocument]

@[simp] theorem EntityDefinition.read?_toDocument (d : EntityDefinition) :
    read? .json d.toDocument = some d := by
  have hlayout : Format.json.layout = Document.slots := rfl
  rw [toDocument, read?, hlayout]
  simp [Format.json, Document.texts?]

@[simp] theorem EmbeddableDefinition.read?_toDocument (d : EmbeddableDefinition) :
    read? .json d.toDocument = some d := by
  have hlayout : Format.json.layout = Document.slots := rfl
  rw [toDocument, read?, hlayout]
  simp [Format.json]

theorem Definition.ofDocument?_toDocument (d : Definition) :
    ofDocument? d.toDocument = some d := by
  have hlayout : Format.json.layout = Document.slots := rfl
  rw [toDocument, ofDocument?, read?, hlayout]
  simp

/-! ## Round trips -/

/-- Statements and SQL statements without infinite or undefined numbers, from-indexes and
definitions are read from the documents that are written for them. -/
theorem documents_round_trip (s : Statement) (t : Sql.Statement) (i : FromIndex) (d : Definition) :
    (Literal.AllFinite s.literals → Statement.ofDocument? s.toDocument = some s) ∧
    (Literal.AllFinite t.literals → Sql.Statement.ofDocument? t.toDocument = some t) ∧
    FromIndex.ofDocument? i.toDocument = some i ∧
    Definition.ofDocument? d.toDocument = some d :=
  ⟨Statement.ofDocument?_toDocument, Sql.Statement.ofDocument?_toDocument,
    i.ofDocument?_toDocument, d.ofDocument?_toDocument⟩

/-- The items for less than a tenth, as a list with their price. -/
def cheapItems : Statement :=
  .select ⟨⟨[⟨⟨"Item", some "i"⟩, [⟨none, .left, .attributeOf "i" "tags", true,
      some (.isEmpty ⟨"i", ["tags"]⟩ true)⟩]⟩]⟩,
    some ⟨true, [⟨.instantiation .list [⟨.expression (.path ⟨"i", ["price"]⟩), some "p"⟩], none⟩]⟩,
    some (.relational (.path ⟨"i", ["price"]⟩) .lessThan (.literal (.double ⟨0x3FB999999999999A⟩))),
    some [⟨.arithmetic (.element "i") .multiply (.literal (.float ⟨0x3DCCCCCD⟩)) none,
      .descending⟩]⟩

/-- The deletion of the items whose price is a tenth. -/
def cheapRows : Sql.Statement :=
  .delete ⟨⟨[⟨⟨"i1", .entity "Item", ⟨⟨0⟩, .physical "items", "i1_0"⟩, [], 0⟩, []⟩]⟩,
    some (.negated (.among (.literal ⟨.plain (.double ⟨0x3FB999999999999A⟩), none⟩)
      ⟨false, [⟨.expression (.column ⟨"i2_0", .column "price", SqlCode.double, none⟩), none⟩],
        ⟨[⟨⟨"i2", .entity "Item", ⟨⟨0⟩, .physical "items", "i2_0"⟩, [], 0⟩, []⟩]⟩, none, []⟩
      false)), []⟩

theorem cheap_items_round_trip :
    Literal.AllFinite cheapItems.literals ∧ Literal.AllFinite cheapRows.literals ∧
      Statement.ofDocument? cheapItems.toDocument = some cheapItems ∧
      Sql.Statement.ofDocument? cheapRows.toDocument = some cheapRows := by
  have hitems : Literal.AllFinite cheapItems.literals := by decide +kernel
  have hrows : Literal.AllFinite cheapRows.literals := by decide +kernel
  obtain ⟨hstatement, hsql, -⟩ := documents_round_trip cheapItems cheapRows .empty ⟨none, [], []⟩
  exact ⟨hitems, hrows, hstatement hitems, hsql hrows⟩

end EntityQuery
