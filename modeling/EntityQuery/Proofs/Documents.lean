import EntityQuery.Json.Mapping
import EntityQuery.Json.Metamodel
import EntityQuery.Json.Statement
import EntityQuery.Proofs.Widening
import Mathlib.Data.List.Nodup

/-!
# Reading what was written

What the readers of scalars, lists, records and sums find in the documents that are written for
them. A record is found in an object with its fields in order (`Document.slots_fields`), and a value
that may be missing is found again when its document does not say that there is nothing
(`Slot.optional_option`). These are rewrite rules, so that readers that are put together from others
are worked out on their documents. Readers that are built up in layers read documents as deep as
they have layers (`Document.Reads.within`).
-/

set_option autoImplicit false

namespace EntityQuery

namespace Document

variable {α : Type} {f : Reader α} {g : α → Document}

/-! ## Scalars -/

@[simp] theorem text?_text (s : String) : text? (.text s) = some s := by rw [text?]

@[simp] theorem bool?_bool (b : Bool) : bool? (.bool b) = some b := by rw [bool?]

@[simp] theorem int?_int (n : Int) : int? (.int n) = some n := by
  simp only [int, Number.ofInt, int?, decide_eq_true_eq]
  congr 1
  split <;> omega

@[simp] theorem int?_nat (n : Nat) : int? (.nat n) = some (n : Int) := by simp [nat, int?]

@[simp] theorem nat?_nat (n : Nat) : nat? (.nat n) = some n := by simp [nat?]

@[simp] theorem int32?_int (n : Int32) : int32? (.int n.toInt) = some n := by
  have hrange : -0x80000000 ≤ n.toInt ∧ n.toInt < 0x80000000 := ⟨n.le_toInt, n.toInt_lt⟩
  rw [int32?, int?_int, Option.bind_eq_bind, Option.bind_some, if_pos hrange, Int32.ofInt_toInt]

@[simp] theorem int32?_code (c : SqlCode) : int32? (.code c) = some c := int32?_int c

@[simp] theorem int64?_int (n : Int64) : int64? (.int n.toInt) = some n := by
  have hrange : -0x8000000000000000 ≤ n.toInt ∧ n.toInt < 0x8000000000000000 :=
    ⟨n.le_toInt, n.toInt_lt⟩
  rw [int64?, int?_int, Option.bind_eq_bind, Option.bind_some, if_pos hrange, Int64.ofInt_toInt]

@[simp] theorem uint32?_nat (n : UInt32) : uint32? (.nat n.toNat) = some n := by
  have hlt := n.toNat_lt
  have hrange : 0 ≤ (n.toNat : Int) ∧ (n.toNat : Int) < 0x100000000 := by omega
  rw [uint32?, int?_nat, Option.bind_eq_bind, Option.bind_some, if_pos hrange, Int.toNat_natCast,
    UInt32.ofNat_toNat]

@[simp] theorem char?_text (c : Char) : char? (.text (.singleton c)) = some c := by simp [char?]

theorem binary64?_toDocument {x : Binary64} (h : x.isFinite) :
    binary64? x.toDocument = some x := by
  simp [Binary64.toDocument, binary64?, h]

theorem binary32?_toDocument {x : Binary32} (h : x.isFinite) :
    binary32? x.toDocument = some x := by
  simp [Binary32.toDocument, Binary64.toDocument, binary32?, Binary32.isFinite_widen h,
    Binary32.narrow_widen h]

/-! ## Documents that hold something -/

@[simp] theorem isNull_text (s : String) : (text s).isNull = false := by simp [isNull]

@[simp] theorem isNull_bool (b : Bool) : (bool b).isNull = false := by simp [isNull]

@[simp] theorem isNull_int (n : Int) : (int n).isNull = false := by simp [int, isNull]

@[simp] theorem isNull_code (c : SqlCode) : (code c).isNull = false := by
  simp [code, int, isNull]

@[simp] theorem isNull_texts (xs : List String) : (texts xs).isNull = false := by
  simp [texts, isNull]

@[simp] theorem isNull_fields (members : List (String × Document)) :
    (fields members).isNull = false := by simp [isNull]

@[simp] theorem isNull_variant (name : String) (d : Document) :
    (variant name d).isNull = false := by simp [variant, isNull]

/-! ## Lists -/

@[simp] theorem list?_list (f : Reader α) (items : List Document) :
    list? f (.list items) = readAll f items := rfl

@[simp] theorem readAll_map {xs : List α} (h : ∀ a ∈ xs, f (g a) = some a) :
    readAll f (xs.map g) = some xs := by
  induction xs with
  | nil => rfl
  | cons x xs ih =>
    rw [List.forall_mem_cons] at h
    simp [readAll, h.1, ih h.2]

@[simp] theorem list?_texts (xs : List String) : list? text? (.texts xs) = some xs := by
  simp [texts]

/-! ## Values that may be missing -/

/-- A value that may be missing is found again, unless its document says that there is nothing. -/
theorem option?_option {x : Option α} (hread : ∀ a ∈ x, f (g a) = some a)
    (hpresent : ∀ a ∈ x, (g a).isNull = false) : option? f (.option g x) = some x := by
  cases x with
  | none => rfl
  | some a => simp [option?, option, hread, hpresent]

/-! ## Records -/

/-- The members of an object without repeated keys are looked up by their keys. -/
theorem lookup_of_mem {members : List (String × Document)} (hnodup : (keys members).Nodup)
    {member : String × Document} (h : member ∈ members) :
    members.lookup member.1 = some member.2 := by
  induction members with
  | nil => cases h
  | cons first rest ih =>
    rw [keys, List.map_cons, List.nodup_cons] at hnodup
    rcases List.mem_cons.1 h with rfl | hrest
    · rw [List.lookup_cons_self]
    · have hne : member.1 ≠ first.1 := fun heq => hnodup.1 (heq ▸ List.mem_map_of_mem hrest)
      rw [List.lookup_cons, beq_eq_false_iff_ne.2 hne]
      exact ih hnodup.2 hrest

/-- An object with the first fields of a record in order gives each of them its own value; the other
fields find none. -/
theorem slotsOf_of_keys {names : List String} (members : List (String × Document))
    (rest : List String) (hkeys : keys members ++ rest = names) (hnodup : names.Nodup) :
    slotsOf names members = some (members.map (.given ·.2) ++ rest.map fun _ => .absent) := by
  subst hkeys
  obtain ⟨hmembers, -, hdisjoint⟩ := List.nodup_append.1 hnodup
  have hrepeats : repeats (keys members ++ rest) members = false := by
    refine List.any_eq_false.2 fun name _ => ?_
    simpa using List.nodup_iff_count_le_one.1 hmembers name
  have hgiven : (keys members).map (slotOf members) = members.map (.given ·.2) := by
    rw [keys, List.map_map]
    refine List.map_congr_left fun member hmember => ?_
    simp only [Function.comp, slotOf, lookup_of_mem hmembers hmember]
  have habsent : rest.map (slotOf members) = rest.map fun _ => .absent := by
    refine List.map_congr_left fun name hname => ?_
    have hlookup : members.lookup name = none := by
      refine List.lookup_eq_none_iff.2 fun member hmember => bne_iff_ne.2 fun heq => ?_
      exact hdisjoint member.1 (List.mem_map_of_mem hmember) name hname heq.symm
    simp only [slotOf, hlookup]
  simp only [slotsOf, hrepeats, List.map_append, hgiven, habsent]
  rfl

@[simp] theorem slots_fields {names : List String} {members : List (String × Document)}
    (hkeys : keys members = names) (hnodup : names.Nodup) :
    slots names (.fields members) = some (members.map (.given ·.2)) := by
  have hslots := slotsOf_of_keys members [] (by rwa [List.append_nil]) hnodup
  rwa [List.map_nil, List.append_nil] at hslots

@[simp] theorem namedSlots_fields {names : List String} {members : List (String × Document)}
    (hkeys : keys members = names) (hnodup : names.Nodup) :
    namedSlots names (.fields members) = some (members.map (.given ·.2)) :=
  slots_fields hkeys hnodup

/-- The reader of a record goes on with the values that are written, before it is looked at what it
would do with any others. -/
@[simp ↓] theorem slots_bind {names : List String} {members : List (String × Document)}
    (hkeys : keys members = names) (hnodup : names.Nodup) (next : List Slot → Option α) :
    (slots names (.fields members) >>= next) = next (members.map (.given ·.2)) := by
  rw [slots_fields hkeys hnodup, Option.bind_eq_bind, Option.bind_some]

@[simp ↓] theorem namedSlots_bind {names : List String} {members : List (String × Document)}
    (hkeys : keys members = names) (hnodup : names.Nodup) (next : List Slot → Option α) :
    (namedSlots names (.fields members) >>= next) = next (members.map (.given ·.2)) :=
  slots_bind hkeys hnodup next

attribute [simp] keys

/-! ## Sums -/

@[simp] theorem variant?_text (name : String) : (text name).variant? = some (name, none) := rfl

@[simp] theorem variant?_variant (name : String) (d : Document) :
    (variant name d).variant? = some (name, some d) := rfl

/-- The reader of a sum goes on with the variant that is written, before its other variants are
looked at. -/
@[simp ↓] theorem variant?_bind (name : String) (d : Document)
    (next : String × Option Document → Option α) :
    ((variant name d).variant? >>= next) = next (name, some d) := by
  rw [variant?_variant, Option.bind_eq_bind, Option.bind_some]

@[simp] theorem enum?_text (values : List (String × α)) (name : String) :
    enum? values (.text name) = values.lookup name := by
  simp [enum?, plainVariant?]

/-- A variant that carries something is no value of an enumeration. -/
@[simp] theorem enum?_variant (values : List (String × α)) (name : String) {d : Document}
    (h : d.isNull = false) : enum? values (.variant name d) = none := by
  cases d <;> simp_all [enum?, plainVariant?, isNull]

/-! ## Depth -/

theorem depth_le_depthItems {items : List Document} {d : Document} (h : d ∈ items) :
    d.depth ≤ depthItems items := by
  induction items with
  | nil => cases h
  | cons first rest ih =>
    rw [depthItems]
    rcases List.mem_cons.1 h with rfl | hrest
    · exact le_max_left ..
    · exact (ih hrest).trans (le_max_right ..)

/-- Good values are read by `part` from their documents, when these are at most `n` deep. -/
def Reads (write : α → Document) (good : α → Prop) (part : Reader α) (n : Nat) : Prop :=
  ∀ a, good a → (write a).depth ≤ n → part (write a) = some a

section

variable {write : α → Document} {good : α → Prop}

theorem Reads.all {part : Reader α} {n : Nat} (h : Reads write good part n) {as : List α}
    (hgood : ∀ a ∈ as, good a) (hdepth : depthItems (as.map write) ≤ n) :
    readAll part (as.map write) = some as :=
  readAll_map fun a ha =>
    h a (hgood a ha) ((depth_le_depthItems (List.mem_map_of_mem ha)).trans hdepth)

/-- Readers that are built up layer by layer read documents as deep as they have layers, when every
layer reads a value whose parts are read by the layers below. -/
theorem Reads.within {w : Nat → Reader α} {layer : Reader α → Reader α}
    (hw : ∀ n, w (n + 1) = layer (w n)) (hpos : ∀ a, 0 < (write a).depth)
    (hlayer : ∀ {part n}, Reads write good part n → ∀ a, good a → (write a).depth ≤ n + 1 →
      layer part (write a) = some a) : ∀ n, Reads write good (w n) n
  | 0 => fun a _ hdepth => absurd hdepth (Nat.not_le.2 (hpos a))
  | n + 1 => fun a hgood hdepth => by
    rw [hw]
    exact hlayer (within hw hpos hlayer n) a hgood hdepth

end

end Document

namespace Slot

variable {α : Type} {f : Reader α} {g : α → Document}

@[simp] theorem required_given (f : Reader α) (d : Document) : required f (.given d) = f d := by
  rw [required]

@[simp] theorem orElse_given (default : α) (f : Reader α) (d : Document) :
    orElse default f (.given d) = f d := by
  rw [orElse]

@[simp] theorem optional_option {x : Option α} (hread : ∀ a ∈ x, f (g a) = some a)
    (hpresent : ∀ a ∈ x, (g a).isNull = false) :
    optional f (.given (.option g x)) = some x :=
  Document.option?_option hread hpresent

@[simp] theorem nullable_option {x : Option α} (hread : ∀ a ∈ x, f (g a) = some a)
    (hpresent : ∀ a ∈ x, (g a).isNull = false) :
    nullable f (.given (.option g x)) = some x :=
  Document.option?_option hread hpresent

end Slot

/-! ## Types -/

@[simp] theorem EnumStorage.read?_toDocument (s : EnumStorage) :
    read? Document.namedSlots s.toDocument = some s := by
  cases s <;> simp [read?, toDocument]

@[simp] theorem EnumStorage.isNull_toDocument (s : EnumStorage) : s.toDocument.isNull = false := by
  cases s <;> simp [toDocument]

@[simp] theorem ValueType.read?_toDocument (t : ValueType) :
    read? Document.namedSlots t.toDocument = some t := by
  cases t <;> simp [read?, toDocument, plain, List.lookup_cons]

@[simp] theorem BasicType.read?_toDocument (t : BasicType) :
    read? Document.namedSlots t.toDocument = some t := by
  obtain ⟨valueType, sqlCode, converter⟩ := t
  cases converter with
  | none =>
    have hslots : (toDocument ⟨valueType, sqlCode, none⟩).slots
        ["java_type", "sql_type_code", "converter"] =
          some [.given valueType.toDocument, .given (.code sqlCode), .absent] :=
      Document.slotsOf_of_keys
        [("java_type", valueType.toDocument), ("sql_type_code", .code sqlCode)] ["converter"] rfl
        (by simp)
    simp [read?, hslots, Slot.optional, Slot.orElse]
  | some c => simp [read?, toDocument, Slot.optional, Document.option?]

@[simp] theorem BasicType.isNull_toDocument (t : BasicType) : t.toDocument.isNull = false := by
  rw [toDocument, Document.isNull_fields]

@[simp] theorem AnyType.read?_toDocument (t : AnyType) :
    read? Document.namedSlots t.toDocument = some t := by
  simp [read?, toDocument]

@[simp] theorem DomainType.read?_toDocument (t : DomainType) :
    read? Document.namedSlots t.toDocument = some t := by
  cases t <;> simp [read?, toDocument]

@[simp] theorem DomainType.isNull_toDocument (t : DomainType) : t.toDocument.isNull = false := by
  cases t <;> simp [toDocument]

end EntityQuery
