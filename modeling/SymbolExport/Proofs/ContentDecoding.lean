import SymbolExport.Proofs.Presentation
import SymbolExport.Shape.Decode

/-! # Decoding written values from content

A value that is read before its shape is known loses nothing: the content of its JSON value decodes
to it. For a structure the entries are taken one after the other, and an entry changes only the slot
that it names, so the slots are filled from the first field on.
-/

namespace SymbolExport

open Json

namespace Content

theorem ofItems_eq (vs : List Json) : ofItems vs = vs.map ofJson := by
  induction vs with
  | nil => rfl
  | cons v vs ih => rw [ofItems, ih, List.map_cons]

theorem ofFields_eq (fields : List (String × Json)) :
    ofFields fields = fields.map fun field => (.text field.1, ofJson field.2) := by
  induction fields with
  | nil => rfl
  | cons field fields ih => rw [ofFields, ih, List.map_cons]

end Content

theorem mapM_ok {α β : Type} {f : α → Except Cause β} {g : β → α} {bs : List β}
    (each : ∀ b ∈ bs, f (g b) = .ok b) : (bs.map g).mapM f = .ok bs := by
  induction bs with
  | nil => rfl
  | cons b bs ih =>
      rw [List.forall_mem_cons] at each
      rw [List.map_cons, List.mapM_cons, each.1, ih each.2]
      rfl

namespace Fields

theorem key_mem_names : (fields : Fields) → (v : fields.Value) →
    ∀ field ∈ fields.toFields v, field.1 ∈ fields.names
  | .nil, (), _, within => nomatch within
  | .required _ _ others, (_, rest), field, within => by
      rcases List.mem_cons.mp within with rfl | within
      · exact List.mem_cons_self
      · exact List.mem_cons_of_mem _ (others.key_mem_names rest field within)
  | .defaulted _ _ others, (none, rest), field, within =>
      List.mem_cons_of_mem _ (others.key_mem_names rest field within)
  | .defaulted _ _ others, (some _, rest), field, within => by
      rcases List.mem_cons.mp within with rfl | within
      · exact List.mem_cons_self
      · exact List.mem_cons_of_mem _ (others.key_mem_names rest field within)

theorem key_ne (fields : Fields) {name : String} (fresh : name ∉ fields.names) (v : fields.Value) :
    ∀ field ∈ fields.toFields v, field.1 ≠ name :=
  fun field within same => fresh (same ▸ fields.key_mem_names v field within)

/-- The slots of a structure once all of its fields have been seen. -/
def slotsOf : (fields : Fields) → fields.Value → fields.Slots
  | .nil, () => ()
  | .required _ _ others, (v, rest) => (some v, others.slotsOf rest)
  | .defaulted _ _ others, (v, rest) => (v, others.slotsOf rest)

theorem complete_slotsOf : (fields : Fields) → (v : fields.Value) →
    fields.complete (fields.slotsOf v) = .ok v
  | .nil, () => rfl
  | .required _ _ others, (v, rest) => by rw [slotsOf, complete, others.complete_slotsOf rest]; rfl
  | .defaulted _ _ others, (v, rest) => by rw [slotsOf, complete, others.complete_slotsOf rest]; rfl

/-- Takes one field of a JSON object into the slots. -/
def take (fields : Fields) (slots : fields.Slots) (field : String × Json) :
    Except Cause fields.Slots :=
  fields.decodeField (.name field.1) (.ofJson field.2) slots

theorem take_first (name : String) {shape : Shape} {others : Fields} {v : Json} {w : shape.Value}
    (decoded : shape.decode (.ofJson v) = .ok w) (slots : others.Slots) :
    (defaulted name shape others).take (none, slots) (name, v) = .ok (some w, slots) := by
  have hit : (FieldKey.name name).hits name = true := decide_eq_true rfl
  rw [take, decodeField, if_pos hit, decoded]
  rfl

/-- Fields of other names leave the first slot as it is. -/
theorem foldlM_take_behind {name : String} {shape : Shape} {others : Fields}
    (slot : Option shape.Value) (slots : others.Slots) {given : List (String × Json)}
    (other : ∀ field ∈ given, field.1 ≠ name) :
    given.foldlM (defaulted name shape others).take (slot, slots) =
      (given.foldlM others.take slots).map fun rest => (slot, rest) := by
  induction given generalizing slots with
  | nil => rfl
  | cons field given ih =>
      rw [List.forall_mem_cons] at other
      have miss : ¬(FieldKey.name field.1).hits name = true := by
        simpa [FieldKey.hits] using other.1
      have step : (defaulted name shape others).take (slot, slots) field =
          (others.take slots field).map fun rest => (slot, rest) := by
        change (if (FieldKey.name field.1).hits name then _ else _) = _
        rw [if_neg miss]
        cases taken : others.take slots field with
        | error cause => exact congrArg (· >>= _) taken
        | ok rest => exact congrArg (· >>= _) taken
      rw [List.foldlM_cons, List.foldlM_cons, step]
      cases others.take slots field with
      | error cause => rfl
      | ok slots => exact ih slots other.2

end Fields

theorem Content.ofJson_ne_null {v : Json} (h : v ≠ .null) : ofJson v ≠ .null := by
  cases v with
  | null => exact absurd rfl h
  | int n =>
      rw [ofJson, ofWideInt]
      split <;> simp
  | _ => simp [ofJson]

theorem Shape.toJson_ne_null : (shape : Shape) → shape.nullFree = true → (v : shape.Value) →
    shape.toJson v ≠ .null
  | .text, _, _ => by simp [Shape.toJson]
  | .flag, _, _ => by simp [Shape.toJson]
  | .count, _, _ => by simp [Shape.toJson, Json.ofNat]
  | .choice _, _, _ => by simp [Shape.toJson]
  | .list _, _, _ => by simp [Shape.toJson]
  | .struct _ _, _, _ => by simp [Shape.toJson]

theorem Shape.decode_count {n : Nat} (small : n < 18446744073709551616) :
    Shape.count.decode (.ofJson (.ofNat n)) = .ok n := by
  have word : (UInt64.ofNat n).toNat = n := UInt64.toNat_ofNat_of_lt' small
  have positive : 0 ≤ (WideInt.ofUInt64 (UInt64.ofNat n)).val := Int.natCast_nonneg _
  have content : Content.ofJson (.ofNat n) = .uint (UInt64.ofNat n) := by
    rw [Json.ofNat, Content.ofJson, Content.ofWideInt, if_pos positive]
    exact congrArg Content.uint (UInt64.ofNat_toNat)
  rw [content]
  exact congrArg Except.ok word

theorem Shape.decode_optional {inner : Shape} {v : Json} (present : v ≠ .null) :
    (Shape.optional inner).decode (.ofJson v) = (inner.decode (.ofJson v)).map some := by
  rw [Shape.decode]
  · cases inner.decode (.ofJson v) <;> rfl
  · exact Content.ofJson_ne_null present

mutual

/-- The content of a written value decodes to that value. -/
theorem Shape.decode_toJson : (shape : Shape) → (v : shape.Value) → shape.Distinct →
    shape.Canonical v → shape.decode (.ofJson (shape.toJson v)) = .ok v
  | .text, _, _, _ => rfl
  | .flag, _, _, _ => rfl
  | .count, _, _, small => Shape.decode_count small
  | .choice names, i, distinct, _ => by
      rw [Shape.toJson, Content.ofJson, Shape.decode, decodeChoice, decodeChoice.known, distinct i]
      rfl
  | .optional _, none, _, _ => rfl
  | .optional inner, some v, ⟨notNull, distinct⟩, canonical => by
      have decoded := inner.decode_toJson v distinct (canonical v rfl)
      rw [Shape.toJson, Shape.decode_optional (inner.toJson_ne_null notNull v), decoded]
      rfl
  | .list item, vs, distinct, canonical => by
      rw [Shape.toJson, Content.ofJson, Shape.decode, Content.ofItems_eq, List.map_map]
      exact mapM_ok fun v within => item.decode_toJson v distinct (canonical v within)
  | .value, v, _, canonical => by
      rw [Shape.toJson, Shape.decode, Content.toJson?_ofJson]
      exact congrArg Except.ok canonical.ofJson_toJson
  | .struct _ fields, v, distinct, canonical => by
      have taken := fields.take_toFields v distinct canonical
      rw [Shape.toJson, Content.ofJson, Shape.decode, Content.ofFields_eq, List.foldlM_map]
      change ((fields.toFields v).foldlM fields.take fields.noSlots >>= _) = _
      simp only [taken, bind, Except.bind, fields.complete_slotsOf v]
      rfl

theorem Fields.take_toFields : (fields : Fields) → (v : fields.Value) → fields.Distinct →
    fields.Canonical v →
    (fields.toFields v).foldlM fields.take fields.noSlots = .ok (fields.slotsOf v)
  | .nil, (), _, _ => rfl
  | .required name shape others, (v, rest), ⟨fresh, distinct, distincts⟩,
      ⟨canonical, canonicals⟩ => by
      have first := Fields.take_first name (shape.decode_toJson v distinct canonical)
        others.noSlots
      have behind := Fields.foldlM_take_behind (some v) others.noSlots (others.key_ne fresh rest)
      rw [others.take_toFields rest distincts canonicals] at behind
      rw [Fields.toFields, List.foldlM_cons]
      change (Fields.take (.defaulted name shape others) (none, others.noSlots) _ >>= _) = _
      rw [first]
      exact behind
  | .defaulted name shape others, (none, rest), ⟨fresh, _, distincts⟩, ⟨_, canonicals⟩ => by
      have behind := @Fields.foldlM_take_behind name shape others none others.noSlots _
        (others.key_ne fresh rest)
      rw [others.take_toFields rest distincts canonicals] at behind
      exact behind
  | .defaulted name shape others, (some v, rest), ⟨fresh, distinct, distincts⟩,
      ⟨canonical, canonicals⟩ => by
      have first := Fields.take_first name
        (shape.decode_toJson v distinct (canonical v rfl)) others.noSlots
      have behind := Fields.foldlM_take_behind (some v) others.noSlots (others.key_ne fresh rest)
      rw [others.take_toFields rest distincts canonicals] at behind
      rw [Fields.toFields, List.foldlM_cons]
      change (Fields.take (.defaulted name shape others) (none, others.noSlots) _ >>= _) = _
      rw [first]
      exact behind

end

end SymbolExport
