import SymbolExport.Proofs.DecodedValues
import SymbolExport.Proofs.SnapshotLookup

/-!
# Encoding decoded snapshots

A snapshot that was read from any text and holds no float is read again from the text that is
written for it, so writing is settled after the first reading. What has to be shown besides the form
of the values is that the written text stays within the depth limit: it may have fields that the
text before did not have, but these are nested no deeper than the shape of a snapshot tells.
-/

namespace SymbolExport

open Json

mutual

/-- How deep the containers of a shape are nested, those inside its runtime values aside. -/
def Shape.height : Shape → Nat
  | .optional inner => inner.height
  | .list item => item.height + 1
  | .struct _ fields => fields.height + 1
  | .text => 0
  | .flag => 0
  | .count => 0
  | .choice _ => 0
  | .value => 0

def Fields.height : Fields → Nat
  | .nil => 0
  | .required _ shape others => max shape.height others.height
  | .defaulted _ shape others => max shape.height others.height

end

mutual

/-- A value is written within a depth if its shape and its runtime values are. -/
theorem Shape.nesting_toJson_le : (shape : Shape) → (depth : Nat) → (v : shape.Value) →
    shape.height ≤ depth → shape.Every (fun d v => v.toJson.nesting ≤ d) depth v →
    (shape.toJson v).nesting ≤ depth
  | .text, depth, _, _, _ => Nat.zero_le depth
  | .flag, depth, _, _, _ => Nat.zero_le depth
  | .count, depth, _, _, _ => Nat.zero_le depth
  | .choice _, depth, _, _, _ => Nat.zero_le depth
  | .value, _, _, _, every => every
  | .optional _, depth, none, _, _ => Nat.zero_le depth
  | .optional inner, depth, some v, low, every => inner.nesting_toJson_le depth v low (every v rfl)
  | .list item, depth, vs, low, every => by
      rw [Shape.height] at low
      have each : ∀ json ∈ vs.map item.toJson, json.nesting ≤ depth - 1 := by
        intro json within
        obtain ⟨v, listed, rfl⟩ := List.mem_map.1 within
        exact item.nesting_toJson_le (depth - 1) v (by omega) (every v listed)
      have := nesting_list_le each
      rw [Shape.toJson]
      omega
  | .struct _ fields, depth, v, low, every => by
      rw [Shape.height] at low
      have each := fields.nesting_toFields_le (depth - 1) v (by omega) every
      have := nesting_object_le each
      rw [Shape.toJson]
      omega

theorem Fields.nesting_toFields_le : (fields : Fields) → (depth : Nat) → (v : fields.Value) →
    fields.height ≤ depth → fields.Every (fun d v => v.toJson.nesting ≤ d) depth v →
    ∀ field ∈ fields.toFields v, field.2.nesting ≤ depth
  | .nil, _, _, _, _ => List.forall_mem_nil _
  | .required _ shape others, depth, (v, rest), low, every => by
      rw [Fields.height] at low
      rw [Fields.toFields, List.forall_mem_cons]
      exact ⟨shape.nesting_toJson_le depth v (by omega) every.1,
        others.nesting_toFields_le depth rest (by omega) every.2⟩
  | .defaulted _ _ others, depth, (none, rest), low, every => by
      rw [Fields.height] at low
      exact others.nesting_toFields_le depth rest (by omega) every.2
  | .defaulted _ shape others, depth, (some v, rest), low, every => by
      rw [Fields.height] at low
      rw [Fields.toFields, List.forall_mem_cons]
      exact ⟨shape.nesting_toJson_le depth v (by omega) (every.1 v rfl),
        others.nesting_toFields_le depth rest (by omega) every.2⟩

end

section Plain

variable {p : Nat → RuntimeValue → Prop}

mutual

theorem Shape.every_of_plain : (shape : Shape) → shape.plain = true → (depth : Nat) →
    (v : shape.Value) → shape.Every p depth v
  | .optional inner, plain, depth, _ => fun w _ => inner.every_of_plain plain depth w
  | .list item, plain, depth, _ => fun v _ => item.every_of_plain plain (depth - 1) v
  | .struct _ fields, plain, depth, v => fields.every_of_plain plain (depth - 1) v
  | .text, _, _, _ => trivial
  | .flag, _, _, _ => trivial
  | .choice _, _, _, _ => trivial

theorem Fields.every_of_plain : (fields : Fields) → fields.plain = true → (depth : Nat) →
    (v : fields.Value) → fields.Every p depth v
  | .nil, _, _, _ => trivial
  | .required _ shape others, plain, depth, (v, rest) => by
      rw [Fields.plain, Bool.and_eq_true] at plain
      exact ⟨shape.every_of_plain plain.1 depth v, others.every_of_plain plain.2 depth rest⟩
  | .defaulted _ shape others, plain, depth, (_, rest) => by
      rw [Fields.plain, Bool.and_eq_true] at plain
      exact ⟨fun w _ => shape.every_of_plain plain.1 depth w,
        others.every_of_plain plain.2 depth rest⟩

end

end Plain

namespace RuntimeSnapshot

def values (s : RuntimeSnapshot) : List RuntimeValue :=
  s.vars.map (·.value) ++ s.constants.map (·.value)

/-- A value stands inside the snapshot, a list and a descriptor. -/
theorem every_pack {p : Nat → RuntimeValue → Prop} {s : RuntimeSnapshot} {depth : Nat}
    (all : ∀ v ∈ s.values, p (depth - 3) v) :
    (shapeOf RuntimeSnapshot).Every p depth (pack s) := by
  have classes : (shapeOf ClassDescriptor).plain = true := rfl
  refine ⟨?_, ?_, ?_, ?_, trivial⟩
  · rintro _ ⟨⟩ _ _
    trivial
  · rintro _ ⟨⟩ d _
    exact Shape.every_of_plain _ classes _ d
  · rintro _ ⟨⟩ _ within
    obtain ⟨d, listed, rfl⟩ := List.mem_map.mp within
    refine ⟨trivial, ?_, trivial⟩
    rintro _ ⟨⟩
    exact all d.value (List.mem_append_left _ (List.mem_map_of_mem listed))
  · rintro _ ⟨⟩ _ within
    obtain ⟨d, listed, rfl⟩ := List.mem_map.mp within
    refine ⟨trivial, ?_, trivial⟩
    rintro _ ⟨⟩
    exact all d.value (List.mem_append_right _ (List.mem_map_of_mem listed))

/-- The values of descriptors that were read, where one that is missing is null. -/
theorem getD_of_slot {p : RuntimeValue → Prop} (null : p .null)
    {slot : Option (List (String × Option RuntimeValue × Unit))}
    (all : ∀ ws ∈ slot, ∀ w ∈ ws, ∀ v ∈ w.2.1, p v) :
    ∀ w ∈ slot.getD [], p (w.2.1.getD .null) := by
  intro w within
  cases slot with
  | none => cases within
  | some ws =>
      cases value : w.2.1 with
      | none => exact null
      | some v => exact all ws rfl w within v value

theorem every_unpack {p : Nat → RuntimeValue → Prop} {depth : Nat} (null : p (depth - 3) .null)
    {w : (shapeOf RuntimeSnapshot).Value} (every : (shapeOf RuntimeSnapshot).Every p depth w) :
    ∀ v ∈ (unpack w : RuntimeSnapshot).values, p (depth - 3) v := by
  obtain ⟨functions, classes, vars, constants, _⟩ := w
  obtain ⟨_, _, everyVar, everyConstant, _⟩ := every
  intro v within
  rcases List.mem_append.1 within with var | constant
  · obtain ⟨_, listed, rfl⟩ := List.mem_map.1 var
    obtain ⟨w, read, rfl⟩ := List.mem_map.1 listed
    exact getD_of_slot null (fun ws here w within => (everyVar ws here w within).2.1) w read
  · obtain ⟨_, listed, rfl⟩ := List.mem_map.1 constant
    obtain ⟨w, read, rfl⟩ := List.mem_map.1 listed
    exact getD_of_slot null (fun ws here w within => (everyConstant ws here w within).2.1) w read

theorem decoded_values {input : Bytes} {s : RuntimeSnapshot} (decoded : ofJsonBytes input = .ok s) :
    ∀ v ∈ s.values, v.Decoded (depthLimit - 3) := by
  obtain ⟨w, rfl, every⟩ := every_of_ofJsonBytes (valid_of_ofJsonBytes decoded).1
  exact every_unpack ⟨.null, rfl, Nat.zero_le _⟩ every

theorem presents_encode (s : RuntimeSnapshot) : s.Presents (encode s) := by
  rw [Presents, encode, compact, String.toList_ofList]
  exact Shape.presents_toJson _ _

theorem canonical_of_decoded {s : RuntimeSnapshot} (valid : s.validate = .ok ())
    (decoded : ∀ v ∈ s.values, v.Decoded (depthLimit - 3))
    (canonical : ∀ v ∈ s.values, v.Canonical) : s.Canonical where
  distinct := nodup_of_validate valid
  vars d listed := canonical _ (List.mem_append_left _ (List.mem_map_of_mem listed))
  constants d listed := canonical _ (List.mem_append_right _ (List.mem_map_of_mem listed))
  shallow := by
    have low : (shapeOf RuntimeSnapshot).height ≤ depthLimit := by decide
    exact Shape.nesting_toJson_le _ _ _ low (every_pack fun v within => (decoded v within).shallow)

/-- A snapshot that was read and holds no float is settled: writing and reading it again changes
nothing. -/
theorem decoded_snapshot_reencodes (input : Bytes) (s : RuntimeSnapshot)
    (decoded : ofJsonBytes input = .ok s) (floatless : ∀ v ∈ s.values, v.floats = []) :
    ofJsonBytes (Bytes.ofString (encode s)) = .ok s ∧
    (ofJsonBytes (Bytes.ofString (encode s))).map encode = .ok (encode s) ∧
    (s.classes.map (·.name)).Nodup ∧ ∀ v ∈ s.values, v.Canonical := by
  have valid := (valid_of_ofJsonBytes decoded).2
  have values := decoded_values decoded
  have canonical : ∀ v ∈ s.values, v.Canonical := by
    intro v within
    have noFinite : ∀ f ∈ v.floats, f.isFinite = false := by
      rw [floatless v within]
      exact List.forall_mem_nil _
    rw [← (values v within).normal]
    exact (values v within).proper.canonical_norm noFinite
  have again :=
    ofJsonBytes_of_presents (canonical_of_decoded valid values canonical) s.presents_encode
  exact ⟨again, congrArg (Except.map encode) again, nodup_of_validate valid, canonical⟩

/-- Fields in another order, descriptors as lists, a repeated key, an escape and a foreign field. -/
theorem irregular_text_reencodes :
    let input := Bytes.ofString ("\t\x7b \"note\" : [1.5e3] , \"constants\" : [[ \"c\", " ++
      "\x7b\"k\":1,\"j\":[18446744073709551615],\"k\":\x7b\x7d\x7d ]],\n\"classes\":[],\r" ++
      "\"variables\":[\x7b\"value\":\"\\u00e9\",\"name\":\"v\"\x7d]\x7d")
    let text := "\x7b\"functions\":[],\"classes\":[]," ++
      "\"variables\":[\x7b\"name\":\"v\",\"value\":\"é\"\x7d],\"constants\":[\x7b\"name\":\"c\"," ++
      "\"value\":\x7b\"k\":\x7b\x7d,\"j\":[18446744073709551615]\x7d\x7d]\x7d"
    ∃ s, ofJsonBytes input = .ok s ∧ (∀ v ∈ s.values, v.floats = []) ∧ encode s = text ∧
      ofJsonBytes (Bytes.ofString text) = .ok s := by
  intro input text
  have read : (ofJsonBytes input).toOption.map
      (fun s => (s.values.all (·.floats.isEmpty), encode s)) = some (true, text) := by
    decide +kernel
  cases decoded : ofJsonBytes input with
  | error e => rw [decoded] at read; cases read
  | ok s =>
      rw [decoded] at read
      have result := Prod.mk.inj (Option.some.inj read)
      have floatless : ∀ v ∈ s.values, v.floats = [] := by
        intro v within
        exact List.isEmpty_iff.1 (List.all_eq_true.1 result.1 v within)
      have again := (decoded_snapshot_reencodes input s decoded floatless).1
      rw [result.2] at again
      exact ⟨s, rfl, floatless, result.2, again⟩

end RuntimeSnapshot

end SymbolExport
