import SymbolExport.Proofs.ReadingPresentations
import SymbolExport.Proofs.ReadingResults

/-!
# Decoded values

The text of a list or a map in a field is JSON. Read as a runtime value it gives the value back up
to what JSON cannot tell: an unsigned integer that also fits the signed range comes back signed, and
a number that is not finite comes back as null. A value that was itself read from JSON has neither,
so nothing changes for it.
-/

namespace SymbolExport

open Json

namespace Json

/-- What a map holds: its objects do not repeat a key, and its numbers are finite. -/
inductive Proper : Json → Prop where
  | null : Proper .null
  | bool (b : Bool) : Proper (.bool b)
  | int (n : WideInt) : Proper (.int n)
  | float {f : Float} : f.isFinite = true → Proper (.float f)
  | text (s : String) : Proper (.text s)
  | list {items : List Json} : (∀ item ∈ items, Proper item) → Proper (.list items)
  | object {fields : List (String × Json)} :
      (fields.map Prod.fst).Nodup → (∀ field ∈ fields, Proper field.2) → Proper (.object fields)

theorem Proper.canonical {v : Json} (proper : v.Proper)
    (noFinite : ∀ f ∈ v.floats, f.isFinite = false) : v.Canonical := by
  induction proper with
  | null => exact .null
  | bool b => exact .bool b
  | int n => exact .int n
  | text s => exact .text s
  | float finite =>
      have infinite := noFinite _ (List.mem_singleton_self _)
      rw [finite] at infinite
      cases infinite
  | list _ ih =>
      rw [floats_list] at noFinite
      refine .list fun item within => ih item within fun f inside => ?_
      exact noFinite f (List.mem_flatMap.2 ⟨item, within, inside⟩)
  | object distinct _ ih =>
      rw [floats_object] at noFinite
      refine .object distinct fun field within => ih field within fun f inside => ?_
      exact noFinite f (List.mem_flatMap.2 ⟨field, within, inside⟩)

theorem keys_putField_of_mem {α : Type} {fields : List (String × α)} {key : String}
    (known : key ∈ fields.map Prod.fst) (value : α) :
    (putField fields key value).map Prod.fst = fields.map Prod.fst := by
  induction fields with
  | nil => cases known
  | cons field fields ih =>
      rw [putField]
      split
      · rfl
      · next other =>
          rcases List.mem_cons.1 known with same | later
          · exact absurd same.symm other
          · rw [List.map_cons, ih later, List.map_cons]

theorem nodup_putField {α : Type} {fields : List (String × α)}
    (distinct : (fields.map Prod.fst).Nodup) (key : String) (value : α) :
    ((putField fields key value).map Prod.fst).Nodup := by
  by_cases known : key ∈ fields.map Prod.fst
  · rwa [keys_putField_of_mem known]
  · rw [putField_of_not_mem known, List.map_append]
    exact List.nodup_append.2 ⟨distinct, List.nodup_cons.2 ⟨List.not_mem_nil, .nil⟩, by
      rintro a within b single rfl
      cases List.mem_singleton.1 single
      exact known within⟩

theorem nodup_putFields {α : Type} (fields new : List (String × α))
    (distinct : (fields.map Prod.fst).Nodup) : ((putFields fields new).map Prod.fst).Nodup := by
  induction new generalizing fields with
  | nil => exact distinct
  | cons field new ih => exact ih _ (nodup_putField distinct field.1 field.2)

theorem mem_putField {α : Type} {fields : List (String × α)} {key : String} {value : α}
    {field : String × α} (within : field ∈ putField fields key value) :
    field ∈ fields ∨ field = (key, value) := by
  induction fields with
  | nil => exact .inr (List.mem_singleton.1 within)
  | cons first fields ih =>
      rw [putField] at within
      split at within
      · next same =>
          rcases List.mem_cons.1 within with rfl | behind
          · exact .inr (by rw [same])
          · exact .inl (List.mem_cons_of_mem _ behind)
      · rcases List.mem_cons.1 within with rfl | behind
        · exact .inl List.mem_cons_self
        · exact (ih behind).imp_left (List.mem_cons_of_mem _)

theorem mem_putFields {α : Type} {fields new : List (String × α)} {field : String × α}
    (within : field ∈ putFields fields new) : field ∈ fields ∨ field ∈ new := by
  induction new generalizing fields with
  | nil => exact .inl within
  | cons first new ih =>
      rcases ih within with earlier | later
      · rcases mem_putField earlier with old | rfl
        · exact .inl old
        · exact .inr List.mem_cons_self
      · exact .inr (List.mem_cons_of_mem _ later)

theorem mergedItems_eq (items : List Json) : mergedItems items = items.map merged := by
  induction items with
  | nil => rfl
  | cons item items ih => rw [mergedItems, ih, List.map_cons]

theorem mergedFields_eq (fields : List (String × Json)) :
    mergedFields fields = fields.map fun field => (field.1, field.2.merged) := by
  induction fields with
  | nil => rfl
  | cons field fields ih => rw [mergedFields, ih, List.map_cons]

namespace ReadWithin

theorem items {depth : Nat} {items : List Json} (read : ReadWithin depth (.list items)) :
    ∃ d, depth = d + 1 ∧ ∀ item ∈ items, ReadWithin d item := by
  have positive : depth ≠ 0 := Nat.ne_zero_of_lt read.shallow
  obtain ⟨d, rfl⟩ := Nat.exists_eq_add_one_of_ne_zero positive
  refine ⟨d, rfl, fun item within => ⟨?_, fun f inside => ?_⟩⟩
  · have := nesting_lt_of_mem_items within
    have := read.shallow
    omega
  · apply read.finite
    rw [floats_list]
    exact List.mem_flatMap.2 ⟨item, within, inside⟩

theorem fields {depth : Nat} {fields : List (String × Json)}
    (read : ReadWithin depth (.object fields)) :
    ∃ d, depth = d + 1 ∧ ∀ field ∈ fields, ReadWithin d field.2 := by
  have positive : depth ≠ 0 := Nat.ne_zero_of_lt read.shallow
  obtain ⟨d, rfl⟩ := Nat.exists_eq_add_one_of_ne_zero positive
  refine ⟨d, rfl, fun field within => ⟨?_, fun f inside => ?_⟩⟩
  · have := nesting_lt_of_mem_fields within
    have := read.shallow
    omega
  · apply read.finite
    rw [floats_object]
    exact List.mem_flatMap.2 ⟨field, within, inside⟩

/-- The fields of an object with every repeated key merged go no deeper and bring in no number. -/
theorem putFields {depth : Nat} {fields : List (String × Json)}
    (all : ∀ field ∈ fields, ReadWithin depth field.2.merged ∧ field.2.merged.Proper) :
    ReadWithin (depth + 1) (.object (Json.putFields [] (mergedFields fields))) ∧
      (Json.object (Json.putFields [] (mergedFields fields))).Proper := by
  have each : ∀ field ∈ Json.putFields [] (mergedFields fields),
      ReadWithin depth field.2 ∧ field.2.Proper := by
    intro field within
    rcases mem_putFields within with none | put
    · cases none
    · rw [mergedFields_eq] at put
      obtain ⟨written, listed, rfl⟩ := List.mem_map.1 put
      exact all written listed
  exact ⟨.object fun field within => (each field within).1,
    .object (nodup_putFields [] _ .nil) fun field within => (each field within).2⟩

theorem merged {depth : Nat} {v : Json} (read : ReadWithin depth v) :
    ReadWithin depth v.merged ∧ v.merged.Proper := by
  -- On the depth, not the value: what stands in a container has a level less.
  induction depth using Nat.strongRecOn generalizing v with
  | ind depth ih =>
      cases v with
      | null => exact ⟨read, .null⟩
      | bool b => exact ⟨read, .bool b⟩
      | int n => exact ⟨read, .int n⟩
      | float f => exact ⟨read, .float (read.finite f (List.mem_singleton_self f))⟩
      | text s => exact ⟨read, .text s⟩
      | list items =>
          obtain ⟨d, rfl, all⟩ := read.items
          have each : ∀ item ∈ mergedItems items, ReadWithin d item ∧ item.Proper := by
            intro item within
            rw [mergedItems_eq] at within
            obtain ⟨written, listed, rfl⟩ := List.mem_map.1 within
            exact ih d (Nat.lt_succ_self d) (all written listed)
          exact ⟨.list fun item within => (each item within).1,
            .list fun item within => (each item within).2⟩
      | object fields =>
          obtain ⟨d, rfl, all⟩ := read.fields
          exact putFields fun field within => ih d (Nat.lt_succ_self d) (all field within)

end ReadWithin

end Json

namespace RuntimeValue

def floats (v : RuntimeValue) : List Float :=
  v.toJson.floats

/-- Every map inside holds what a map can hold. -/
inductive Proper : RuntimeValue → Prop where
  | null : Proper .null
  | bool (b : Bool) : Proper (.bool b)
  | int (n : Int64) : Proper (.int n)
  | uint (n : UInt64) : Proper (.uint n)
  | float (f : Float) : Proper (.float f)
  | text (s : String) : Proper (.text s)
  | list {items : List RuntimeValue} : (∀ item ∈ items, Proper item) → Proper (.list items)
  | map {fields : List (String × Json)} : Json.Proper (.object fields) → Proper (.map fields)

mutual

/--
The value as it comes back from JSON: an unsigned integer that fits the signed range becomes signed,
and a number that is not finite becomes null, in lists at any depth. Maps stay as they are.
-/
def norm : RuntimeValue → RuntimeValue
  | .null => .null
  | .bool b => .bool b
  | .int n => .int n
  | .uint n => if n.toNat ≤ 9223372036854775807 then .int (Int64.ofNat n.toNat) else .uint n
  | .float f => if f.isFinite then .float f else .null
  | .text s => .text s
  | .list items => .list (normItems items)
  | .map fields => .map fields

def normItems : List RuntimeValue → List RuntimeValue
  | [] => []
  | item :: items => norm item :: normItems items

end

theorem normItems_eq (items : List RuntimeValue) : normItems items = items.map norm := by
  induction items with
  | nil => rfl
  | cons item items ih => rw [normItems, ih, List.map_cons]

theorem toJson_list (items : List RuntimeValue) :
    toJson (.list items) = .list (items.map toJson) := by
  rw [toJson, itemsToJson_eq]

theorem mem_floats_list {items : List RuntimeValue} {item : RuntimeValue} (within : item ∈ items)
    {f : Float} (inside : f ∈ item.floats) : f ∈ (RuntimeValue.list items).floats := by
  rw [floats, toJson_list, floats_list]
  exact List.mem_flatMap.2 ⟨item.toJson, List.mem_map_of_mem within, inside⟩

theorem toJson_int_ofNat {n : UInt64} (small : n.toNat ≤ 9223372036854775807) :
    toJson (.int (Int64.ofNat n.toNat)) = toJson (.uint n) := by
  have same : (Int64.ofNat n.toNat).toInt = n.toNat := Int64.toInt_ofNat_of_lt (by omega)
  simp only [toJson, WideInt.ofInt64, WideInt.ofUInt64, same]

/-- What changes is written the same. -/
theorem chars_toJson_norm : (v : RuntimeValue) → chars v.norm.toJson = chars v.toJson
  | .null => rfl
  | .bool _ => rfl
  | .int _ => rfl
  | .text _ => rfl
  | .map _ => rfl
  | .uint n => by
      rw [norm]
      split
      · next small => rw [toJson_int_ofNat small]
      · rfl
  | .float f => by
      rw [norm]
      split
      · rfl
      · next infinite =>
          change _ = floatChars f
          rw [floatChars, if_neg infinite]
          rfl
  | .list items => by
      rw [norm, normItems_eq, toJson_list, toJson_list, chars_list, chars_list, List.map_map,
        List.map_map, List.map_map]
      refine congrArg (enclosed '[' ']') (List.map_congr_left fun item within => ?_)
      exact item.chars_toJson_norm

theorem nesting_toJson_norm : (v : RuntimeValue) → v.norm.toJson.nesting ≤ v.toJson.nesting
  | .null => Nat.le_refl _
  | .bool _ => Nat.le_refl _
  | .int _ => Nat.le_refl _
  | .text _ => Nat.le_refl _
  | .map _ => Nat.le_refl _
  | .uint n => by
      rw [norm]
      split <;> exact Nat.le_refl _
  | .float f => by
      rw [norm]
      split <;> exact Nat.le_refl _
  | .list items => by
      have below : ∀ item ∈ items.map fun item => item.norm.toJson,
          item.nesting ≤ (toJson (.list items)).nesting - 1 := by
        intro v within
        obtain ⟨item, listed, rfl⟩ := List.mem_map.1 within
        have := item.nesting_toJson_norm
        have inside : item.toJson ∈ items.map toJson := List.mem_map_of_mem listed
        have := nesting_lt_of_mem_items inside
        rw [toJson_list]
        omega
      have positive : 0 < (toJson (.list items)).nesting := Nat.succ_pos _
      have := nesting_list_le below
      rw [norm, normItems_eq, toJson_list, List.map_map]
      change (Json.list (items.map fun item => item.norm.toJson)).nesting ≤ _
      omega

theorem Proper.canonical_norm {v : RuntimeValue} (proper : v.Proper)
    (noFinite : ∀ f ∈ v.floats, f.isFinite = false) : v.norm.Canonical := by
  induction proper with
  | null => exact .null
  | bool b => exact .bool b
  | int n => exact .int n
  | text s => exact .text s
  | uint n =>
      rw [norm]
      split
      · exact .int _
      · exact .uint (by omega)
  | float f =>
      have infinite := noFinite f (List.mem_singleton_self f)
      rw [norm, infinite]
      exact .null
  | list _ ih =>
      rw [norm, normItems_eq]
      refine .list fun v within => ?_
      obtain ⟨item, listed, rfl⟩ := List.mem_map.1 within
      exact ih item listed fun f inside => noFinite f (mem_floats_list listed inside)
  | map proper => exact .map (proper.canonical noFinite)

/-- What decoding gives at a depth. -/
structure Decoded (depth : Nat) (v : RuntimeValue) : Prop where
  proper : v.Proper
  normal : v.norm = v
  shallow : v.toJson.nesting ≤ depth

theorem Decoded.list {depth : Nat} {items : List RuntimeValue}
    (all : ∀ item ∈ items, item.Decoded depth) : (RuntimeValue.list items).Decoded (depth + 1) where
  proper := .list fun item within => (all item within).proper
  normal := by
    rw [norm, normItems_eq]
    have same := List.map_congr_left fun item within => (all item within).normal
    rw [same, List.map_id']
  shallow := by
    rw [toJson_list]
    apply nesting_list_le
    intro v within
    obtain ⟨item, listed, rfl⟩ := List.mem_map.1 within
    exact (all item listed).shallow

theorem decoded_ofWideInt (depth : Nat) (n : WideInt) : (ofWideInt n).Decoded depth := by
  unfold ofWideInt
  split
  · exact ⟨.int _, rfl, Nat.zero_le depth⟩
  · next large =>
      refine ⟨.uint _, ?_, Nat.zero_le depth⟩
      have upper := n.upper
      have same : (UInt64.ofNat n.val.toNat).toNat = n.val.toNat :=
        UInt64.toNat_ofNat_of_lt' (by change _ < 18446744073709551616; omega)
      rw [norm, same, if_neg (by omega)]

/-- Whatever JSON stands for is decoded within the depth at which it was read. -/
theorem decoded_ofJson {depth : Nat} {v : Json} (read : ReadWithin depth v) :
    (ofJson v).Decoded depth := by
  induction depth using Nat.strongRecOn generalizing v with
  | ind depth ih =>
      cases v with
      | null => exact ⟨.null, rfl, Nat.zero_le depth⟩
      | bool b => exact ⟨.bool b, rfl, Nat.zero_le depth⟩
      | int n => exact decoded_ofWideInt depth n
      | float f =>
          have finite := read.finite f (List.mem_singleton_self f)
          refine ⟨.float f, ?_, Nat.zero_le depth⟩
          rw [ofJson, norm, if_pos finite]
      | text s => exact ⟨.text s, rfl, Nat.zero_le depth⟩
      | list items =>
          obtain ⟨d, rfl, all⟩ := read.items
          rw [ofJson, ofItems_eq]
          apply Decoded.list
          intro v within
          obtain ⟨item, listed, rfl⟩ := List.mem_map.1 within
          exact ih d (Nat.lt_succ_self d) (all item listed)
      | object fields =>
          obtain ⟨read, proper⟩ := read.merged
          exact ⟨.map proper, rfl, read.shallow⟩

end RuntimeValue

/-- The runtime values of whatever is decoded, each with the levels that were left for it. -/
theorem every_of_ofJsonBytes {α : Type} [Shaped α] {input : Bytes} {a : α}
    (decoded : ofJsonBytes input = .ok a) :
    ∃ w, unpack w = a ∧ (shapeOf α).Every RuntimeValue.Decoded depthLimit w := by
  rw [ofJsonBytes] at decoded
  cases read : Reader.run ((shapeOf α).read depthLimit) input with
  | error fault => rw [read] at decoded; cases decoded
  | ok w =>
      rw [read] at decoded
      refine ⟨w, Except.ok.inj decoded, ?_⟩
      exact (Shape.ensures_read (fun _ _ => RuntimeValue.decoded_ofJson) _ depthLimit).run read

namespace RuntimeValue

def isContainer : RuntimeValue → Bool
  | .list _ => true
  | .map _ => true
  | _ => false

theorem toField_of_isContainer {v : RuntimeValue} (container : v.isContainer = true) :
    v.toField = v.toJson.compact := by
  cases v with
  | list items => rfl
  | map fields => rfl
  | _ => cases container

theorem ofJsonBytes_compact {v : RuntimeValue} (canonical : v.Canonical)
    (shallow : v.toJson.nesting ≤ depthLimit) :
    ofJsonBytes (Bytes.ofString (String.ofList v.toJson.chars)) = .ok v := by
  have read := ((yields_runtimeValue canonical shallow).reads [] .nil).run
  rw [List.append_nil] at read
  rw [ofJsonBytes, ofString_ofList]
  exact congrArg (Except.map _) read

/-- The field of a list or a map without a finite float reads back as the value up to unsigned
integers that fit the signed range and numbers that are not finite. A value that was read has
neither. -/
theorem container_field_reads_back (v : RuntimeValue) (container : v.isContainer = true)
    (proper : v.Proper) (noFinite : ∀ f ∈ v.floats, f.isFinite = false)
    (shallow : v.toJson.nesting ≤ depthLimit) :
    ofJsonBytes (Bytes.ofString v.toField) = .ok v.norm ∧
      ∀ input (w : RuntimeValue), ofJsonBytes input = .ok w → w.Proper ∧ w.norm = w := by
  constructor
  · have shallower := Nat.le_trans v.nesting_toJson_norm shallow
    rw [toField_of_isContainer container, compact, ← chars_toJson_norm]
    exact ofJsonBytes_compact (proper.canonical_norm noFinite) shallower
  · intro input w decoded
    obtain ⟨_, rfl, result⟩ := every_of_ofJsonBytes decoded
    exact ⟨result.proper, result.normal⟩

theorem mixed_list_field_reads_back :
    let large : UInt64 := 18446744073709551615
    let infinite : Float := .ofBits 0x7FF0000000000000
    let map : RuntimeValue := .map [("b", .list [.null]), ("a", .int ⟨-3, by decide, by decide⟩)]
    let v : RuntimeValue := .list [.uint 5, .float infinite, map, .list [.uint large, .text "é\n"]]
    v.isContainer = true ∧ v.Proper ∧ (∀ f ∈ v.floats, f.isFinite = false) ∧
      v.toJson.nesting ≤ depthLimit ∧
      ofJsonBytes (Bytes.ofString v.toField) =
        .ok (list [.int 5, .null, map, .list [.uint large, .text "é\n"]]) := by
  intro large infinite map v
  have map : map.Proper := by
    refine .map (.object (by decide) ?_)
    rintro field (_ | ⟨_, _ | ⟨_, ⟨⟩⟩⟩)
    · refine .list ?_
      rintro item (_ | ⟨_, ⟨⟩⟩)
      exact .null
    · exact .int _
  have proper : v.Proper := by
    refine .list ?_
    rintro item (_ | ⟨_, _ | ⟨_, _ | ⟨_, _ | ⟨_, ⟨⟩⟩⟩⟩⟩)
    · exact .uint 5
    · exact .float infinite
    · exact map
    · refine .list ?_
      rintro item (_ | ⟨_, _ | ⟨_, ⟨⟩⟩⟩)
      · exact .uint large
      · exact .text _
  have noFinite : ∀ f ∈ v.floats, f.isFinite = false := by decide +kernel
  have shallow : v.toJson.nesting ≤ depthLimit := by decide +kernel
  have null : (RuntimeValue.float infinite).norm = .null := by
    rw [norm, if_neg (by decide +kernel)]
  have read := (container_field_reads_back v rfl proper noFinite shallow).1
  rw [norm, normItems, normItems, null] at read
  exact ⟨rfl, proper, noFinite, shallow, read⟩

end RuntimeValue

end SymbolExport
