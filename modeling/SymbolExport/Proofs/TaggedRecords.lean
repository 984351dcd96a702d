import SymbolExport.Model.Record
import SymbolExport.Proofs.ContentDecoding
import SymbolExport.Proofs.ReadingPresentations

/-! # Records as tagged objects

A record is written as an object that tells its kind by a tag, and read back in two steps: the tag
is set apart from the other fields, and these are decoded once the object has been read. Nothing is
lost on the way as long as no field has the name of the tag. The records of classes have one, so
their tag is written twice, and reading refuses the second.
-/

namespace SymbolExport

open Json

/-! ## Written structures are canonical -/

mutual

theorem Shape.canonical_toJson : (shape : Shape) → (v : shape.Value) → shape.Distinct →
    shape.Canonical v → (shape.toJson v).Canonical
  | .text, s, _, _ => .text s
  | .flag, b, _, _ => .bool b
  | .count, _, _, _ => .int _
  | .choice _, _, _, _ => .text _
  | .optional _, none, _, _ => .null
  | .optional inner, some v, ⟨_, distinct⟩, canonical =>
      inner.canonical_toJson v distinct (canonical v rfl)
  | .list item, vs, distinct, canonical => by
      refine .list fun j within => ?_
      obtain ⟨v, listed, rfl⟩ := List.mem_map.mp within
      exact item.canonical_toJson v distinct (canonical v listed)
  | .value, _, _, canonical => canonical.toJson
  | .struct _ fields, v, distinct, canonical =>
      have written := fields.canonical_toFields v distinct canonical
      .object written.1 written.2

theorem Fields.canonical_toFields : (fields : Fields) → (v : fields.Value) → fields.Distinct →
    fields.Canonical v →
    ((fields.toFields v).map Prod.fst).Nodup ∧ ∀ field ∈ fields.toFields v, field.2.Canonical
  | .nil, (), _, _ => ⟨.nil, List.forall_mem_nil _⟩
  | .required name shape others, (v, rest), ⟨fresh, distinct, distincts⟩,
      ⟨canonical, canonicals⟩ => by
      have written := others.canonical_toFields rest distincts canonicals
      refine ⟨List.nodup_cons.mpr ⟨?_, written.1⟩, List.forall_mem_cons.mpr ⟨?_, written.2⟩⟩
      · intro again
        obtain ⟨field, within, same⟩ := List.mem_map.mp again
        exact others.key_ne fresh rest field within same
      · exact shape.canonical_toJson v distinct canonical
  | .defaulted _ _ others, (none, rest), ⟨_, _, distincts⟩, ⟨_, canonicals⟩ =>
      others.canonical_toFields rest distincts canonicals
  | .defaulted name shape others, (some v, rest), ⟨fresh, distinct, distincts⟩,
      ⟨canonical, canonicals⟩ => by
      have written := others.canonical_toFields rest distincts canonicals
      refine ⟨List.nodup_cons.mpr ⟨?_, written.1⟩, List.forall_mem_cons.mpr ⟨?_, written.2⟩⟩
      · intro again
        obtain ⟨field, within, same⟩ := List.mem_map.mp again
        exact others.key_ne fresh rest field within same
      · exact shape.canonical_toJson v distinct (canonical v rfl)

end

namespace Json

/-! ## Reading a tag -/

/-- A field in front of others, split where readers stop. -/
theorem octets_field (first : Bool) (field : String × Json) (texts : List (List Char))
    (rest : Bytes) :
    octets (joined first (fieldChars field :: texts)) ++ rest =
      octets (comma first) ++ (octets (literal field.1) ++
        0x3A :: (octets field.2.chars ++ (octets (joined false texts) ++ rest))) := by
  simp only [joined, fieldChars, octets_append, List.append_assoc]
  rfl

section

variable {n : Nat} {tagName : String} {tags : Vector String n} {depth : Nat}

theorem Reads.knownName {name : String} {i : Fin n} (known : Reader.lookupName tags name = some i)
    (rest : Bytes) : Reads (Reader.knownName tags name) rest i rest := by
  rw [Reader.knownName, known]
  exact .pure i rest

/-- A field that is no tag can be set apart from the tag. -/
def Untagged (tagName : String) (depth : Nat) (field : String × Json) : Prop :=
  field.1 ≠ tagName ∧ Yields (Reader.value depth) field.2.chars field.2

theorem Reads.taggedFields {fields : List (String × Json)}
    (each : ∀ field ∈ fields, Untagged tagName depth field) (tag : Option (Fin n)) (first : Bool)
    (fuel : Nat) (rest : Bytes)
    (enough : (octets (joined first (fields.map fieldChars)) ++ 0x7D :: rest).length < fuel) :
    Reads (Reader.taggedFields tagName tags depth fuel first tag)
      (octets (joined first (fields.map fieldChars)) ++ 0x7D :: rest) (tag, fields)
      (0x7D :: rest) := by
  induction fields generalizing first fuel with
  | nil =>
      obtain ⟨fuel, rfl⟩ := Nat.exists_eq_add_one_of_ne_zero (Nat.ne_zero_of_lt enough)
      exact .bind (.nextKey_end first rest) (.pure (tag, []) _)
  | cons field fields ih =>
      obtain ⟨fuel, rfl⟩ := Nat.exists_eq_add_one_of_ne_zero (Nat.ne_zero_of_lt enough)
      rw [List.forall_mem_cons] at each
      obtain ⟨⟨other, yields⟩, each⟩ := each
      rw [List.map_cons, octets_field] at enough ⊢
      have behind := ends_joined (fields.map fieldChars) (.brace rest)
      have shorter : (octets (joined false (fields.map fieldChars)) ++ 0x7D :: rest).length <
          fuel := by
        simp only [List.length_append, List.length_cons] at enough ⊢
        omega
      refine .bind (.nextKey first (quotes_literal field.1) _) ?_
      change Reads (if field.1 = tagName then _ else _) _ _ _
      rw [if_neg other]
      exact .bind (.colon _) (.bind (yields.reads _ behind)
        (.bind (ih each false fuel shorter) (.pure (tag, field :: fields) _)))

/-- The tag in front of the other fields is taken off. -/
theorem continues_taggedFields (tagName : String) (depth : Nat) {i : Fin n}
    (known : Reader.lookupName tags (tags.get i) = some i) (fields : List (String × Json))
    {rest : Bytes} (ends : Ends rest) (fuel : Nat) :
    Continues (Reader.taggedFields tagName tags depth (fuel + 1) true none)
      (Reader.taggedFields tagName tags depth fuel false (some i))
      (octets (joined true (((tagName, .text (tags.get i)) :: fields).map fieldChars)) ++ rest)
      (octets (joined false (fields.map fieldChars)) ++ rest) := by
  rw [List.map_cons, octets_field]
  refine .bind (.nextKey true (quotes_literal tagName) _) ?_
  change Continues (if tagName = tagName then _ else _) _ _ _
  rw [if_pos rfl, if_neg (by simp)]
  have behind := ends_joined (fields.map fieldChars) ends
  exact .bind (.colon _) (.bind ((yields_stringOf _ (quotes_literal (tags.get i))).reads _ behind)
    (.bind (.knownName known _) (.refl _ _)))

theorem yields_tagged {title : String} {i : Fin n}
    (known : Reader.lookupName tags (tags.get i) = some i) {fields : List (String × Json)}
    (each : ∀ field ∈ fields, Untagged tagName depth field) :
    Yields (Reader.tagged title tagName tags (depth + 1))
      (chars (.object ((tagName, .text (tags.get i)) :: fields)))
      (i, .map (Content.ofFields fields)) := by
  rw [chars_object]
  refine ⟨⟨0x7B, _, rfl, by simp [Opens]⟩, fun rest ends => ?_⟩
  rw [octets_object]
  refine .bind (.peekToken rfl _) (.bind (.advance _ _) (.bind (.remaining _) ?_))
  have tag := continues_taggedFields tagName depth known fields (.brace rest)
  refine .bind ((tag _).reads (.taggedFields each _ _ _ rest ?_))
    (.bind (.closeObject rest) (.pure _ rest))
  rw [List.map_cons, octets_field]
  simp only [List.length_append, List.length_cons]
  omega

/-- A second tag is refused, whatever stands between the two and behind them. -/
theorem Fails.taggedFields {fields : List (String × Json)}
    (each : ∀ field ∈ fields, Untagged tagName depth field) (second : Json)
    (more : List (String × Json)) (i : Fin n) (first : Bool) (fuel : Nat) (rest : Bytes)
    (enough : (octets (joined first ((fields ++ (tagName, second) :: more).map fieldChars)) ++
      0x7D :: rest).length < fuel) :
    Fails (Reader.taggedFields tagName tags depth fuel first (some i))
      (octets (joined first ((fields ++ (tagName, second) :: more).map fieldChars)) ++ 0x7D :: rest)
      (.duplicateField tagName) := by
  induction fields generalizing first fuel with
  | nil =>
      obtain ⟨fuel, rfl⟩ := Nat.exists_eq_add_one_of_ne_zero (Nat.ne_zero_of_lt enough)
      rw [List.nil_append, List.map_cons, octets_field]
      refine .after (.nextKey first (quotes_literal tagName) _) ?_
      change Fails (if tagName = tagName then _ else _) _ _
      rw [if_pos rfl, if_pos Option.isSome_some]
      exact .after (.peekToken rfl _) (.fail _ _)
  | cons field fields ih =>
      obtain ⟨fuel, rfl⟩ := Nat.exists_eq_add_one_of_ne_zero (Nat.ne_zero_of_lt enough)
      rw [List.forall_mem_cons] at each
      obtain ⟨⟨other, yields⟩, each⟩ := each
      rw [List.cons_append, List.map_cons, octets_field] at enough ⊢
      have behind :=
        ends_joined ((fields ++ (tagName, second) :: more).map fieldChars) (.brace rest)
      have shorter :
          (octets (joined false ((fields ++ (tagName, second) :: more).map fieldChars)) ++
            0x7D :: rest).length < fuel := by
        simp only [List.length_append, List.length_cons] at enough ⊢
        omega
      refine .after (.nextKey first (quotes_literal field.1) _) ?_
      change Fails (if field.1 = tagName then _ else _) _ _
      rw [if_neg other]
      exact .after (.colon _)
        (.after (yields.reads _ behind) (.bind (ih each false fuel shorter) _))

theorem Fails.tagged {title : String} {i : Fin n}
    (known : Reader.lookupName tags (tags.get i) = some i) {fields : List (String × Json)}
    (each : ∀ field ∈ fields, Untagged tagName depth field) (second : Json)
    (more : List (String × Json)) :
    Fails (Reader.tagged title tagName tags (depth + 1))
      (octets (chars (.object
        ((tagName, .text (tags.get i)) :: (fields ++ (tagName, second) :: more)))))
      (.duplicateField tagName) := by
  have tag := continues_taggedFields tagName depth known (fields ++ (tagName, second) :: more)
    (.brace [])
  have input := octets_object (((tagName, .text (tags.get i)) ::
    (fields ++ (tagName, second) :: more)).map fieldChars) []
  rw [List.append_nil] at input
  rw [chars_object, input]
  refine .after (.peekToken rfl _) (.after (.advance _ _) (.after (.remaining _) ?_))
  refine .bind ((tag _).fails (.taggedFields each second more i _ _ [] ?_)) _
  rw [List.map_cons, octets_field]
  simp only [List.length_append, List.length_cons]
  omega

end

end Json

/-! ## Records -/

namespace Record

theorem lookupName_tags (i : Fin 6) : Reader.lookupName tags (tags.get i) = some i := by
  revert i
  decide +kernel

def value? : Record → Option RuntimeValue
  | .var r => some r.value
  | .const r => some r.value
  | _ => none

theorem ofString_compact (v : Json) : Bytes.ofString v.compact = octets v.chars :=
  ofString_ofList v.chars

theorem ofJsonBytes_of_untagged {r : Record} (i : Fin 6) {title : String} {fields : Fields}
    (distinct : (Shape.struct title fields).Distinct) (untagged : "kind" ∉ fields.names)
    {v : fields.Value} (canonical : fields.Canonical v)
    (written : r.toJson = .object (("kind", .text (tags.get i)) :: fields.toFields v))
    (shallow : r.toJson.nesting ≤ depthLimit)
    (restored : ∀ content, (Shape.struct title fields).decode content = .ok v →
      ofContent i content = .ok r) :
    ofJsonBytes (Bytes.ofString r.toJson.compact) = .ok r := by
  have each : ∀ field ∈ fields.toFields v, Untagged "kind" 126 field := by
    intro field within
    have inside :=
      nesting_lt_of_mem_fields (List.mem_cons_of_mem ("kind", .text (tags.get i)) within)
    rw [← written] at inside
    exact ⟨fields.key_ne untagged v field within,
      yields_value ((fields.canonical_toFields v distinct canonical).2 field within) 126
        (Nat.le_of_lt_succ (Nat.lt_of_lt_of_le inside shallow))⟩
  have tagged : Yields (Reader.tagged "Record" "kind" tags depthLimit) r.toJson.chars
      (i, .map (Content.ofFields (fields.toFields v))) :=
    written ▸ yields_tagged (lookupName_tags i) each
  have whole : ofContent i (.map (Content.ofFields (fields.toFields v))) = .ok r :=
    restored _ ((Shape.struct title fields).decode_toJson v distinct canonical)
  have read : Reads (Record.read depthLimit) (octets r.toJson.chars ++ []) r [] := by
    refine .bind (tagged.reads [] .nil) ?_
    simp only [whole]
    exact .pure r []
  rw [ofString_compact, ← List.append_nil (octets _)]
  exact read.run

theorem restored_of_decoded {α : Type} [Shaped α] (make : α → Record) {content : Content} {a : α}
    (decoded : (shapeOf α).decode content = .ok (pack a)) :
    (do return make (unpack (← (shapeOf α).decode content)) : Except Cause Record) =
      .ok (make a) := by
  rw [decoded]
  exact congrArg (Except.ok ∘ make) (Shaped.unpack_pack a)

theorem ofJsonBytes_of_ne_class {r : Record} (other : r.tag ≠ "class")
    (canonical : ∀ v ∈ r.value?, v.Canonical) (shallow : r.toJson.nesting ≤ depthLimit) :
    ofJsonBytes (Bytes.ofString r.toJson.compact) = .ok r := by
  cases r with
  | function r =>
      have distinct : (shapeOf FunctionRecord).Distinct := by decide +kernel
      exact ofJsonBytes_of_untagged 0 distinct (by decide)
        ((shapeOf FunctionRecord).canonical_of_plain rfl (pack r)) rfl shallow
        fun _ => restored_of_decoded .function
  | classLike r => exact absurd rfl other
  | method r =>
      have distinct : (shapeOf MethodRecord).Distinct := by decide +kernel
      exact ofJsonBytes_of_untagged 2 distinct (by decide)
        ((shapeOf MethodRecord).canonical_of_plain rfl (pack r)) rfl shallow
        fun _ => restored_of_decoded .method
  | member r =>
      have distinct : (shapeOf PropertyRecord).Distinct := by decide +kernel
      exact ofJsonBytes_of_untagged 3 distinct (by decide)
        ((shapeOf PropertyRecord).canonical_of_plain rfl (pack r)) rfl shallow
        fun _ => restored_of_decoded .member
  | var r =>
      have distinct : (shapeOf VariableRecord).Distinct := by decide +kernel
      have values : (shapeOf VariableRecord).Canonical (pack r) :=
        ⟨trivial, canonical r.value rfl, trivial⟩
      exact ofJsonBytes_of_untagged 4 distinct (by decide) values rfl shallow
        fun _ => restored_of_decoded .var
  | const r =>
      have distinct : (shapeOf ConstantRecord).Distinct := by decide +kernel
      have values : (shapeOf ConstantRecord).Canonical (pack r) :=
        ⟨trivial, canonical r.value rfl, trivial⟩
      exact ofJsonBytes_of_untagged 5 distinct (by decide) values rfl shallow
        fun _ => restored_of_decoded .const

theorem ofJsonBytes_classLike (r : ClassRecord) :
    ∃ offset, ofJsonBytes (Bytes.ofString (Record.classLike r).toJson.compact) =
      .error { cause := .duplicateField "kind", offset } := by
  have name : ∀ field ∈ [("name", Json.text r.name)], Untagged "kind" 126 field := by
    intro field within
    have other : "name" ≠ "kind" := by decide
    rw [List.mem_singleton.mp within]
    exact ⟨other, yields_value (.text r.name) 126 (Nat.zero_le 126)⟩
  have refused : Fails (Reader.tagged "Record" "kind" tags depthLimit)
      (octets (Record.classLike r).toJson.chars) (.duplicateField "kind") :=
    Fails.tagged (lookupName_tags 1) name (SymbolExport.toJson r.kind) _
  rw [ofString_compact]
  exact (refused.bind _).run

/-- A written record reads back unless it is that of a class: the field of a class record that has
the name of the tag is refused as a second tag. -/
theorem written_records_read_back (r : Record) (canonical : ∀ v ∈ r.value?, v.Canonical)
    (shallow : r.toJson.nesting ≤ depthLimit) :
    (r.tag ≠ "class" → ofJsonBytes (Bytes.ofString r.toJson.compact) = .ok r) ∧
    (r.tag = "class" → ∃ offset, ofJsonBytes (Bytes.ofString r.toJson.compact) =
      .error { cause := .duplicateField "kind", offset }) := by
  refine ⟨fun other => ofJsonBytes_of_ne_class other canonical shallow, fun same => ?_⟩
  cases r with
  | classLike r => exact ofJsonBytes_classLike r
  | _ => simp [tag] at same

theorem constant_of_nested_map_reads_back :
    let large : Json := .int ⟨18446744073709551615, by decide, by decide⟩
    let r : Record := .const
      { name := "kind", value := .map [("kind", .list [.null, large]), ("\x00é\"", .object [])] }
    (∀ v ∈ r.value?, v.Canonical) ∧ r.toJson.nesting ≤ depthLimit ∧
      ofJsonBytes (Bytes.ofString r.toJson.compact) = .ok r := by
  intro large r
  have canonical : ∀ v ∈ r.value?, v.Canonical := by
    rintro v ⟨⟩
    refine .map (.object (by decide) ?_)
    rintro field (_ | ⟨_, _ | ⟨_, ⟨⟩⟩⟩)
    · refine .list ?_
      rintro item (_ | ⟨_, _ | ⟨_, ⟨⟩⟩⟩)
      · exact .null
      · exact .int _
    · exact .object .nil (List.forall_mem_nil _)
  have shallow : r.toJson.nesting ≤ depthLimit := by decide +kernel
  exact ⟨canonical, shallow, (written_records_read_back r canonical shallow).1 (by decide)⟩

/-- The record of a class does not read back: what is written for it has two tags. -/
theorem class_record_does_not_read_back :
    let r : ClassRecord :=
      { name := "A", kind := .trait, parentName := "", interfaceNames := [], isFinal := false,
        isAbstract := false, docComment := "" }
    (Record.classLike r).value? = none ∧ (Record.classLike r).toJson.nesting ≤ depthLimit ∧
      ofJsonBytes (Bytes.ofString (Record.classLike r).toJson.compact) ≠ .ok (.classLike r) := by
  intro r
  refine ⟨rfl, by decide +kernel, ?_⟩
  obtain ⟨offset, refused⟩ := ofJsonBytes_classLike r
  rw [refused]
  simp

end Record

end SymbolExport
