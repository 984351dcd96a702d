import SymbolExport.Proofs.SkippedValues
import SymbolExport.Shape.Encode
import SymbolExport.Shape.Read

/-!
# Presentations of shaped values

The written text of a structure is one of many that mean the same: the fields of every structure may
come in any order, a field that may be left out need not be written if it has its default, and fields
of other names may stand among them with any value. Reading undoes all of these.

Where fields are left out, the value that is read is not the one that was written: the two agree up to
the fields with their defaults, and what they stand for is the same.
-/

namespace SymbolExport

open Json

/-- A field of an object: its key, how the key is written, and the text of its value. -/
structure Member where
  key : String
  keyText : List Char
  quotes : Quotes keyText key
  valueText : List Char

namespace Member

def text (m : Member) : List Char :=
  m.keyText ++ ':' :: m.valueText

def named (name : String) (valueText : List Char) : Member where
  key := name
  keyText := literal name
  quotes := quotes_literal name
  valueText := valueText

end Member

def Fields.names : Fields → List String
  | .nil => []
  | .required name _ others => name :: others.names
  | .defaulted name _ others => name :: others.names

def Member.Foreign (fields : Fields) (m : Member) : Prop :=
  m.key ∉ fields.names ∧ ∃ w : Written, m.valueText = w.chars

def Shape.IsDefault : (shape : Shape) → shape.Value → Prop
  | .flag, b => b = false
  | .optional _, v => v = none
  | .list _, vs => vs = []
  | .value, v => v = .null
  | .text, _ => False
  | .count, _ => False
  | .choice _, _ => False
  | .struct _ _, _ => False

/-- What is written for a field: nothing if it may be left out, or its name and its value. -/
def FieldPresents {α : Type} (presents : α → List Char → Prop) (name : String) (v : Option α)
    (mayMiss : Prop) (own : List Member) : Prop :=
  (mayMiss ∧ own = []) ∨ ∃ w ∈ v, ∃ t, presents w t ∧ own = [.named name t]

theorem FieldPresents.kept {α : Type} {presents : α → List Char → Prop} {name : String} {v : α}
    {mayMiss : Prop} {t : List Char} (text : presents v t) :
    FieldPresents presents name (some v) mayMiss [.named name t] :=
  .inr ⟨v, rfl, t, text, rfl⟩

theorem FieldPresents.omitted {α : Type} {presents : α → List Char → Prop} {name : String}
    {isDefault : α → Prop} {v : α} (default : isDefault v) :
    FieldPresents presents name (some v) (∀ w ∈ some v, isDefault w) [] := by
  refine .inl ⟨?_, rfl⟩
  rintro _ ⟨⟩
  exact default

mutual

def Shape.Presents : (shape : Shape) → shape.Value → List Char → Prop
  | .text, s, t => t = chars (.text s)
  | .flag, b, t => t = chars (.bool b)
  | .count, n, t => t = chars (.ofNat n)
  | .choice names, i, t => t = chars (.text (names.get i))
  | .optional _, none, t => t = chars .null
  | .optional inner, some v, t => inner.Presents v t
  | .list item, vs, t =>
      ∃ items, List.Forall₂ item.Presents vs items ∧ t = enclosed '[' ']' items
  | .value, v, t => t = chars v.toJson
  | .struct _ fields, v, t => ∃ own foreign members : List Member,
      fields.Presents v own ∧ (∀ m ∈ foreign, m.Foreign fields) ∧
      members.Perm (own ++ foreign) ∧ t = enclosed '\x7b' '\x7d' (members.map Member.text)

/-- The fields that are written for a structure, in their order. -/
def Fields.Presents : (fields : Fields) → fields.Value → List Member → Prop
  | .nil, (), own => own = []
  | .required name shape others, (v, rest), own => ∃ head more, own = head ++ more ∧
      FieldPresents shape.Presents name (some v) False head ∧ others.Presents rest more
  | .defaulted name shape others, (v, rest), own => ∃ head more, own = head ++ more ∧
      FieldPresents shape.Presents name v (∀ w ∈ v, shape.IsDefault w) head ∧
      others.Presents rest more

end

mutual

theorem Shape.presents_toJson : (shape : Shape) → (v : shape.Value) →
    shape.Presents v (shape.toJson v).chars
  | .text, _ => rfl
  | .flag, _ => rfl
  | .count, _ => rfl
  | .choice _, _ => rfl
  | .value, _ => rfl
  | .optional _, none => rfl
  | .optional inner, some v => inner.presents_toJson v
  | .list item, vs => by
      refine ⟨vs.map fun v => (item.toJson v).chars, ?_, ?_⟩
      · rw [List.forall₂_map_right_iff, List.forall₂_same]
        intro v _
        exact item.presents_toJson v
      · rw [Shape.toJson, chars_list, List.map_map]
        rfl
  | .struct _ fields, v => by
      obtain ⟨own, presents, texts⟩ := fields.presents_toFields v
      refine ⟨own, [], own, presents, nofun, by rw [List.append_nil], ?_⟩
      rw [Shape.toJson, chars_object, texts]

theorem Fields.presents_toFields : (fields : Fields) → (v : fields.Value) →
    ∃ own, fields.Presents v own ∧ own.map Member.text = (fields.toFields v).map fieldChars
  | .nil, () => ⟨[], rfl, rfl⟩
  | .required name shape others, (v, rest) => by
      obtain ⟨more, presents, texts⟩ := others.presents_toFields rest
      refine ⟨[.named name (shape.toJson v).chars] ++ more,
        ⟨_, more, rfl, .kept (shape.presents_toJson v), presents⟩, ?_⟩
      rw [Fields.toFields, List.map_cons, ← texts]
      rfl
  | .defaulted _ _ others, (none, rest) => by
      obtain ⟨more, presents, texts⟩ := others.presents_toFields rest
      exact ⟨[] ++ more, ⟨[], more, rfl, .inl ⟨nofun, rfl⟩, presents⟩, texts⟩
  | .defaulted name shape others, (some v, rest) => by
      obtain ⟨more, presents, texts⟩ := others.presents_toFields rest
      refine ⟨[.named name (shape.toJson v).chars] ++ more,
        ⟨_, more, rfl, .kept (shape.presents_toJson v), presents⟩, ?_⟩
      rw [Fields.toFields, List.map_cons, ← texts]
      rfl

end

/-- Two optional values agree, where the second may be missing if the first is a default. -/
def SlotAgrees {α : Type} (isDefault : α → Prop) (agrees : α → α → Prop) :
    Option α → Option α → Prop
  | none, none => True
  | some a, some b => agrees a b
  | some a, none => isDefault a
  | none, some _ => False

mutual

/-- The second value is the first one, up to fields that have their defaults and are left out. -/
def Shape.Agrees : (shape : Shape) → shape.Value → shape.Value → Prop
  | .text, s, t => s = t
  | .flag, a, b => a = b
  | .count, n, m => n = m
  | .choice _, i, j => i = j
  | .optional inner, v, w => Option.Rel inner.Agrees v w
  | .list item, vs, ws => List.Forall₂ item.Agrees vs ws
  | .value, v, w => v = w
  | .struct _ fields, v, w => fields.Agrees v w

def Fields.Agrees : (fields : Fields) → fields.Value → fields.Value → Prop
  | .nil, _, _ => True
  | .required _ shape others, (v, vs), (w, ws) => shape.Agrees v w ∧ others.Agrees vs ws
  | .defaulted _ shape others, (v, vs), (w, ws) =>
      SlotAgrees shape.IsDefault shape.Agrees v w ∧ others.Agrees vs ws

end

/-- Shapes none of whose values is written as `null`. -/
def Shape.nullFree : Shape → Bool
  | .optional _ => false
  | .value => false
  | _ => true

mutual

/-- No two fields of a structure and no two names of a choice are the same. -/
def Shape.Distinct : Shape → Prop
  | .choice names => ∀ i, Reader.lookupName names (names.get i) = some i
  | .optional inner => inner.nullFree = true ∧ inner.Distinct
  | .list item => item.Distinct
  | .struct _ fields => fields.Distinct
  | .text => True
  | .flag => True
  | .count => True
  | .value => True

def Fields.Distinct : Fields → Prop
  | .nil => True
  | .required name shape others => name ∉ others.names ∧ shape.Distinct ∧ others.Distinct
  | .defaulted name shape others => name ∉ others.names ∧ shape.Distinct ∧ others.Distinct

end

mutual

def Shape.decDistinct : (shape : Shape) → Decidable shape.Distinct
  | .choice names =>
      inferInstanceAs (Decidable (∀ i, Reader.lookupName names (names.get i) = some i))
  | .optional inner =>
      have := inner.decDistinct
      inferInstanceAs (Decidable (inner.nullFree = true ∧ inner.Distinct))
  | .list item => item.decDistinct
  | .struct _ fields => fields.decDistinct
  | .text => .isTrue trivial
  | .flag => .isTrue trivial
  | .count => .isTrue trivial
  | .value => .isTrue trivial

def Fields.decDistinct : (fields : Fields) → Decidable fields.Distinct
  | .nil => .isTrue trivial
  | .required name shape others =>
      have := shape.decDistinct
      have := others.decDistinct
      inferInstanceAs (Decidable (name ∉ others.names ∧ shape.Distinct ∧ others.Distinct))
  | .defaulted name shape others =>
      have := shape.decDistinct
      have := others.decDistinct
      inferInstanceAs (Decidable (name ∉ others.names ∧ shape.Distinct ∧ others.Distinct))

end

instance (shape : Shape) : Decidable shape.Distinct :=
  shape.decDistinct

mutual

/-- The runtime values inside are canonical, and counts fit into 64 bits. -/
def Shape.Canonical : (shape : Shape) → shape.Value → Prop
  | .value, v => v.Canonical
  | .count, n => n < 18446744073709551616
  | .optional inner, v => ∀ w ∈ v, inner.Canonical w
  | .list item, vs => ∀ v ∈ vs, item.Canonical v
  | .struct _ fields, v => fields.Canonical v
  | .text, _ => True
  | .flag, _ => True
  | .choice _, _ => True

def Fields.Canonical : (fields : Fields) → fields.Value → Prop
  | .nil, _ => True
  | .required _ shape others, (v, rest) => shape.Canonical v ∧ others.Canonical rest
  | .defaulted _ shape others, (v, rest) => (∀ w ∈ v, shape.Canonical w) ∧ others.Canonical rest

end

mutual

def Shape.plain : Shape → Bool
  | .value => false
  | .count => false
  | .optional inner => inner.plain
  | .list item => item.plain
  | .struct _ fields => fields.plain
  | .text => true
  | .flag => true
  | .choice _ => true

def Fields.plain : Fields → Bool
  | .nil => true
  | .required _ shape others => shape.plain && others.plain
  | .defaulted _ shape others => shape.plain && others.plain

end

mutual

theorem Shape.canonical_of_plain : (shape : Shape) → shape.plain = true → (v : shape.Value) →
    shape.Canonical v
  | .optional inner, plain, _ => fun w _ => inner.canonical_of_plain plain w
  | .list item, plain, _ => fun v _ => item.canonical_of_plain plain v
  | .struct _ fields, plain, v => fields.canonical_of_plain plain v
  | .text, _, _ => trivial
  | .flag, _, _ => trivial
  | .choice _, _, _ => trivial

theorem Fields.canonical_of_plain : (fields : Fields) → fields.plain = true →
    (v : fields.Value) → fields.Canonical v
  | .nil, _, _ => trivial
  | .required _ shape others, plain, (v, rest) => by
      rw [Fields.plain, Bool.and_eq_true] at plain
      exact ⟨shape.canonical_of_plain plain.1 v, others.canonical_of_plain plain.2 rest⟩
  | .defaulted _ shape others, plain, (_, rest) => by
      rw [Fields.plain, Bool.and_eq_true] at plain
      exact ⟨fun w _ => shape.canonical_of_plain plain.1 w, others.canonical_of_plain plain.2 rest⟩

end

namespace Fields

variable {name : String}

theorem key_of_fieldPresents {α : Type} {presents : α → List Char → Prop} {v : Option α}
    {mayMiss : Prop} {own : List Member} (field : FieldPresents presents name v mayMiss own) :
    ∀ m ∈ own, m.key = name := by
  intro m within
  rcases field with ⟨_, rfl⟩ | ⟨w, _, t, _, rfl⟩
  · cases within
  · rw [List.mem_singleton.mp within]
    rfl

theorem Presents.key_mem : {fields : Fields} → {v : fields.Value} → {own : List Member} →
    fields.Presents v own → ∀ m ∈ own, m.key ∈ fields.names
  | .nil, (), _, rfl, _, within => nomatch within
  | .required _ _ _, (_, _), _, ⟨_, _, rfl, field, others⟩, m, within => by
      rcases List.mem_append.mp within with head | tail
      · exact List.mem_cons.mpr (.inl (key_of_fieldPresents field m head))
      · exact List.mem_cons_of_mem _ (others.key_mem m tail)
  | .defaulted _ _ _, (_, _), _, ⟨_, _, rfl, field, others⟩, m, within => by
      rcases List.mem_append.mp within with head | tail
      · exact List.mem_cons.mpr (.inl (key_of_fieldPresents field m head))
      · exact List.mem_cons_of_mem _ (others.key_mem m tail)

theorem pairwise_of_fieldPresents {α : Type} {presents : α → List Char → Prop} {v : Option α}
    {mayMiss : Prop} {own more : List Member} (field : FieldPresents presents name v mayMiss own)
    (otherNames : ∀ m ∈ more, m.key ≠ name) (distinct : more.Pairwise fun a b => a.key ≠ b.key) :
    (own ++ more).Pairwise fun a b => a.key ≠ b.key := by
  rcases field with ⟨_, rfl⟩ | ⟨w, _, t, _, rfl⟩
  · exact distinct
  · exact List.pairwise_cons.mpr ⟨fun m within => (otherNames m within).symm, distinct⟩

theorem Presents.pairwise : {fields : Fields} → {v : fields.Value} → {own : List Member} →
    fields.Distinct → fields.Presents v own → own.Pairwise fun a b => a.key ≠ b.key
  | .nil, (), _, _, rfl => .nil
  | .required _ _ _, (_, _), _, ⟨fresh, _, distinct⟩, ⟨_, _, rfl, field, others⟩ =>
      pairwise_of_fieldPresents field
        (fun m within same => fresh (same ▸ others.key_mem m within)) (others.pairwise distinct)
  | .defaulted _ _ _, (_, _), _, ⟨fresh, _, distinct⟩, ⟨_, _, rfl, field, others⟩ =>
      pairwise_of_fieldPresents field
        (fun m within same => fresh (same ▸ others.key_mem m within)) (others.pairwise distinct)

end Fields

end SymbolExport
