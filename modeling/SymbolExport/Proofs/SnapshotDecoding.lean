import SymbolExport.Proofs.ReadingPresentations
import SymbolExport.Symbol.Snapshot

/-!
# Decoding snapshots

A snapshot is read back from every text that presents it: the fields of the snapshot and of all its
descriptors may be reordered, left out where they have their defaults, and mixed with fields of other
names. The written text of the snapshot is one of these texts.
-/

namespace SymbolExport

open Json

/-- Two values of a field that may be left out stand for the same. -/
abbrev SlotsAgree (shape : Shape) (v : shape.Value) (slot : Option shape.Value) : Prop :=
  SlotAgrees shape.IsDefault shape.Agrees (some v) slot

theorem getD_flag {b : Bool} {slot : Option Bool} (agrees : SlotsAgree .flag b slot) :
    slot.getD false = b := by
  cases slot with
  | none => exact agrees.symm
  | some c => exact agrees.symm

theorem getD_value {v : RuntimeValue} {slot : Option RuntimeValue}
    (agrees : SlotsAgree .value v slot) : slot.getD .null = v := by
  cases slot with
  | none => exact agrees.symm
  | some w => exact agrees.symm

theorem join_text {v : Option String} {slot : Option (Option String)}
    (agrees : SlotsAgree (.optional .text) v slot) : slot.join = v := by
  cases slot with
  | none => exact agrees.symm
  | some w =>
      cases agrees with
      | none => rfl
      | some same => cases same; rfl

theorem getD_texts {texts : List String} {slot : Option (List String)}
    (agrees : SlotsAgree (.list .text) texts slot) : slot.getD [] = texts := by
  cases slot with
  | none => exact agrees.symm
  | some others => exact (List.forall₂_eq_eq_eq ▸ agrees : texts = others).symm

theorem getD_map_unpack {α : Type} [Shaped α]
    (item : ∀ (a : α) (w : (shapeOf α).Value), (shapeOf α).Agrees (pack a) w → unpack w = a)
    {as : List α} {slot : Option (List (shapeOf α).Value)}
    (agrees : SlotsAgree (.list (shapeOf α)) (as.map pack) slot) :
    (slot.getD []).map unpack = as := by
  cases slot with
  | none =>
      have empty : as.map pack = [] := agrees
      rw [List.map_eq_nil_iff.mp empty]
      rfl
  | some ws =>
      have all : List.Forall₂ (shapeOf α).Agrees (as.map pack) ws := agrees
      rw [List.forall₂_map_left_iff] at all
      have same : List.Forall₂ Eq as (ws.map unpack) := by
        rw [List.forall₂_map_right_iff]
        exact all.imp fun a w agrees => (item a w agrees).symm
      rw [List.forall₂_eq_eq_eq] at same
      exact same.symm

theorem Modifier.unpack_of_agrees (m : Modifier) (w : (shapeOf Modifier).Value)
    (agrees : (shapeOf Modifier).Agrees (pack m) w) : unpack w = m := by
  have same : pack m = w := agrees
  rw [← same, Shaped.unpack_pack]

theorem ParameterDescriptor.unpack_of_agrees (d : ParameterDescriptor)
    (w : (shapeOf ParameterDescriptor).Value)
    (agrees : (shapeOf ParameterDescriptor).Agrees (pack d) w) : unpack w = d := by
  obtain ⟨name, _⟩ := w
  obtain ⟨sameName, _⟩ := agrees
  exact congrArg ParameterDescriptor.mk sameName.symm

theorem MethodDescriptor.unpack_of_agrees (d : MethodDescriptor)
    (w : (shapeOf MethodDescriptor).Value)
    (agrees : (shapeOf MethodDescriptor).Agrees (pack d) w) : unpack w = d := by
  obtain ⟨name, modifiers, parameters, docComment, _⟩ := w
  obtain ⟨sameName, modifiersAgree, parametersAgree, commentAgrees, _⟩ := agrees
  show MethodDescriptor.mk _ _ _ _ = d
  rw [← sameName, getD_map_unpack Modifier.unpack_of_agrees modifiersAgree,
    getD_map_unpack ParameterDescriptor.unpack_of_agrees parametersAgree, join_text commentAgrees]

theorem PropertyDescriptor.unpack_of_agrees (d : PropertyDescriptor)
    (w : (shapeOf PropertyDescriptor).Value)
    (agrees : (shapeOf PropertyDescriptor).Agrees (pack d) w) : unpack w = d := by
  obtain ⟨name, modifiers, docComment, _⟩ := w
  obtain ⟨sameName, modifiersAgree, commentAgrees, _⟩ := agrees
  show PropertyDescriptor.mk _ _ _ = d
  rw [← sameName, getD_map_unpack Modifier.unpack_of_agrees modifiersAgree, join_text commentAgrees]

theorem ClassDescriptor.unpack_of_agrees (d : ClassDescriptor) (w : (shapeOf ClassDescriptor).Value)
    (agrees : (shapeOf ClassDescriptor).Agrees (pack d) w) : unpack w = d := by
  obtain ⟨name, isInterface, isTrait, parent, interfaces, isFinal, isAbstract, docComment, methods,
    properties, _⟩ := w
  obtain ⟨sameName, interfaceAgrees, traitAgrees, parentAgrees, interfacesAgree, finalAgrees,
    abstractAgrees, commentAgrees, methodsAgree, propertiesAgree, _⟩ := agrees
  show ClassDescriptor.mk _ _ _ _ _ _ _ _ _ _ = d
  rw [← sameName, getD_flag interfaceAgrees, getD_flag traitAgrees, join_text parentAgrees,
    getD_texts interfacesAgree, getD_flag finalAgrees, getD_flag abstractAgrees,
    join_text commentAgrees, getD_map_unpack MethodDescriptor.unpack_of_agrees methodsAgree,
    getD_map_unpack PropertyDescriptor.unpack_of_agrees propertiesAgree]

theorem VariableDescriptor.unpack_of_agrees (d : VariableDescriptor)
    (w : (shapeOf VariableDescriptor).Value)
    (agrees : (shapeOf VariableDescriptor).Agrees (pack d) w) : unpack w = d := by
  obtain ⟨name, value, _⟩ := w
  obtain ⟨sameName, valueAgrees, _⟩ := agrees
  show VariableDescriptor.mk _ _ = d
  rw [← sameName, getD_value valueAgrees]

theorem ConstantDescriptor.unpack_of_agrees (d : ConstantDescriptor)
    (w : (shapeOf ConstantDescriptor).Value)
    (agrees : (shapeOf ConstantDescriptor).Agrees (pack d) w) : unpack w = d := by
  obtain ⟨name, value, _⟩ := w
  obtain ⟨sameName, valueAgrees, _⟩ := agrees
  show ConstantDescriptor.mk _ _ = d
  rw [← sameName, getD_value valueAgrees]

theorem firstRepeated_of_nodup {seen names : List String} (distinct : names.Nodup)
    (fresh : ∀ name ∈ names, name ∉ seen) : firstRepeated seen names = none := by
  induction names generalizing seen with
  | nil => rfl
  | cons name names ih =>
      rw [List.nodup_cons] at distinct
      rw [List.forall_mem_cons] at fresh
      rw [firstRepeated, if_neg fresh.1]
      refine ih distinct.2 fun other within => ?_
      rw [List.mem_cons, not_or]
      exact ⟨fun same => distinct.1 (same ▸ within), fresh.2 other within⟩

namespace RuntimeSnapshot

theorem unpack_of_agrees (s : RuntimeSnapshot) (w : (shapeOf RuntimeSnapshot).Value)
    (agrees : (shapeOf RuntimeSnapshot).Agrees (pack s) w) : unpack w = s := by
  obtain ⟨functions, classes, vars, constants, _⟩ := w
  obtain ⟨functionsAgree, classesAgree, varsAgree, constantsAgree, _⟩ := agrees
  show RuntimeSnapshot.mk _ _ _ _ = s
  rw [getD_texts functionsAgree, getD_map_unpack ClassDescriptor.unpack_of_agrees classesAgree,
    getD_map_unpack VariableDescriptor.unpack_of_agrees varsAgree,
    getD_map_unpack ConstantDescriptor.unpack_of_agrees constantsAgree]

theorem distinct_fields : (shapeOf RuntimeSnapshot).Distinct := by
  decide +kernel

/-- A snapshot that reading can give: a text for it exists within the reader's limits. -/
structure Canonical (s : RuntimeSnapshot) : Prop where
  distinct : (s.classes.map (·.name)).Nodup
  vars : ∀ d ∈ s.vars, d.value.Canonical
  constants : ∀ d ∈ s.constants, d.value.Canonical
  shallow : (toJson s).nesting ≤ depthLimit

theorem Canonical.packed {s : RuntimeSnapshot} (canonical : s.Canonical) :
    (shapeOf RuntimeSnapshot).Canonical (pack s) := by
  have classes : (shapeOf ClassDescriptor).plain = true := rfl
  refine ⟨?_, ?_, ?_, ?_, trivial⟩
  · rintro _ ⟨⟩ _ _
    trivial
  · rintro _ ⟨⟩ d _
    exact Shape.canonical_of_plain _ classes d
  · rintro _ ⟨⟩ _ within
    obtain ⟨d, listed, rfl⟩ := List.mem_map.mp within
    refine ⟨trivial, ?_, trivial⟩
    rintro _ ⟨⟩
    exact canonical.vars d listed
  · rintro _ ⟨⟩ _ within
    obtain ⟨d, listed, rfl⟩ := List.mem_map.mp within
    refine ⟨trivial, ?_, trivial⟩
    rintro _ ⟨⟩
    exact canonical.constants d listed

theorem validate_of_nodup {s : RuntimeSnapshot} (distinct : (s.classes.map (·.name)).Nodup) :
    s.validate = .ok () := by
  rw [validate, firstRepeated_of_nodup distinct (fun _ _ => List.not_mem_nil)]

def Presents (s : RuntimeSnapshot) (text : String) : Prop :=
  (shapeOf RuntimeSnapshot).Presents (pack s) text.toList

theorem ofJsonBytes_of_presents {s : RuntimeSnapshot} (canonical : s.Canonical) {text : String}
    (presents : s.Presents text) : ofJsonBytes (Bytes.ofString text) = .ok s := by
  obtain ⟨w, agrees, yields⟩ := Shape.yields _ depthLimit _ _ distinct_fields canonical.packed
    canonical.shallow presents
  have read := (yields.reads [] .nil).run
  have input : Bytes.ofString text = octets text.toList := by
    rw [← ofString_ofList, String.ofList_toList]
  have decoded : SymbolExport.ofJsonBytes (Bytes.ofString text) = .ok s := by
    rw [List.append_nil] at read
    rw [SymbolExport.ofJsonBytes, input, read, ← unpack_of_agrees s w agrees]
    rfl
  simp only [ofJsonBytes, decoded, validate_of_nodup canonical.distinct]

/-- Decoding undoes encoding, up to every presentation that the format allows. -/
theorem decode_presentation (s : RuntimeSnapshot) (canonical : s.Canonical) :
    s.Presents (encode s) ∧
      ∀ text, s.Presents text → ofJsonBytes (Bytes.ofString text) = .ok s := by
  refine ⟨?_, fun text presents => ofJsonBytes_of_presents canonical presents⟩
  rw [Presents, encode, compact, String.toList_ofList]
  exact Shape.presents_toJson _ _

/-- Fields in another order, fields left out and fields of other names, with a float and an escape. -/
theorem decode_rearranged :
    let one : Json := .int ⟨1, by decide, by decide⟩
    let x : VariableDescriptor := { name := "x", value := .map [("k", .list [one])] }
    let s : RuntimeSnapshot := { classes := [{ name := "A" }], vars := [x] }
    let text := "\x7b\"note\":[1.5e3,\"\\u00e9\"],\"variables\":[\x7b\"value\":\x7b\"k\":[1]\x7d," ++
      "\"name\":\"x\"\x7d],\"classes\":[\x7b\"final\":null,\"name\":\"A\"\x7d]\x7d"
    s.Canonical ∧ s.Presents text ∧ ofJsonBytes (Bytes.ofString text) = .ok s := by
  intro one x s text
  let note : Written := .list [
    .number ⟨false, ⟨1, []⟩, some ⟨5, []⟩, some ⟨false, .absent, ⟨3, []⟩⟩, by decide⟩,
    .text [.code ⟨{ value := 0 }, { value := 0 }, { value := 14 }, { value := 9 }⟩]]
  have canonical : s.Canonical := by
    refine ⟨by decide, ?_, List.forall_mem_nil _, by decide +kernel⟩
    rintro d (_ | ⟨_, ⟨⟩⟩)
    refine .map (.object (by decide) ?_)
    rintro field (_ | ⟨_, ⟨⟩⟩)
    refine .list ?_
    rintro item (_ | ⟨_, ⟨⟩⟩)
    exact .int _
  have classPresents : (shapeOf ClassDescriptor).Presents (pack ({ name := "A" } : ClassDescriptor))
      "\x7b\"final\":null,\"name\":\"A\"\x7d".toList := by
    refine ⟨_, [.named "final" (chars .null)], _, ⟨_, _, rfl, .kept rfl, _, _, rfl, .omitted rfl, _, _,
      rfl, .omitted rfl, _, _, rfl, .omitted rfl, _, _, rfl, .omitted rfl, _, _, rfl, .omitted rfl,
      _, _, rfl, .omitted rfl, _, _, rfl, .omitted rfl, _, _, rfl, .omitted rfl, _, _, rfl,
      .omitted rfl, rfl⟩, ?_, List.reverse_perm _, ?_⟩
    · rintro m (_ | ⟨_, ⟨⟩⟩)
      exact ⟨by decide, .null, rfl⟩
    · decide +kernel
  have varPresents : (shapeOf VariableDescriptor).Presents (pack x)
      "\x7b\"value\":\x7b\"k\":[1]\x7d,\"name\":\"x\"\x7d".toList := by
    refine ⟨_, [], _, ⟨_, _, rfl, .kept rfl, _, _, rfl, .kept rfl, rfl⟩,
      List.forall_mem_nil _, List.reverse_perm _, ?_⟩
    decide +kernel
  have presents : s.Presents text := by
    refine ⟨_, [.named "note" note.chars], _, ⟨_, _, rfl, .omitted rfl, _, _, rfl,
      .kept ⟨_, .cons classPresents .nil, rfl⟩, _, _, rfl, .kept ⟨_, .cons varPresents .nil, rfl⟩,
      _, _, rfl, .omitted rfl, rfl⟩, ?_, List.reverse_perm _, ?_⟩
    · rintro m (_ | ⟨_, ⟨⟩⟩)
      exact ⟨by decide, note, rfl⟩
    · decide +kernel
  exact ⟨canonical, presents, (decode_presentation s canonical).2 text presents⟩

end RuntimeSnapshot

end SymbolExport
