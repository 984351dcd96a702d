import SymbolExport.Proofs.FiniteNumbers
import SymbolExport.Proofs.Presentation

/-!
# Results of reading

What can be said of everything that a reader gives, whatever it reads. A value that comes out of a
text is nested no deeper than the reader allows, and the numbers in it are finite. Inside a
structure the runtime values are read with as many levels left as the containers around them leave.
-/

namespace SymbolExport

namespace Json

mutual

def floats : Json → List Float
  | .null => []
  | .bool _ => []
  | .int _ => []
  | .float f => [f]
  | .text _ => []
  | .list items => itemsFloats items
  | .object fields => fieldsFloats fields

def itemsFloats : List Json → List Float
  | [] => []
  | item :: items => floats item ++ itemsFloats items

def fieldsFloats : List (String × Json) → List Float
  | [] => []
  | (_, value) :: fields => floats value ++ fieldsFloats fields

end

theorem floats_list (items : List Json) : floats (.list items) = items.flatMap floats := by
  rw [floats]
  induction items with
  | nil => rfl
  | cons item items ih => rw [itemsFloats, ih, List.flatMap_cons]

theorem floats_object (fields : List (String × Json)) :
    floats (.object fields) = fields.flatMap fun field => floats field.2 := by
  rw [floats]
  induction fields with
  | nil => rfl
  | cons field fields ih => rw [fieldsFloats, ih, List.flatMap_cons]

theorem nesting_list_le {items : List Json} {depth : Nat}
    (all : ∀ item ∈ items, item.nesting ≤ depth) : (Json.list items).nesting ≤ depth + 1 := by
  rw [nesting]
  induction items with
  | nil => exact Nat.le_add_left 1 depth
  | cons item items ih =>
      rw [List.forall_mem_cons] at all
      have := ih all.2
      rw [itemsNesting]
      omega

theorem nesting_object_le {fields : List (String × Json)} {depth : Nat}
    (all : ∀ field ∈ fields, field.2.nesting ≤ depth) :
    (Json.object fields).nesting ≤ depth + 1 := by
  rw [nesting]
  induction fields with
  | nil => exact Nat.le_add_left 1 depth
  | cons field fields ih =>
      rw [List.forall_mem_cons] at all
      have := ih all.2
      rw [fieldsNesting]
      omega

/-- What is read with some levels left: no deeper than they allow, and without an infinity. -/
structure ReadWithin (depth : Nat) (v : Json) : Prop where
  shallow : v.nesting ≤ depth
  finite : ∀ f ∈ v.floats, f.isFinite = true

namespace ReadWithin

variable {depth : Nat}

theorem of_scalar {v : Json} (scalar : v.nesting = 0) (none : v.floats = []) :
    ReadWithin depth v where
  shallow := scalar ▸ Nat.zero_le depth
  finite := by simp [none]

theorem list {items : List Json} (all : ∀ item ∈ items, ReadWithin depth item) :
    ReadWithin (depth + 1) (.list items) where
  shallow := nesting_list_le fun item within => (all item within).shallow
  finite := by
    intro f within
    rw [floats_list, List.mem_flatMap] at within
    obtain ⟨item, listed, inside⟩ := within
    exact (all item listed).finite f inside

theorem object {fields : List (String × Json)} (all : ∀ field ∈ fields, ReadWithin depth field.2) :
    ReadWithin (depth + 1) (.object fields) where
  shallow := nesting_object_le fun field within => (all field within).shallow
  finite := by
    intro f within
    rw [floats_object, List.mem_flatMap] at within
    obtain ⟨field, listed, inside⟩ := within
    exact (all field listed).finite f inside

end ReadWithin

/-- Every value that the reader gives has a property. -/
structure Ensures {α : Type} (reader : Reader α) (post : α → Prop) : Prop where
  holds : ∀ c a c', reader c = .ok (a, c') → post a

namespace Ensures

variable {α β : Type} {post : α → Prop}

theorem pure {a : α} (holds : post a) : Ensures (Pure.pure a) post := by
  constructor
  intro c a' c' same
  cases same
  exact holds

theorem fail (cause : Cause) : Ensures (Reader.fail cause) post :=
  ⟨fun _ _ _ same => nomatch same⟩

theorem failAhead (cause : Cause) : Ensures (Reader.failAhead cause) post :=
  ⟨fun _ _ _ same => nomatch same⟩

theorem bind {reader : Reader β} {next : β → Reader α} {between : β → Prop}
    (first : Ensures reader between) (second : ∀ b, between b → Ensures (next b) post) :
    Ensures (reader >>= next) post := by
  constructor
  intro c a c' same
  change (reader c >>= fun p => next p.1 p.2) = .ok (a, c') at same
  cases read : reader c with
  | error fault => rw [read] at same; cases same
  | ok p =>
      rw [read] at same
      exact (second p.1 (first.holds c p.1 p.2 read)).holds p.2 a c' same

/-- Where nothing is known of the first result. -/
theorem skip {reader : Reader β} {next : β → Reader α} (second : ∀ b, Ensures (next b) post) :
    Ensures (reader >>= next) post :=
  bind ⟨fun _ _ _ _ => trivial⟩ fun b (_ : True) => second b

theorem run {reader : Reader α} (ensures : Ensures reader post) {input : Bytes} {a : α}
    (same : Reader.run reader input = .ok a) : post a := by
  have whole : Ensures (do let a ← reader; Reader.finish; Pure.pure a : Reader α) post :=
    bind ensures fun a holds => skip fun _ => pure holds
  obtain ⟨c, read⟩ := Reader.run_eq_ok_iff.mp same
  exact whole.holds _ a c read

theorem itemsFrom {item : Reader α} (each : Ensures item post) (fuel : Nat) (first : Bool) :
    Ensures (Reader.itemsFrom item fuel first) fun items => ∀ a ∈ items, post a := by
  induction fuel generalizing first with
  | zero => exact failAhead _
  | succ fuel ih =>
      apply skip
      intro more
      split
      · apply bind each
        intro a holds
        apply bind (ih false)
        intro rest all
        exact pure (List.forall_mem_cons.2 ⟨holds, all⟩)
      · exact pure (List.forall_mem_nil _)

theorem list {item : Reader α} (each : Ensures item post) :
    Ensures (Reader.list item) fun items => ∀ a ∈ items, post a := by
  apply skip
  intro n
  apply bind (itemsFrom each _ true)
  intro items all
  exact skip fun _ => pure all

theorem fieldsFrom {item : Reader α} (each : Ensures item post) (fuel : Nat) (first : Bool) :
    Ensures (Reader.fieldsFrom item fuel first) fun fields => ∀ field ∈ fields, post field.2 := by
  induction fuel generalizing first with
  | zero => exact failAhead _
  | succ fuel ih =>
      apply skip
      intro key
      split
      · exact pure (List.forall_mem_nil _)
      · apply skip
        intro _
        apply bind each
        intro a holds
        apply bind (ih false)
        intro rest all
        exact pure (List.forall_mem_cons.2 ⟨holds, all⟩)

theorem object {item : Reader α} (each : Ensures item post) :
    Ensures (Reader.object item) fun fields => ∀ field ∈ fields, post field.2 := by
  apply skip
  intro n
  apply bind (fieldsFrom each _ true)
  intro fields all
  exact skip fun _ => pure all

theorem descend {depth : Nat} {inside : Nat → Reader α}
    (within : ∀ d, depth = d + 1 → Ensures (inside d) post) :
    Ensures (Reader.descend depth inside) post := by
  cases depth with
  | zero => exact failAhead _
  | succ d => exact skip fun _ => within d rfl

/-- The loop over the members of an object keeps what each member keeps. -/
theorem collectFields {field : String → α → Reader α}
    (step : ∀ key slots, post slots → Ensures (field key slots) post) (fuel : Nat) (first : Bool)
    (slots : α) (start : post slots) :
    Ensures (Reader.collectFields field fuel first slots) post := by
  induction fuel generalizing first slots with
  | zero => exact failAhead _
  | succ fuel ih =>
      apply skip
      intro key
      split
      · exact pure start
      · exact bind (step _ _ start) fun slots holds => ih false slots holds

theorem mistyped (expected : String) : Ensures (Reader.mistyped expected) post := by
  apply skip
  intro ahead
  split
  · exact skip fun _ => skip fun _ => fail _
  · exact skip fun _ => skip fun _ => fail _
  · exact skip fun _ => skip fun _ => fail _
  · exact skip fun _ => skip fun _ => fail _
  · exact skip fun _ => skip fun _ => fail _
  · exact fail _
  · exact fail _
  · split
    · exact skip fun _ => fail _
    · exact failAhead _
  · exact failAhead _

theorem duplicate (name : String) : Ensures (Reader.duplicate name) post := by
  apply skip
  intro ahead
  split
  · exact skip fun _ => fail _
  · exact fail _

end Ensures

section Numbers

theorem readWithin_signed (positive : Bool) {f : Float} (finite : f.isFinite = true) :
    ReadWithin 0 (Reader.signed positive f).toJson where
  shallow := Nat.le_refl 0
  finite := by
    intro g within
    cases List.mem_singleton.1 within
    cases positive with
    | true => exact finite
    | false => exact Decimal.isFinite_neg finite

theorem readWithin_integer (positive : Bool) (significand : Nat) :
    ReadWithin 0 (Reader.integer positive significand).toJson := by
  unfold Reader.integer
  split
  · exact readWithin_signed false (by decide +kernel)
  · split
    · exact .of_scalar rfl rfl
    · exact readWithin_signed positive (Decimal.isFinite_toFloat _)

namespace Ensures

variable (positive : Bool) (significand : Nat) (exponent : Int)

theorem scaled :
    Ensures (Reader.scaled positive significand exponent) fun n => ReadWithin 0 n.toJson := by
  unfold Reader.scaled
  split
  · next f read => exact pure (readWithin_signed positive (Decimal.isFinite_scaled? _ _ f read))
  · exact fail _

theorem exponentPart :
    Ensures (Reader.exponentPart positive significand exponent) fun n =>
      ReadWithin 0 n.toJson := by
  apply skip
  intro sign
  -- Whatever the sign of the exponent, the same reader goes on.
  split
  case' h_1 => refine skip fun _ => ?_
  case' h_2 => refine skip fun _ => ?_
  all_goals
    refine skip fun negative => skip fun digit => ?_
    split
    · exact fail _
    · split
      · constructor
        intro c n c' same
        dsimp only at same
        split at same
        · exact (scaled _ _ _).holds _ _ _ same
        · split at same
          · cases same
          · cases same
            exact readWithin_signed positive (by decide +kernel)
      · exact fail _

theorem fractionPart :
    Ensures (Reader.fractionPart positive significand exponent) fun n =>
      ReadWithin 0 n.toJson := by
  apply skip
  intro ds
  split
  · apply skip
    intro ahead
    split
    · exact failAhead _
    · exact failAhead _
  · apply skip
    intro ahead
    split
    · exact skip fun _ => exponentPart _ _ _
    · exact skip fun _ => exponentPart _ _ _
    · exact scaled _ _ _

theorem number : Ensures (Reader.number positive) fun n => ReadWithin 0 n.toJson := by
  apply skip
  intro ahead
  split
  · exact fail _
  · split
    · exact fail _
    · apply skip
      intro more
      rcases Reader.accumulate Reader.significandLimit 0 _ with ⟨significand, used, left⟩
      apply skip
      intro behind
      split
      · exact skip fun _ => fractionPart _ _ _
      · exact skip fun _ => exponentPart _ _ _
      · exact skip fun _ => exponentPart _ _ _
      · split
        · exact pure (readWithin_integer _ _)
        · exact scaled _ _ _

end Ensures

end Numbers

theorem ReadWithin.mono {small large : Nat} {v : Json} (read : ReadWithin small v)
    (le : small ≤ large) : ReadWithin large v :=
  ⟨Nat.le_trans read.shallow le, read.finite⟩

namespace Ensures

theorem valueWith {depth : Nat} {list object : Reader Json}
    (lists : Ensures list (ReadWithin depth)) (objects : Ensures object (ReadWithin depth)) :
    Ensures (Reader.valueWith list object) (ReadWithin depth) := by
  have number (positive : Bool) :
      Ensures (do Pure.pure (← Reader.number positive).toJson : Reader Json) (ReadWithin depth) :=
    bind (Ensures.number positive) fun n read => pure (read.mono (Nat.zero_le depth))
  apply skip
  intro ahead
  split
  · exact failAhead _
  · exact skip fun _ => skip fun _ => pure (.of_scalar rfl rfl)
  · exact skip fun _ => skip fun _ => pure (.of_scalar rfl rfl)
  · exact skip fun _ => skip fun _ => pure (.of_scalar rfl rfl)
  · exact skip fun _ => number false
  · exact skip fun _ => skip fun _ => pure (.of_scalar rfl rfl)
  · exact lists
  · exact objects
  · split
    · exact number true
    · exact failAhead _

theorem value (depth : Nat) : Ensures (Reader.value depth) (ReadWithin depth) := by
  induction depth with
  | zero => exact valueWith (failAhead _) (failAhead _)
  | succ depth ih =>
      apply valueWith
      · exact skip fun _ => bind (list ih) fun items all => pure (.list all)
      · exact skip fun _ => bind (object ih) fun fields all => pure (.object all)

end Ensures

end Json

open Json

mutual

/-- The runtime values inside have a property, each with the levels that are left for it. -/
def Shape.Every (p : Nat → RuntimeValue → Prop) : (shape : Shape) → Nat → shape.Value → Prop
  | .value, depth, v => p depth v
  | .optional inner, depth, v => ∀ w ∈ v, inner.Every p depth w
  | .list item, depth, vs => ∀ v ∈ vs, item.Every p (depth - 1) v
  | .struct _ fields, depth, v => fields.Every p (depth - 1) v
  | .text, _, _ => True
  | .flag, _, _ => True
  | .count, _, _ => True
  | .choice _, _, _ => True

def Fields.Every (p : Nat → RuntimeValue → Prop) :
    (fields : Fields) → Nat → fields.Value → Prop
  | .nil, _, _ => True
  | .required _ shape others, depth, (v, rest) =>
      shape.Every p depth v ∧ others.Every p depth rest
  | .defaulted _ shape others, depth, (v, rest) =>
      (∀ w ∈ v, shape.Every p depth w) ∧ others.Every p depth rest

end

def Fields.EverySlot (p : Nat → RuntimeValue → Prop) :
    (fields : Fields) → Nat → fields.Slots → Prop
  | .nil, _, _ => True
  | .required _ shape others, depth, (v, rest) =>
      (∀ w ∈ v, shape.Every p depth w) ∧ others.EverySlot p depth rest
  | .defaulted _ shape others, depth, (v, rest) =>
      (∀ w ∈ v, shape.Every p depth w) ∧ others.EverySlot p depth rest

section Reading

variable {p : Nat → RuntimeValue → Prop}

theorem Fields.everySlot_noSlots : (fields : Fields) → (depth : Nat) →
    fields.EverySlot p depth fields.noSlots
  | .nil, _ => trivial
  | .required _ _ others, depth =>
      ⟨fun w seen => absurd seen (Option.not_mem_none w), others.everySlot_noSlots depth⟩
  | .defaulted _ _ others, depth =>
      ⟨fun w seen => absurd seen (Option.not_mem_none w), others.everySlot_noSlots depth⟩

theorem Fields.every_of_complete : (fields : Fields) → (depth : Nat) → (slots : fields.Slots) →
    (v : fields.Value) → fields.EverySlot p depth slots → fields.complete slots = .ok v →
    fields.Every p depth v
  | .nil, _, _, _, _, _ => trivial
  | .required _ _ _, _, (none, _), _, _, complete => nomatch complete
  | .required _ _ others, depth, (some v, rest), _, every, complete => by
      rw [Fields.complete] at complete
      cases same : others.complete rest with
      | error name => rw [same] at complete; cases complete
      | ok behind =>
          rw [same] at complete
          cases complete
          exact ⟨every.1 v rfl, others.every_of_complete depth rest behind every.2 same⟩
  | .defaulted _ _ others, depth, (slot, rest), _, every, complete => by
      rw [Fields.complete] at complete
      cases same : others.complete rest with
      | error name => rw [same] at complete; cases complete
      | ok behind =>
          rw [same] at complete
          cases complete
          exact ⟨every.1, others.every_of_complete depth rest behind every.2 same⟩

mutual

/-- Everything a shape's reader gives holds only runtime values as they are read at their depth. -/
theorem Shape.ensures_read (read : ∀ depth v, ReadWithin depth v → p depth (.ofJson v)) :
    (shape : Shape) → (depth : Nat) → Ensures (shape.read depth) (shape.Every p depth)
  | .text, _ => ⟨fun _ _ _ _ => trivial⟩
  | .flag, _ => ⟨fun _ _ _ _ => trivial⟩
  | .count, _ => ⟨fun _ _ _ _ => trivial⟩
  | .choice _, _ => ⟨fun _ _ _ _ => trivial⟩
  | .value, depth => .bind (.value depth) fun v within => .pure (read depth v within)
  | .optional inner, depth => by
      rw [Shape.read]
      apply Ensures.skip
      intro ahead
      split
      · exact .skip fun _ => .skip fun _ => .pure fun w seen => absurd seen (Option.not_mem_none w)
      · apply Ensures.bind (inner.ensures_read read depth)
        intro v every
        apply Ensures.pure
        rintro _ ⟨⟩
        exact every
  | .list item, depth => by
      rw [Shape.read]
      apply Ensures.skip
      intro ahead
      split
      · exact .failAhead _
      · apply Ensures.descend
        rintro d rfl
        exact .list (item.ensures_read read d)
      · exact .mistyped _
  | .struct title fields, depth => by
      rw [Shape.read]
      apply Ensures.skip
      intro ahead
      split
      · exact .failAhead _
      · apply Ensures.descend
        rintro d rfl
        exact fields.ensures_readItems read title fields.length d 0
      · apply Ensures.descend
        rintro d rfl
        apply Ensures.skip
        intro n
        apply Ensures.bind (Ensures.collectFields (fields.ensures_readField read d) _ true _
          (fields.everySlot_noSlots d))
        intro slots every
        apply Ensures.skip
        intro _
        split
        · next v complete => exact .pure (fields.every_of_complete d slots v every complete)
        · exact .fail _
      · exact .mistyped _

theorem Fields.ensures_readItems (read : ∀ depth v, ReadWithin depth v → p depth (.ofJson v)) :
    (fields : Fields) → (title : String) → (total depth index : Nat) →
    Ensures (fields.readItems title total depth index) (fields.Every p depth)
  | .nil, _, _, _, _ => ⟨fun _ _ _ _ => trivial⟩
  | .required _ shape others, title, total, depth, index => by
      rw [Fields.readItems]
      apply Ensures.skip
      intro more
      split
      · apply Ensures.bind (shape.ensures_read read depth)
        intro v every
        apply Ensures.bind (others.ensures_readItems read title total depth (index + 1))
        intro rest behind
        exact .pure ⟨every, behind⟩
      · exact .skip fun _ => .fail _
  | .defaulted _ shape others, title, total, depth, index => by
      rw [Fields.readItems]
      apply Ensures.skip
      intro more
      split
      · apply Ensures.bind (shape.ensures_read read depth)
        intro v every
        apply Ensures.bind (others.ensures_readItems read title total depth (index + 1))
        intro rest behind
        apply Ensures.pure
        refine ⟨?_, behind⟩
        rintro _ ⟨⟩
        exact every
      · apply Ensures.bind (others.ensures_readItems read title total depth (index + 1))
        intro rest behind
        exact .pure ⟨fun w seen => absurd seen (Option.not_mem_none w), behind⟩

theorem Fields.ensures_readField (read : ∀ depth v, ReadWithin depth v → p depth (.ofJson v)) :
    (fields : Fields) → (depth : Nat) → (key : String) → (slots : fields.Slots) →
    fields.EverySlot p depth slots →
    Ensures (fields.readField depth key slots) (fields.EverySlot p depth)
  | .nil, _, _, _, _ => ⟨fun _ _ _ _ => trivial⟩
  | .required name shape others, depth, key, (slot, rest), every => by
      change Ensures (if key = name then _ else _) _
      split
      · split
        · exact .duplicate _
        · exact .skip fun _ => .bind (shape.ensures_read read depth) fun v read =>
            .pure ⟨fun _ same => Option.some.inj same ▸ read, every.2⟩
      · exact .bind (others.ensures_readField read depth key rest every.2) fun _ behind =>
          .pure ⟨every.1, behind⟩
  | .defaulted name shape others, depth, key, (slot, rest), every => by
      change Ensures (if key = name then _ else _) _
      split
      · split
        · exact .duplicate _
        · exact .skip fun _ => .bind (shape.ensures_read read depth) fun v read =>
            .pure ⟨fun _ same => Option.some.inj same ▸ read, every.2⟩
      · exact .bind (others.ensures_readField read depth key rest every.2) fun _ behind =>
          .pure ⟨every.1, behind⟩

end

end Reading

end SymbolExport
