import SymbolExport.Model.Value
import SymbolExport.Proofs.SpelledText

/-!
# Reading written values

The compact text of a value reads back as that value, if it holds no number with a fraction and its
containers are not nested deeper than the reader allows. A runtime value survives the way through
JSON if moreover its integers are signed wherever they can be and its maps do not repeat a key.
-/

namespace SymbolExport

namespace Decimal

def Digit.octet (d : Digit) : UInt8 :=
  .ofNat (0x30 + d.val)

theorem Digit.isDigit_octet (d : Digit) : Json.Reader.isDigit d.octet = true := by
  revert d
  decide

theorem Digit.value_octet (d : Digit) : d.octet.toNat - 0x30 = d.val := by
  revert d
  decide

theorem Digit.octets_char (d : Digit) : String.utf8EncodeChar d.char = [d.octet] := by
  revert d
  decide

theorem octets_digits (ds : List Digit) :
    Json.octets (ds.map Digit.char) = ds.map Digit.octet := by
  induction ds with
  | nil => rfl
  | cons d ds ih =>
      rw [List.map_cons, Json.octets_cons, ih, d.octets_char]
      rfl

theorem digitsOf_head (n : Nat) : ∃ d ds, digitsOf n = d :: ds ∧ (d.val = 0 → n = 0) := by
  fun_induction digitsOf n with
  | case1 n small => exact ⟨⟨n, small⟩, [], rfl, id⟩
  | case2 n large ih =>
      obtain ⟨d, ds, digits, zero⟩ := ih
      refine ⟨d, _, by rw [digits]; rfl, fun first => ?_⟩
      have := zero first
      omega

theorem octets_natText (n : Nat) : ∃ b more, Json.octets (natText n) = b :: more ∧
    Json.Reader.isDigit b = true := by
  obtain ⟨d, ds, digits, _⟩ := digitsOf_head n
  exact ⟨d.octet, _, by rw [natText, octets_digits, digits, List.map_cons], d.isDigit_octet⟩

end Decimal

namespace Json

namespace Reader

theorem le_foldl_digits (ds : List Decimal.Digit) (n : Nat) :
    n ≤ ds.foldl (fun n d => 10 * n + d.val) n := by
  induction ds generalizing n with
  | nil => exact Nat.le_refl n
  | cons d ds ih =>
      have := ih (10 * n + d.val)
      rw [List.foldl_cons]
      omega

/-- Digits that spell a number below the limit are all used. -/
theorem accumulate_of_lt {limit : Nat} (ds : List Decimal.Digit) (n : Nat)
    (small : ds.foldl (fun n d => 10 * n + d.val) n < limit) :
    accumulate limit n (ds.map Fin.val) =
      (ds.foldl (fun n d => 10 * n + d.val) n, ds.length, 0) := by
  induction ds generalizing n with
  | nil => rfl
  | cons d ds ih =>
      rw [List.foldl_cons] at small ⊢
      have step : 10 * n + d.val < limit := Nat.lt_of_le_of_lt (le_foldl_digits ds _) small
      rw [List.map_cons, accumulate, if_pos step, ih _ small]
      rfl

theorem accumulate_digitsOf {n : Nat} (small : n < significandLimit) :
    accumulate significandLimit 0 ((Decimal.digitsOf n).map Fin.val) =
      (n, (Decimal.digitsOf n).length, 0) := by
  have spelled : (Decimal.digitsOf n).foldl (fun n d => 10 * n + d.val) 0 = n :=
    Decimal.ofDigits_digitsOf n
  rw [accumulate_of_lt _ 0 (by rwa [spelled]), spelled]

end Reader

namespace Reads

/-- The digits behind the first one, which end with it if it is a zero. -/
theorem digits' {n : Nat} {d : Decimal.Digit} {ds : List Decimal.Digit}
    (spelled : Decimal.digitsOf n = d :: ds) (zero : d.val = 0 → n = 0) (rest : Bytes)
    (ends : Ends rest) :
    Reads (Reader.number.digits' d.octet) (ds.map Decimal.Digit.octet ++ rest) (ds.map Fin.val)
      rest := by
  unfold Reader.number.digits'
  split
  · next leading =>
      have first : d.val = 0 := by rw [← d.value_octet, leading]; rfl
      have alone : ds = [] := by
        rw [zero first, Decimal.digitsOf, dif_pos (by decide)] at spelled
        exact (List.cons.inj spelled).2.symm
      subst alone
      refine bind (peek rest) ?_
      split
      · next b ahead =>
          rw [if_neg (by rw [(ends.stop b ahead).1]; decide)]
          exact pure [] _
      · exact pure [] _
  · have values : ds.map Fin.val = (ds.map Decimal.Digit.octet).map fun b => b.toNat - 0x30 := by
      rw [List.map_map]
      exact List.map_congr_left fun d _ => (Decimal.Digit.value_octet d).symm
    rw [values]
    refine digits ?_ fun b ahead => (ends.stop b ahead).1
    intro b within
    obtain ⟨d, _, rfl⟩ := List.mem_map.mp within
    exact d.isDigit_octet

end Reads

/-- What is read behind digits alone: an integer if all of them were used, else a scaled number. -/
def Reader.numberOf (positive : Bool) (n : Nat) : Reader Number :=
  let (significand, _, left) :=
    Reader.accumulate Reader.significandLimit 0 ((Decimal.digitsOf n).map Fin.val)
  if left = 0 then pure (Reader.integer positive significand)
  else Reader.scaled positive significand left

theorem Reader.numberOf_of_lt (positive : Bool) {n : Nat} (small : n < Reader.significandLimit) :
    Reader.numberOf positive n = pure (Reader.integer positive n) := by
  rw [Reader.numberOf, Reader.accumulate_digitsOf small]
  rfl

namespace Continues

theorem number (positive : Bool) (n : Nat) (rest : Bytes) (ends : Ends rest) :
    Continues (Reader.number positive) (Reader.numberOf positive n)
      (octets (Decimal.natText n) ++ rest) rest := by
  obtain ⟨d, ds, spelled, zero⟩ := Decimal.digitsOf_head n
  rw [Decimal.natText, Decimal.octets_digits, spelled]
  refine bind (.next d.octet (ds.map Decimal.Digit.octet ++ rest)) ?_
  show Continues (if (!Reader.isDigit d.octet) = true then _ else _) _ _ _
  rw [if_neg (by rw [d.isDigit_octet]; decide)]
  refine bind (.digits' spelled zero rest ends) ?_
  rw [Reader.numberOf, spelled, List.map_cons, ← d.value_octet]
  rcases Reader.accumulate Reader.significandLimit 0 _ with ⟨significand, used, left⟩
  refine bind (.peek rest) ?_
  split
  · next point => exact absurd rfl (ends.stop 0x2E point).2.1
  · next mark => exact absurd rfl (ends.stop 0x65 mark).2.2.1
  · next mark => exact absurd rfl (ends.stop 0x45 mark).2.2.2
  · exact refl _ _

variable {list object : Reader Json}

theorem valueWith_digit {b : UInt8} (digit : Reader.isDigit b = true) (more : Bytes) :
    Continues (Reader.valueWith list object) (do pure (← Reader.number true).toJson)
      (b :: more) (b :: more) := by
  have opens : Opens b := by simp [Opens, digit]
  refine bind (.peekToken opens.visible more) ?_
  split
  · contradiction
  all_goals try (next h => cases h; contradiction)
  next b' same =>
    cases same
    rw [if_pos digit]
    exact refl _ _

theorem valueWith_minus (more : Bytes) :
    Continues (Reader.valueWith list object) (do pure (← Reader.number false).toJson)
      (0x2D :: more) more :=
  bind (.peekToken rfl more) (bind (.advance 0x2D more) (refl _ _))

end Continues

theorem ofInt?_val (n : WideInt) : WideInt.ofInt? n.val = some n := by
  rw [WideInt.ofInt?, dif_pos ⟨n.lower, n.upper⟩]

theorem natAbs_lt_limit (n : WideInt) : n.val.natAbs < Reader.significandLimit := by
  have lower := n.lower
  have upper := n.upper
  have limit : Reader.significandLimit = 18446744073709551616 := rfl
  omega

/-- The significand behind a sign is that of the integer it was written for. -/
theorem integer_natAbs (n : WideInt) :
    Reader.integer (decide (0 ≤ n.val)) n.val.natAbs = .int n := by
  unfold Reader.integer
  by_cases nonnegative : 0 ≤ n.val
  · have whole : (n.val.natAbs : Int) = n.val := by omega
    rw [decide_eq_true nonnegative, if_neg (by simp), if_pos rfl, whole, ofInt?_val]
  · have whole : -(n.val.natAbs : Int) = n.val := by omega
    have nonzero : n.val.natAbs ≠ 0 := by omega
    rw [decide_eq_false nonnegative, if_neg (by simp [nonzero]), if_neg Bool.false_ne_true, whole,
      ofInt?_val]

/-- The digits of an integer are read as that integer, if the sign in front of them was its own. -/
theorem Reads.integer {n : WideInt} {positive : Bool} (sign : positive = decide (0 ≤ n.val))
    (rest : Bytes) (ends : Ends rest) :
    Reads (Reader.number positive) (octets (Decimal.natText n.val.natAbs) ++ rest) (.int n)
      rest := by
  rw [sign, ← integer_natAbs n]
  refine (Continues.number _ _ rest ends).reads ?_
  rw [Reader.numberOf_of_lt _ (natAbs_lt_limit n)]
  exact pure _ rest

theorem yields_int (list object : Reader Json) (n : WideInt) :
    Yields (Reader.valueWith list object) (Decimal.intText n.val) (.int n) := by
  unfold Decimal.intText
  split
  · next negative =>
      have sign : false = decide (0 ≤ n.val) := (decide_eq_false (by omega)).symm
      exact ⟨⟨0x2D, _, rfl, by simp [Opens]⟩, fun rest ends =>
        (Continues.valueWith_minus _).reads
          (.bind (.integer sign rest ends) (.pure _ rest))⟩
  · next nonnegative =>
      have sign : true = decide (0 ≤ n.val) := (decide_eq_true (by omega)).symm
      obtain ⟨b, more, starts, digit⟩ := Decimal.octets_natText n.val.natAbs
      refine ⟨⟨b, more, starts, by simp [Opens, digit]⟩, fun rest ends => ?_⟩
      have read := Reads.integer sign rest ends
      rw [starts] at read ⊢
      exact (Continues.valueWith_digit digit _).reads (.bind read (.pure _ rest))

theorem yields_null (list object : Reader Json) :
    Yields (Reader.valueWith list object) (chars .null) .null := by
  refine ⟨⟨0x6E, _, rfl, by simp [Opens]⟩, fun rest ends => ?_⟩
  exact .bind (.peekToken rfl _) (.bind (.advance _ _) (.bind (.word _ rest) (.pure _ rest)))

theorem yields_bool (list object : Reader Json) (b : Bool) :
    Yields (Reader.valueWith list object) (chars (.bool b)) (.bool b) := by
  cases b with
  | true =>
      refine ⟨⟨0x74, _, rfl, by simp [Opens]⟩, fun rest ends => ?_⟩
      exact .bind (.peekToken rfl _) (.bind (.advance _ _) (.bind (.word _ rest) (.pure _ rest)))
  | false =>
      refine ⟨⟨0x66, _, rfl, by simp [Opens]⟩, fun rest ends => ?_⟩
      exact .bind (.peekToken rfl _) (.bind (.advance _ _) (.bind (.word _ rest) (.pure _ rest)))

theorem yields_text (list object : Reader Json) (s : String) :
    Yields (Reader.valueWith list object) (chars (.text s)) (.text s) := by
  refine ⟨⟨0x22, _, rfl, by simp [Opens]⟩, fun rest ends => ?_⟩
  obtain ⟨more, starts, read⟩ := (quotes_literal s).octets rest
  rw [chars, starts]
  exact .bind (.peekToken rfl _) (.bind (.advance _ _) (.bind read (.pure _ rest)))

mutual

/-- How deep the containers of a value are nested. -/
def nesting : Json → Nat
  | .null => 0
  | .bool _ => 0
  | .int _ => 0
  | .float _ => 0
  | .text _ => 0
  | .list items => itemsNesting items + 1
  | .object fields => fieldsNesting fields + 1

def itemsNesting : List Json → Nat
  | [] => 0
  | item :: items => max (nesting item) (itemsNesting items)

def fieldsNesting : List (String × Json) → Nat
  | [] => 0
  | (_, value) :: fields => max (nesting value) (fieldsNesting fields)

end

theorem nesting_lt_of_mem_items {item : Json} {items : List Json} (within : item ∈ items) :
    item.nesting < (Json.list items).nesting := by
  rw [nesting]
  induction within with
  | head items => rw [itemsNesting]; omega
  | tail _ _ ih => rw [itemsNesting]; omega

theorem nesting_lt_of_mem_fields {field : String × Json} {fields : List (String × Json)}
    (within : field ∈ fields) : field.2.nesting < (Json.object fields).nesting := by
  rw [nesting]
  induction within with
  | head fields => rw [fieldsNesting]; omega
  | tail _ _ ih => rw [fieldsNesting]; omega

/-- A value without a float all of whose objects have distinct keys. -/
inductive Canonical : Json → Prop where
  | null : Canonical .null
  | bool (b : Bool) : Canonical (.bool b)
  | int (n : WideInt) : Canonical (.int n)
  | text (s : String) : Canonical (.text s)
  | list {items : List Json} : (∀ item ∈ items, Canonical item) → Canonical (.list items)
  | object {fields : List (String × Json)} :
      (fields.map Prod.fst).Nodup → (∀ field ∈ fields, Canonical field.2) →
      Canonical (.object fields)

theorem itemsChars_eq (items : List Json) :
    itemsChars items = joined false (items.map chars) ++ [']'] := by
  induction items with
  | nil => rfl
  | cons item items ih => simp [itemsChars, ih, joined, comma]

theorem chars_list (items : List Json) :
    chars (.list items) = enclosed '[' ']' (items.map chars) := by
  cases items with
  | nil => rfl
  | cons item items => simp [chars, itemsChars_eq, enclosed, joined, comma]

def fieldChars (field : String × Json) : List Char :=
  literal field.1 ++ ':' :: chars field.2

theorem fieldsChars_eq (fields : List (String × Json)) :
    fieldsChars fields = joined false (fields.map fieldChars) ++ ['\x7d'] := by
  induction fields with
  | nil => rfl
  | cons field fields ih => simp [fieldsChars, ih, joined, comma, fieldChars]

theorem chars_object (fields : List (String × Json)) :
    chars (.object fields) = enclosed '\x7b' '\x7d' (fields.map fieldChars) := by
  cases fields with
  | nil => rfl
  | cons field fields => simp [chars, fieldsChars_eq, enclosed, joined, comma, fieldChars]

def YieldsField {α : Type} (item : Reader α) (text : List Char) (field : String × α) : Prop :=
  ∃ keyText valueText, text = keyText ++ ':' :: valueText ∧ Quotes keyText field.1 ∧
    Yields item valueText field.2

namespace Reads

theorem fieldsFrom {α : Type} {item : Reader α} {texts : List (List Char)}
    {fields : List (String × α)} (yields : List.Forall₂ (YieldsField item) texts fields)
    (first : Bool) (fuel : Nat) (rest : Bytes)
    (enough : (octets (joined first texts) ++ 0x7D :: rest).length < fuel) :
    Reads (Reader.fieldsFrom item fuel first) (octets (joined first texts) ++ 0x7D :: rest) fields
      (0x7D :: rest) := by
  induction yields generalizing first fuel with
  | nil =>
      obtain ⟨fuel, rfl⟩ := Nat.exists_eq_add_one_of_ne_zero (Nat.ne_zero_of_lt enough)
      exact bind (nextKey_end first rest) (pure [] _)
  | @cons text field texts fields yield _ ih =>
      obtain ⟨fuel, rfl⟩ := Nat.exists_eq_add_one_of_ne_zero (Nat.ne_zero_of_lt enough)
      obtain ⟨keyText, valueText, rfl, quotes, yield⟩ := yield
      have here : octets (joined first ((keyText ++ ':' :: valueText) :: texts)) ++ 0x7D :: rest =
          octets (comma first) ++ (octets keyText ++
            0x3A :: (octets valueText ++ (octets (joined false texts) ++ 0x7D :: rest))) := by
        simp only [joined, octets_append, List.append_assoc]
        rfl
      rw [here] at enough ⊢
      have behind : Ends (octets (joined false texts) ++ 0x7D :: rest) :=
        ends_joined texts (.brace rest)
      have shorter : (octets (joined false texts) ++ 0x7D :: rest).length < fuel := by
        simp only [List.length_append, List.length_cons] at enough ⊢
        omega
      exact bind (nextKey first quotes _) (bind (colon _) (bind (yield.reads _ behind)
        (bind (ih false fuel shorter) (pure (field :: fields) _))))

theorem object {α : Type} {item : Reader α} {texts : List (List Char)}
    {fields : List (String × α)} (yields : List.Forall₂ (YieldsField item) texts fields)
    (rest : Bytes) :
    Reads (Reader.object item) (octets (joined true texts) ++ 0x7D :: rest) fields rest :=
  bind (remaining _) (bind (fieldsFrom yields true _ rest (Nat.lt_succ_self _))
    (bind (closeObject rest) (pure fields rest)))

end Reads

/-- At every depth the same octets select the kind of a value. -/
theorem exists_valueWith (depth : Nat) :
    ∃ list object, Reader.value depth = Reader.valueWith list object := by
  cases depth with
  | zero => exact ⟨_, _, rfl⟩
  | succ depth => exact ⟨_, _, rfl⟩

theorem yields_value {v : Json} (canonical : v.Canonical) (depth : Nat)
    (shallow : v.nesting ≤ depth) : Yields (Reader.value depth) v.chars v := by
  induction canonical generalizing depth with
  | null =>
      obtain ⟨list, object, same⟩ := exists_valueWith depth
      exact same ▸ yields_null list object
  | bool b =>
      obtain ⟨list, object, same⟩ := exists_valueWith depth
      exact same ▸ yields_bool list object b
  | int n =>
      obtain ⟨list, object, same⟩ := exists_valueWith depth
      exact same ▸ yields_int list object n
  | text s =>
      obtain ⟨list, object, same⟩ := exists_valueWith depth
      exact same ▸ yields_text list object s
  | @list items _ ih =>
      obtain ⟨depth, rfl⟩ := Nat.exists_eq_add_one_of_ne_zero (Nat.ne_zero_of_lt shallow)
      have yields : List.Forall₂ (Yields (Reader.value depth)) (items.map chars) items := by
        rw [List.forall₂_map_left_iff, List.forall₂_same]
        intro item within
        have := nesting_lt_of_mem_items within
        exact ih item within depth (by omega)
      rw [chars_list]
      refine ⟨⟨0x5B, _, rfl, by simp [Opens]⟩, fun rest ends => ?_⟩
      rw [octets_list]
      exact .bind (.peekToken rfl _) (.bind (.advance _ _)
        (.bind (.list yields rest) (.pure _ rest)))
  | @object fields distinct _ ih =>
      obtain ⟨depth, rfl⟩ := Nat.exists_eq_add_one_of_ne_zero (Nat.ne_zero_of_lt shallow)
      have yields : List.Forall₂ (YieldsField (Reader.value depth)) (fields.map fieldChars)
          fields := by
        rw [List.forall₂_map_left_iff, List.forall₂_same]
        rintro ⟨key, value⟩ within
        have := nesting_lt_of_mem_fields within
        exact ⟨literal key, value.chars, rfl, quotes_literal key,
          ih (key, value) within depth (by omega)⟩
      rw [chars_object]
      refine ⟨⟨0x7B, _, rfl, by simp [Opens]⟩, fun rest ends => ?_⟩
      rw [octets_object]
      exact .bind (.peekToken rfl _) (.bind (.advance _ _)
        (.bind (.object yields rest) (.pure _ rest)))

theorem putField_of_not_mem {α : Type} {fields : List (String × α)} {key : String}
    (new : key ∉ fields.map Prod.fst) (value : α) :
    putField fields key value = fields ++ [(key, value)] := by
  induction fields with
  | nil => rfl
  | cons field fields ih =>
      rw [List.map_cons, List.mem_cons, not_or] at new
      rw [putField, if_neg (Ne.symm new.1), ih new.2]
      rfl

theorem putFields_of_nodup {α : Type} (fields new : List (String × α))
    (distinct : ((fields ++ new).map Prod.fst).Nodup) : putFields fields new = fields ++ new := by
  induction new generalizing fields with
  | nil => rw [List.append_nil]; rfl
  | cons field new ih =>
      have absent : field.1 ∉ fields.map Prod.fst := by
        rw [List.map_append, List.map_cons] at distinct
        intro present
        exact (List.nodup_append.mp distinct).2.2 _ present _ List.mem_cons_self rfl
      have step : putFields fields (field :: new) =
          putFields (putField fields field.1 field.2) new := rfl
      rw [step, putField_of_not_mem absent, ih _ (by rwa [List.append_assoc]), List.append_assoc]
      rfl

theorem mergedItems_of_merged {items : List Json} (all : ∀ item ∈ items, item.merged = item) :
    mergedItems items = items := by
  induction items with
  | nil => rfl
  | cons item items ih =>
      rw [List.forall_mem_cons] at all
      rw [mergedItems, all.1, ih all.2]

theorem mergedFields_of_merged {fields : List (String × Json)}
    (all : ∀ field ∈ fields, field.2.merged = field.2) : mergedFields fields = fields := by
  induction fields with
  | nil => rfl
  | cons field fields ih =>
      rw [List.forall_mem_cons] at all
      rw [mergedFields, all.1, ih all.2]

/-- Nothing is merged where no key repeats. -/
theorem Canonical.merged_eq {v : Json} (canonical : v.Canonical) : v.merged = v := by
  induction canonical with
  | null => rfl
  | bool b => rfl
  | int n => rfl
  | text s => rfl
  | list _ ih => rw [Json.merged, mergedItems_of_merged ih]
  | object distinct _ ih =>
      rw [Json.merged, mergedFields_of_merged ih, putFields_of_nodup [] _ distinct, List.nil_append]

end Json

namespace RuntimeValue

/--
A value as JSON gives it back: no float, an unsigned integer only where a signed one does not fit,
and no map that repeats a key.
-/
inductive Canonical : RuntimeValue → Prop where
  | null : Canonical .null
  | bool (b : Bool) : Canonical (.bool b)
  | int (n : Int64) : Canonical (.int n)
  | uint {n : UInt64} : 9223372036854775807 < n.toNat → Canonical (.uint n)
  | text (s : String) : Canonical (.text s)
  | list {items : List RuntimeValue} : (∀ item ∈ items, Canonical item) → Canonical (.list items)
  | map {fields : List (String × Json)} : Json.Canonical (.object fields) → Canonical (.map fields)

theorem ofWideInt_ofInt64 (n : Int64) : ofWideInt (.ofInt64 n) = .int n := by
  have small : (WideInt.ofInt64 n).val < 9223372036854775808 := n.toInt_lt
  rw [ofWideInt, if_pos small]
  exact congrArg RuntimeValue.int n.ofInt_toInt

theorem ofWideInt_ofUInt64 {n : UInt64} (large : 9223372036854775807 < n.toNat) :
    ofWideInt (.ofUInt64 n) = .uint n := by
  have outside : ¬(WideInt.ofUInt64 n).val < 9223372036854775808 := by
    show ¬(n.toNat : Int) < 9223372036854775808
    omega
  rw [ofWideInt, if_neg outside]
  exact congrArg RuntimeValue.uint n.ofNat_toNat

theorem itemsToJson_eq (items : List RuntimeValue) : itemsToJson items = items.map toJson := by
  induction items with
  | nil => rfl
  | cons item items ih => rw [itemsToJson, ih, List.map_cons]

theorem ofItems_eq (items : List Json) : ofItems items = items.map ofJson := by
  induction items with
  | nil => rfl
  | cons item items ih => rw [ofItems, ih, List.map_cons]

theorem Canonical.ofJson_toJson {v : RuntimeValue} (canonical : v.Canonical) :
    ofJson v.toJson = v := by
  induction canonical with
  | null => rfl
  | bool b => rfl
  | int n => exact ofWideInt_ofInt64 n
  | uint large => exact ofWideInt_ofUInt64 large
  | text s => rfl
  | @list items _ ih =>
      rw [toJson, ofJson, itemsToJson_eq, ofItems_eq, List.map_map]
      exact congrArg RuntimeValue.list ((List.map_congr_left ih).trans (List.map_id items))
  | map canonical =>
      have same := canonical.merged_eq
      rw [Json.merged, Json.object.injEq] at same
      rw [toJson, ofJson, same]

theorem Canonical.toJson {v : RuntimeValue} (canonical : v.Canonical) : v.toJson.Canonical := by
  induction canonical with
  | null => exact .null
  | bool b => exact .bool b
  | int n => exact .int _
  | uint _ => exact .int _
  | text s => exact .text s
  | list _ ih =>
      rw [RuntimeValue.toJson, itemsToJson_eq]
      refine .list fun item within => ?_
      obtain ⟨v, inside, rfl⟩ := List.mem_map.mp within
      exact ih v inside
  | map canonical => exact canonical

end RuntimeValue

end SymbolExport
