import SymbolExport.Json.Value

/-!
# Content before its shape is known

What a document holds, read in full before anything is asked of it. Other than in JSON a key may be
anything, and an integer remembers whether it was written with a sign. Every JSON value is content,
and content all of whose keys are texts is a JSON value.
-/

namespace SymbolExport

/-- What a document holds. -/
inductive Content where
  | null
  | bool (b : Bool)
  | uint (n : UInt64)
  | int (n : Int64)
  | float (f : Float)
  | text (s : String)
  | list (items : List Content)
  | map (entries : List (Content × Content))
deriving Inhabited

namespace Content

/-- A 64-bit integer: unsigned unless it is negative. -/
def ofWideInt (n : WideInt) : Content :=
  if 0 ≤ n.val then .uint (UInt64.ofNat n.val.toNat) else .int (Int64.ofInt n.val)

def isText (name : String) : Content → Bool
  | .text s => s = name
  | _ => false

mutual

def ofJson : Json → Content
  | .null => .null
  | .bool b => .bool b
  | .int n => ofWideInt n
  | .float f => .float f
  | .text s => .text s
  | .list items => .list (ofItems items)
  | .object fields => .map (ofFields fields)

def ofItems : List Json → List Content
  | [] => []
  | item :: items => ofJson item :: ofItems items

/-- The entries that the fields of a JSON object make. -/
def ofFields : List (String × Json) → List (Content × Content)
  | [] => []
  | (key, value) :: fields => (.text key, ofJson value) :: ofFields fields

end

mutual

/-- The JSON value that content makes, if its keys are texts. -/
def toJson? : Content → Option Json
  | .null => some .null
  | .bool b => some (.bool b)
  | .uint n => some (.int (.ofUInt64 n))
  | .int n => some (.int (.ofInt64 n))
  | .float f => some (.float f)
  | .text s => some (.text s)
  | .list items => (itemsToJson? items).map .list
  | .map entries => (entriesToJson? entries).map .object

/-- The JSON values that contents make, if their keys are texts. -/
def itemsToJson? : List Content → Option (List Json)
  | [] => some []
  | item :: items => do
      let v ← toJson? item
      let vs ← itemsToJson? items
      some (v :: vs)

/-- The fields of a JSON object that entries make, if their keys are texts. -/
def entriesToJson? : List (Content × Content) → Option (List (String × Json))
  | [] => some []
  | (.text key, value) :: entries => do
      let v ← toJson? value
      let fields ← entriesToJson? entries
      some ((key, v) :: fields)
  | _ :: _ => none

end

/-- An integer is the same number on the way to content and back. -/
theorem toJson?_ofWideInt (n : WideInt) : (ofWideInt n).toJson? = some (.int n) := by
  obtain ⟨i, lower, upper⟩ := n
  by_cases h : 0 ≤ i
  · have word : ((UInt64.ofNat i.toNat).toNat : Int) = i := by
      rw [UInt64.toNat_ofNat_of_lt' (show i.toNat < UInt64.size by simp only [UInt64.size]; omega)]
      omega
    simp only [ofWideInt, h, if_true, toJson?, WideInt.ofUInt64, word]
  · have word : (Int64.ofInt i).toInt = i := Int64.toInt_ofInt_of_le lower (by omega)
    simp only [ofWideInt, h, if_false, toJson?, WideInt.ofInt64, word]

mutual

/-- A JSON value comes back from its content. -/
theorem toJson?_ofJson : (v : Json) → (ofJson v).toJson? = some v
  | .null => rfl
  | .bool _ => rfl
  | .int n => toJson?_ofWideInt n
  | .float _ => rfl
  | .text _ => rfl
  | .list items => by simp [ofJson, toJson?, itemsToJson?_ofItems items]
  | .object fields => by simp [ofJson, toJson?, entriesToJson?_ofFields fields]

theorem itemsToJson?_ofItems : (vs : List Json) → itemsToJson? (ofItems vs) = some vs
  | [] => rfl
  | v :: vs => by simp [ofItems, itemsToJson?, toJson?_ofJson v, itemsToJson?_ofItems vs]

theorem entriesToJson?_ofFields :
    (fields : List (String × Json)) → entriesToJson? (ofFields fields) = some fields
  | [] => rfl
  | (_, v) :: fields => by
      simp [ofFields, entriesToJson?, toJson?_ofJson v, entriesToJson?_ofFields fields]

end

end Content

end SymbolExport
