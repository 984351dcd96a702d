/-!
# Byte texts

Files, sinks and number literals are read and written as lists of octets. A text enters this form
through its UTF-8 octets and leaves it only if the octets are well formed.
-/

namespace SymbolExport

/-- A text as the octets that a file or a sink holds. -/
abbrev Bytes := List UInt8

namespace Bytes

def ofString (s : String) : Bytes :=
  s.toByteArray.data.toList

/-- The text whose UTF-8 octets these are, if they are well formed. -/
def toString? (bytes : Bytes) : Option String :=
  String.fromUTF8? ⟨bytes.toArray⟩

@[simp] theorem toString?_ofString (s : String) : toString? (ofString s) = some s := by
  simp [toString?, ofString, String.fromUTF8?, String.fromUTF8, s.isValidUTF8]

end Bytes

end SymbolExport
