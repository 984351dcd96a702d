import SymbolExport.Export.Tally
import SymbolExport.Shape.Yaml

/-!
# Export settings

Settings come from a file, from flags and from defaults. A flag wins over the file, the file over
the default.
-/

namespace SymbolExport

structure ExportConfig where
  output : String := "php.internals.csv"
  format : RowFormat := .full
  atomic : Bool := true
deriving DecidableEq, Repr

@[reducible] def ExportConfig.fields : Fields :=
  .defaulted "output" .text <| .defaulted "format" (shapeOf RowFormat) <|
    .defaulted "atomic" .flag .nil

instance : Shaped ExportConfig where
  shape := .struct "ExportConfig" ExportConfig.fields
  pack c := (some c.output, some (pack c.format), some c.atomic, ())
  unpack := fun (output, format, atomic, ()) =>
    { output := output.getD ({} : ExportConfig).output
      format := (format.map unpack).getD .full
      atomic := atomic.getD true }
  unpack_pack _ := by simp

namespace ExportConfig

/-- The settings with flags in their place. -/
def withOverrides (c : ExportConfig) (output : Option String) (format : Option RowFormat)
    (noAtomic : Bool) : ExportConfig where
  output := output.getD c.output
  format := format.getD c.format
  atomic := c.atomic && !noAtomic

def options (c : ExportConfig) : ExportOptions where
  format := c.format
  atomic := c.atomic

end ExportConfig

end SymbolExport
