import SymbolExport.Files.Path
import SymbolExport.Text.Quoted

/-!
# Export errors

Why an export did not complete, with the text that is shown for it and the causes behind it.
-/

namespace SymbolExport

inductive OsFault where
  | missing
  | busy
  | notDirectory
  | isDirectory
  | invalidArgument
  | nameTooLong
  | zeroInPath
deriving DecidableEq, Repr

def OsFault.message : OsFault → String
  | .missing => "No such file or directory (os error 2)"
  | .busy => "Device or resource busy (os error 16)"
  | .notDirectory => "Not a directory (os error 20)"
  | .isDirectory => "Is a directory (os error 21)"
  | .invalidArgument => "Invalid argument (os error 22)"
  | .nameTooLong => "File name too long (os error 36)"
  | .zeroInPath => "file name contained an unexpected NUL byte"

inductive IoFault where
  | os (fault : OsFault)
  | atPath (fault : OsFault) (path : String)
  | diskFull
  | notText
  | other (text : String)
deriving DecidableEq, Repr

def IoFault.message : IoFault → String
  | .os fault => fault.message
  | .atPath fault path => fault.message ++ " at path " ++ Text.quoted path
  | .diskFull => "disk full"
  | .notText => "stream did not contain valid UTF-8"
  | .other text => text

/-- Why a temporary file was not renamed. The file is still there, and it is removed when this is
dropped. -/
structure PersistError where
  fault : OsFault
  file : Location
deriving DecidableEq, Repr

def PersistError.message (e : PersistError) : String :=
  "failed to persist temporary file: " ++ e.fault.message

inductive ExportError where
  | reflection (symbol message : String)
  | vanished (name : String)
  | snapshot (message : String)
  | encode (message : String)
  | csv (fault : IoFault)
  | io (fault : IoFault)
  | persist (path : String) (source : PersistError)
deriving DecidableEq, Repr

namespace ExportError

def message : ExportError → String
  | .reflection symbol message => "Reflection failed for " ++ symbol ++ ": " ++ message
  | .vanished name => "Symbol vanished during enumeration: " ++ name
  | .snapshot message => "Invalid runtime snapshot: " ++ message
  | .encode message => "Failed to encode value: " ++ message
  | .csv fault => "CSV error: " ++ fault.message
  | .io fault => "I/O error: " ++ fault.message
  | .persist path source => "Failed to publish export to " ++ path ++ ": " ++ source.message

/-- The texts of the causes behind an error, the nearest first. -/
def causes : ExportError → List String
  | .reflection _ _ => []
  | .vanished _ => []
  | .snapshot _ => []
  | .encode message => [message]
  | .csv fault => [fault.message, fault.message]
  | .io fault => [fault.message]
  | .persist _ source => [source.message, source.fault.message]

end ExportError

end SymbolExport
