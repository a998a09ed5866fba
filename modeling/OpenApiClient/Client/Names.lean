import OpenApiClient.Document.Basic
import OpenApiClient.NameStyle
import OpenApiClient.Text.Basic

/-!
# Names of operations

All names that are generated for an operation come from one base: the method and the fixed segments
of the path.
-/

namespace OpenApiClient

/-- The segments of a path that are neither empty nor placeholders. -/
def fixedSegments (path : String) : List String :=
  (Text.splitString '/' path).filter fun s => !s.isEmpty && s.toList.head? != some '\x7b'

def nameBase (method : Method) (path : String) : String :=
  Text.joinStrings "_" (method.name :: fixedSegments path)

structure Names where
  base : String
  function : String
  requestType : String
  responseType : String
  dataType : String
  deriving DecidableEq, Repr

def Names.ofBase (base : String) (functions types : NameStyle) : Names :=
  ⟨base, functions.format base, types.format (base ++ "_request"),
    types.format (base ++ "_response"), types.format (base ++ "_response_data")⟩

end OpenApiClient
