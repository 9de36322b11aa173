import OpenApiClient.Text.Wrap
import OpenApiClient.Value.Access

/-! Descriptions as lines of generated source. -/

namespace OpenApiClient

structure WidthFault where
  width : Int
  deriving DecidableEq, Repr, Inhabited

def WidthFault.message (fault : WidthFault) : String :=
  "invalid width " ++ toString fault.width ++ " (must be > 0)"

def wrapAt (width : Int) (text : String) : Except WidthFault (List String) :=
  if text.isEmpty then .ok []
  else if width ≤ 0 then .error ⟨width⟩
  else .ok (Text.wrapText width.toNat text)

def Value.wrapped (width : Nat) (description : Value) : Except Malformed (List String) :=
  if description.truth then Text.wrapText width <$> description.asText else .ok []

end OpenApiClient
