import OpenApiClient.Text.Base64
import OpenApiClient.Text.Utf8

/-! Values of the authorization header. -/

namespace OpenApiClient.Client

def basicAuthorization (username password : String) : String :=
  "Basic " ++ String.ofList (Text.base64 (Text.encodeUtf8 (username.toList ++ ':' :: password.toList)))

def bearerAuthorization (token : String) : String := "Bearer " ++ token

end OpenApiClient.Client
