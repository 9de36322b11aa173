/-! Base64 with padding: three octets become four characters of six bits each. -/

namespace OpenApiClient.Text

def base64Digit (n : Nat) : Char :=
  if n < 26 then Char.ofNat (65 + n)
  else if n < 52 then Char.ofNat (71 + n)
  else if n < 62 then Char.ofNat (n - 4)
  else if n = 62 then '+' else '/'

/-- The first `count` of the four digits of 24 bits, padded. -/
def base64Group (count bits : Nat) : List Char :=
  ([bits / 262144 % 64, bits / 4096 % 64, bits / 64 % 64, bits % 64].map base64Digit).take count ++
    List.replicate (4 - count) '='

def base64 : List UInt8 → List Char
  | [] => []
  | [a] => base64Group 2 (a.toNat * 65536)
  | [a, b] => base64Group 3 (a.toNat * 65536 + b.toNat * 256)
  | a :: b :: c :: rest => base64Group 4 (a.toNat * 65536 + b.toNat * 256 + c.toNat) ++ base64 rest

end OpenApiClient.Text
