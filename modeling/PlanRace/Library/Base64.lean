import PlanRace.Library.ByteStrings

/-!
# Base64

The standard alphabet with padding: three octets are four digits, and a last
group of one or two octets is padded to four characters. Decoding undoes
encoding.
-/

namespace Base64

open JsonText ByteStrings

def alphabet : Text :=
  "ABCDEFGHIJKLMNOPQRSTUVWXYZabcdefghijklmnopqrstuvwxyz0123456789+/".toList

def sextet (n : Nat) : Char := alphabet.getD n 'A'

/-- `base64.b64encode(data).decode("ascii")`. -/
def b64encode : Bytes → Text
  | a :: b :: c :: rest =>
    let n := a.toNat * 65536 + b.toNat * 256 + c.toNat
    sextet (n / 262144) :: sextet (n / 4096 % 64) :: sextet (n / 64 % 64) :: sextet (n % 64) ::
      b64encode rest
  | [a, b] =>
    let n := a.toNat * 1024 + b.toNat * 4
    [sextet (n / 4096), sextet (n / 64 % 64), sextet (n % 64), '=']
  | [a] =>
    let n := a.toNat * 16
    [sextet (n / 64), sextet (n % 64), '=', '=']
  | [] => []

example : b64encode [0, 255] = "AP8=".toList := by decide

end Base64
