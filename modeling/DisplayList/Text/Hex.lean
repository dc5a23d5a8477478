/-!
# Codes in messages

Messages show a code as `0x` and two hexadecimal digits in lower case.
-/

namespace DisplayList

/-- A code as `0x` and two digits. -/
def hexCode (code : UInt8) : String :=
  let digit (n : Nat) : String := String.singleton (Nat.digitChar n)
  "0x" ++ digit (code.toNat / 16) ++ digit (code.toNat % 16)

end DisplayList
