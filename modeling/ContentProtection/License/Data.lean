import ContentProtection.Bytes

/-!
# License data

The bytes of a license request or response.
-/

namespace ContentProtection

structure LicenseData where
  bytes : Bytes := []
  deriving DecidableEq, Repr

namespace LicenseData

def size (data : LicenseData) : Nat := data.bytes.length

def isEmpty (data : LicenseData) : Bool := data.bytes.isEmpty

def append (data : LicenseData) (bytes : Bytes) : LicenseData := ⟨data.bytes ++ bytes⟩

end LicenseData

end ContentProtection
