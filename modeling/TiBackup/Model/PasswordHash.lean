import TiBackup.Lib.Encoding

/-!
# TiBackup.Model.PasswordHash

`webserver/auth/passwordhash.cpp`: the two formats of the stored admin password.

The current one is the text `pbkdf2_sha256$<iterations>$<hex>`, the legacy one the
bare hex digest of an iterated SHA-256. Which one a record has is decided by its
prefix, in `verify` as in `needsUpgrade`. The digests are functions of the bytes
they are given; `Digests` is what the code relies on.
-/

namespace TiBackup

open Lib

/-- The cryptographic functions behind the password records: PBKDF2-HMAC-SHA256 (of
password, salt, iterations and key length) and SHA-256. -/
structure Digests where
  deriveKeyPbkdf2 : Bytes → Bytes → Int → Nat → Bytes
  sha256 : Bytes → Bytes
  length_deriveKeyPbkdf2 : ∀ password salt iterations keyLen, 1 ≤ iterations →
    (deriveKeyPbkdf2 password salt iterations keyLen).length = keyLen
  length_sha256 : ∀ data, (sha256 data).length = 32

namespace PasswordHash

/-- `kPbkdf2Prefix`. -/
def kPbkdf2Prefix : String := "pbkdf2_sha256$"

/-- `kKeyLen`: bytes of a derived key. -/
def kKeyLen : Nat := 32

/-- Work factor of new records. -/
def kDefaultIterations : Int := 210000

/-- Work factor of the legacy records. -/
def kLegacyIterations : Int := 100000

/-- `constTimeEqual`: compare the sizes, then collect the differences of all bytes. -/
def constTimeEqual (a b : Bytes) : Bool :=
  if a.length ≠ b.length then false
  else (List.zipWith (· ^^^ ·) a b).foldl (· ||| ·) 0 = 0

variable (D : Digests)

/-- `legacyHashHex`: SHA256(salt ‖ password), then SHA256(salt ‖ digest) again and
again. -/
def legacyHashHex (password : String) (saltHex : Bytes) (iterations : Int) : Bytes :=
  let salt := fromHex saltHex
  let digest := D.sha256 (salt ++ toUtf8 password)
  toHex (Nat.repeat (fun digest => D.sha256 (salt ++ digest)) (iterations - 1).toNat digest)

/-- `generateSalt`: random bytes in hexadecimal. -/
def generateSalt (raw : { raw : Bytes // raw.length = 16 }) : Bytes := toHex raw.1

/-- `hash`: the PBKDF2 record of a password. -/
def hash (password : String) (saltHex : Bytes) (iterations : Int) : String :=
  let salt := fromHex saltHex
  let derived := D.deriveKeyPbkdf2 (toUtf8 password) salt iterations kKeyLen
  kPbkdf2Prefix ++ toString iterations ++ "$" ++ fromLatin1 (toHex derived)

/-- `verify`: does the password match the stored record? -/
def verify (password : String) (saltHex : Bytes) (expectedHash : String) : Bool :=
  if saltHex.isEmpty || expectedHash.isEmpty then false
  else if kPbkdf2Prefix.toList.isPrefixOf expectedHash.toList then
    match expectedHash.toList.splitOn '$' with
    | [_, iterations, hex] =>
      match parseInt32 (String.ofList iterations) with
      | none => false
      | some storedIter =>
        if storedIter ≤ 0 then false
        else
          let salt := fromHex saltHex
          let derived := D.deriveKeyPbkdf2 (toUtf8 password) salt storedIter kKeyLen
          constTimeEqual (toHex derived) (toLatin1 (String.ofList hex))
    | _ => false
  else constTimeEqual (legacyHashHex D password saltHex kLegacyIterations) (toLatin1 expectedHash)

/-- `needsUpgrade`: a stored record in the legacy format. -/
def needsUpgrade (storedHash : String) : Bool :=
  !kPbkdf2Prefix.toList.isPrefixOf storedHash.toList

end PasswordHash

end TiBackup
