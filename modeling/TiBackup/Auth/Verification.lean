import TiBackup.Auth.PasswordRecord
import TiBackup.Model.Reference

/-!
# TiBackup.Auth.Verification

**Verification is exact.** A record verifies the passwords that have the same derived key,
and no other (`verify_hash_iff`). A text that is no record at all, because the count or the
digest is missing, cut off or changed to something else, verifies no password
(`wellFormed_of_verify`): what it is compared with always has the digits of 32 bytes.
-/

namespace TiBackup

open Lib

namespace PasswordHash

variable {D : Digests}

/-! ### The form of a record -/

/-- The digits of 32 bytes. -/
structure IsDigest (cs : List Char) : Prop where
  length : cs.length = 64
  digits : ∀ c ∈ cs, IsLowerHex c

/-- A record of one of the two formats. -/
inductive WellFormed (e : String) : Prop
  /-- The prefix, a positive number of iterations and a digest. -/
  | pbkdf2 (iterations digest : List Char) (n : Int) :
      e.toList = kPbkdf2Prefix.toList ++ (iterations ++ '$' :: digest) →
      parseInt32 (String.ofList iterations) = some n → 0 < n → IsDigest digest → WellFormed e
  /-- A digest without the prefix. -/
  | legacy : ¬ kPbkdf2Prefix.toList <+: e.toList → IsDigest e.toList → WellFormed e

/-- A text that is encoded as the digits of 32 bytes consists of them. -/
theorem isDigest_of_toLatin1 {s : String} {bs : Bytes} (h : toLatin1 s = bs)
    (hlength : bs.length = 64) (hdigits : ∀ b ∈ bs, IsHexDigit b) : IsDigest s.toList := by
  have hmark : 63 ∉ toLatin1 s := by
    intro hmem
    rw [h] at hmem
    exact absurd (hdigits 63 hmem) (by unfold IsHexDigit; decide)
  rw [← fromLatin1_toLatin1 hmark, h, fromLatin1, String.toList_ofList]
  refine ⟨by rw [List.length_map, hlength], ?_⟩
  intro c hc
  obtain ⟨b, hb, rfl⟩ := List.mem_map.mp hc
  exact isLowerHex_of_isHexDigit (hdigits b hb)

/-- The two parts behind the prefix. -/
theorem toList_of_splitOn {e : String} (hmarked : kPbkdf2Prefix.toList <+: e.toList)
    {name iterations digest : List Char}
    (h : e.toList.splitOn '$' = [name, iterations, digest]) :
    e.toList = kPbkdf2Prefix.toList ++ (iterations ++ '$' :: digest) := by
  obtain ⟨rest, hrest⟩ := hmarked
  have hname : kPbkdf2Prefix.toList = "pbkdf2_sha256".toList ++ ['$'] := by decide
  rw [← hrest, hname, List.append_assoc, List.singleton_append,
    List.splitOn_append_cons_self_of_not_mem (by decide)] at h
  have hparts : ['$'].intercalate (rest.splitOn '$') = rest := List.intercalate_splitOn '$'
  rw [(List.cons.inj h).2] at hparts
  rw [← hrest, ← hparts]
  simp [List.intercalate]

/-- **Only a record verifies a password.** -/
theorem wellFormed_of_verify {pw e : String} {salt : Bytes} (h : verify D pw salt e = true) :
    WellFormed e := by
  rw [verify] at h
  split at h
  · cases h
  · split at h
    · next hmarked =>
      have hstarts := List.isPrefixOf_iff_prefix.mp hmarked
      split at h
      · next name iterations digest hsplit =>
        split at h
        · cases h
        · next n hcount =>
          split at h
          · cases h
          · next hpos =>
            have heq := (constTimeEqual_iff _ _).mp h
            have hlength := D.length_deriveKeyPbkdf2 (toUtf8 pw) (fromHex salt) n kKeyLen
              (by omega)
            refine .pbkdf2 iterations digest n (toList_of_splitOn hstarts hsplit) hcount
              (by omega) ?_
            rw [← String.toList_ofList (l := digest)]
            refine isDigest_of_toLatin1 heq.symm ?_ fun b hb => isHexDigit_of_mem_toHex hb
            rw [length_toHex, hlength]
            rfl
      · cases h
    · next hmarked =>
      refine .legacy (mt List.isPrefixOf_iff_prefix.mpr hmarked) ?_
      exact isDigest_of_toLatin1 ((constTimeEqual_iff _ _).mp h).symm
        (length_legacyHashHex D pw salt _) fun b hb => isHexDigit_of_mem_toHex hb

/-- **Verification is exact**, and no text but a record verifies anything. -/
theorem verify_exact (D : Digests) :
    (∀ (p q : String) (s : Bytes) (n : Nat), s ≠ [] → 1 ≤ n → n ≤ 2147483647 →
      (verify D q s (hash D p s n) = true ↔
        D.deriveKeyPbkdf2 (toUtf8 q) (fromHex s) n kKeyLen =
          D.deriveKeyPbkdf2 (toUtf8 p) (fromHex s) n kKeyLen)) ∧
    ∀ e : String, ¬ WellFormed e → ∀ (q : String) (s : Bytes), verify D q s e = false := by
  refine ⟨fun p q s n hs hn hmax => verify_hash_iff D p q hs hn hmax, ?_⟩
  intro e hnone q s
  exact eq_false_of_ne_true (mt wellFormed_of_verify hnone)

/-- A count of zero makes no record. -/
theorem not_wellFormed_zero : ¬ WellFormed "pbkdf2_sha256$0$" := by
  rintro (⟨iterations, digest, n, hform, -, -, hdigest⟩ | ⟨hmarked, -⟩)
  · have hlength := congrArg List.length hform
    rw [List.length_append, List.length_append, List.length_cons, hdigest.length] at hlength
    have htotal : "pbkdf2_sha256$0$".toList.length = 16 := by decide
    omega
  · exact hmarked (by decide)

/-- A password and its record, and a text that is none. -/
theorem verify_exact_pw : verify Reference.digests "pw" [48] (hash Reference.digests "pw" [48] 1) =
      true ∧ verify Reference.digests "pw" [48] "pbkdf2_sha256$0$" = false :=
  ⟨((verify_exact Reference.digests).1 "pw" "pw" [48] 1 (by decide) (by decide)
      (by decide)).mpr rfl,
    (verify_exact Reference.digests).2 _ not_wellFormed_zero "pw" [48]⟩

end PasswordHash

end TiBackup
