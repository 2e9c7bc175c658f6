import TiBackup.Model.PasswordHash

/-!
# TiBackup.Auth.PasswordRecord

**A record verifies the password it was made from.** `hash` prints the salt-free part
of a record and `verify` parses it again; the two meet in the list of characters
(`toList_hash`). A bare legacy digest is recognised by what it lacks: no hexadecimal
text starts with the prefix of the current format.
-/

namespace TiBackup

open Lib

namespace PasswordHash

/-! ### Comparing digests -/

theorem foldl_or_eq_zero_iff (bs : Bytes) (acc : UInt8) :
    bs.foldl (· ||| ·) acc = 0 ↔ acc = 0 ∧ ∀ b ∈ bs, b = 0 := by
  induction bs generalizing acc with
  | nil => simp
  | cons b bs ih => simp [ih, and_assoc]

/-- The comparison that does not stop early is equality. -/
theorem constTimeEqual_iff (a b : Bytes) : constTimeEqual a b = true ↔ a = b := by
  unfold constTimeEqual
  split
  · next hlen => exact iff_of_false Bool.false_ne_true fun h => hlen (by rw [h])
  · next hlen =>
    rw [decide_eq_true_iff, foldl_or_eq_zero_iff]
    simp only [true_and]
    rw [not_not] at hlen
    induction a generalizing b with
    | nil => simp [List.length_eq_zero_iff.mp hlen.symm]
    | cons x a ih =>
      cases b with
      | nil => cases hlen
      | cons y b =>
        have hrest := ih b (Nat.succ.inj hlen)
        simp [hrest]

/-! ### The two formats -/

variable (D : Digests)

theorem isPrefixOf_append (p cs : List Char) : p.isPrefixOf (p ++ cs) = true :=
  List.isPrefixOf_iff_prefix.mpr (List.prefix_append p cs)

/-- A record of the current format, character by character. -/
theorem toList_hash (pw : String) (salt : Bytes) (n : Nat) :
    (hash D pw salt n).toList =
      "pbkdf2_sha256".toList ++ '$' :: (Nat.toDigits 10 n ++ '$' ::
        (fromLatin1 (toHex (D.deriveKeyPbkdf2 (toUtf8 pw) (fromHex salt) n kKeyLen))).toList) := by
  have hn : (toString (n : Int)).toList = Nat.toDigits 10 n := Nat.toList_repr
  have hprefix : kPbkdf2Prefix.toList = "pbkdf2_sha256".toList ++ ['$'] := by decide
  have hdollar : "$".toList = ['$'] := by decide
  simp only [hash, String.toList_append, hn, hprefix, hdollar, List.append_assoc,
    List.cons_append, List.nil_append]

theorem isPrefixOf_hash (pw : String) (salt : Bytes) (n : Int) :
    kPbkdf2Prefix.toList.isPrefixOf (hash D pw salt n).toList = true := by
  simp only [hash, String.toList_append, List.append_assoc]
  exact isPrefixOf_append _ _

theorem needsUpgrade_hash (pw : String) (salt : Bytes) (n : Int) :
    needsUpgrade (hash D pw salt n) = false := by
  rw [needsUpgrade, isPrefixOf_hash, Bool.not_true]

theorem hash_ne_empty (pw : String) (salt : Bytes) (n : Int) : hash D pw salt n ≠ "" := by
  intro h
  have hprefix := isPrefixOf_hash D pw salt n
  rw [h] at hprefix
  exact absurd hprefix (by decide)

/-- A lower-case hexadecimal digit. -/
def IsLowerHex (c : Char) : Prop := ('0' ≤ c ∧ c ≤ '9') ∨ ('a' ≤ c ∧ c ≤ 'f')

instance (c : Char) : Decidable (IsLowerHex c) :=
  inferInstanceAs (Decidable (('0' ≤ c ∧ c ≤ '9') ∨ ('a' ≤ c ∧ c ≤ 'f')))

theorem isLowerHex_of_isHexDigit {b : UInt8} (h : IsHexDigit b) :
    IsLowerHex (Char.ofNat b.toNat) := by
  have hall : ∀ n < 256, (48 ≤ n ∧ n ≤ 57) ∨ (97 ≤ n ∧ n ≤ 102) → IsLowerHex (Char.ofNat n) := by
    decide +kernel
  refine hall b.toNat b.toNat_lt ?_
  exact h.imp (And.imp UInt8.le_iff_toNat_le.mp UInt8.le_iff_toNat_le.mp)
    (And.imp UInt8.le_iff_toNat_le.mp UInt8.le_iff_toNat_le.mp)

/-- The digits are all there is in a text of them, so neither a dollar sign nor the `p` of
the prefix is. -/
theorem isLowerHex_of_mem {bs : Bytes} {c : Char} (h : c ∈ (fromLatin1 (toHex bs)).toList) :
    IsLowerHex c := by
  rw [fromLatin1, String.toList_ofList, List.mem_map] at h
  obtain ⟨b, hb, rfl⟩ := h
  exact isLowerHex_of_isHexDigit (isHexDigit_of_mem_toHex hb)

/-- A record of the current format verifies exactly the passwords with its key. -/
theorem verify_hash_iff (pw pw' : String) {salt : Bytes} (hsalt : salt ≠ []) {n : Nat} (hn : 1 ≤ n)
    (hmax : n ≤ 2147483647) : verify D pw' salt (hash D pw salt n) = true ↔
      D.deriveKeyPbkdf2 (toUtf8 pw') (fromHex salt) n kKeyLen =
        D.deriveKeyPbkdf2 (toUtf8 pw) (fromHex salt) n kKeyLen := by
  have hdigits : '$' ∉ Nat.toDigits 10 n := fun hmem =>
    absurd (Nat.isDigit_of_mem_toDigits (by decide) (by decide) hmem) (by decide)
  have hdollar : '$' ∉
      (fromLatin1 (toHex (D.deriveKeyPbkdf2 (toUtf8 pw) (fromHex salt) n kKeyLen))).toList :=
    fun hmem => absurd (isLowerHex_of_mem hmem) (by decide)
  have hempty : (salt.isEmpty || (hash D pw salt n).isEmpty) = false := by
    simp [hsalt, hash_ne_empty]
  have hsplit : (hash D pw salt n).toList.splitOn '$' =
      ["pbkdf2_sha256".toList, Nat.toDigits 10 n,
        (fromLatin1 (toHex (D.deriveKeyPbkdf2 (toUtf8 pw) (fromHex salt) n kKeyLen))).toList] := by
    rw [toList_hash, List.splitOn_append_cons_self_of_not_mem (by decide),
      List.splitOn_append_cons_self_of_not_mem hdigits,
      List.splitOn_eq_singleton hdollar]
  have hiter : parseInt32 (String.ofList (Nat.toDigits 10 n)) = some (n : Int) := by
    rw [← Nat.toList_repr, String.ofList_toList]
    exact parseInt32_repr hmax
  have hpos : ¬(n : Int) ≤ 0 := by omega
  simp only [verify, hempty, isPrefixOf_hash, hsplit, hiter, hpos, Bool.false_eq_true, if_false,
    if_true, String.ofList_toList, toLatin1_fromLatin1]
  rw [constTimeEqual_iff, toHex_inj]

theorem verify_hash (pw : String) {salt : Bytes} (hsalt : salt ≠ []) {n : Nat} (hn : 1 ≤ n)
    (hmax : n ≤ 2147483647) : verify D pw salt (hash D pw salt n) = true :=
  (verify_hash_iff D pw pw hsalt hn hmax).mpr rfl

@[simp] theorem length_legacyHashHex (pw : String) (salt : Bytes) (n : Int) :
    (legacyHashHex D pw salt n).length = 64 := by
  rw [legacyHashHex, length_toHex]
  generalize (n - 1).toNat = k
  cases k with
  | zero => rw [Nat.repeat, D.length_sha256]
  | succ k => rw [Nat.repeat, D.length_sha256]

theorem legacyHashHex_ne_nil (pw : String) (salt : Bytes) (n : Int) :
    legacyHashHex D pw salt n ≠ [] :=
  List.ne_nil_of_length_pos (by rw [length_legacyHashHex]; decide)

theorem needsUpgrade_legacy (pw : String) (salt : Bytes) (n : Int) :
    needsUpgrade (fromLatin1 (legacyHashHex D pw salt n)) = true := by
  rw [needsUpgrade, Bool.not_eq_true', ← Bool.not_eq_true, List.isPrefixOf_iff_prefix]
  intro hmarked
  have hp : 'p' ∈ (fromLatin1 (legacyHashHex D pw salt n)).toList := hmarked.subset (by decide)
  exact absurd (isLowerHex_of_mem hp) (by decide)

/-- A legacy record verifies exactly the passwords with its digest. -/
theorem verify_legacy_iff (pw pw' : String) {salt : Bytes} (hsalt : salt ≠ []) :
    verify D pw' salt (fromLatin1 (legacyHashHex D pw salt kLegacyIterations)) = true ↔
      legacyHashHex D pw' salt kLegacyIterations = legacyHashHex D pw salt kLegacyIterations := by
  have hne : fromLatin1 (legacyHashHex D pw salt kLegacyIterations) ≠ "" := fun h => by
    rw [← String.toList_eq_nil_iff, fromLatin1, String.toList_ofList, List.map_eq_nil_iff] at h
    exact legacyHashHex_ne_nil D pw salt _ h
  have hempty : (salt.isEmpty ||
      (fromLatin1 (legacyHashHex D pw salt kLegacyIterations)).isEmpty) = false := by
    simp [hsalt, hne]
  have hprefix := needsUpgrade_legacy D pw salt kLegacyIterations
  rw [needsUpgrade, Bool.not_eq_true'] at hprefix
  simp only [verify, hempty, hprefix, Bool.false_eq_true, if_false, toLatin1_fromLatin1]
  exact constTimeEqual_iff _ _

theorem generateSalt_ne_nil (raw : { raw : Bytes // raw.length = 16 }) : generateSalt raw ≠ [] := by
  intro h
  have hlen := congrArg List.length h
  rw [generateSalt, length_toHex, raw.2] at hlen
  cases hlen

/-! ### Records -/

/-- What `web/salt` and `web/passhash` are when the password is `p`, in either format;
`none` is a daemon that was not set up. -/
inductive Record : Option String → Bytes → String → Prop
  | empty (salt : Bytes) : Record none salt ""
  | pbkdf2 (pw : String) {salt : Bytes} (n : Nat) : salt ≠ [] → 1 ≤ n → n ≤ 2147483647 →
      Record (some pw) salt (hash D pw salt n)
  | legacy (pw : String) {salt : Bytes} : salt ≠ [] →
      Record (some pw) salt (fromLatin1 (legacyHashHex D pw salt kLegacyIterations))

variable {D}

/-- A record verifies its password, whichever format it has. -/
theorem Record.verify {pw passhash : String} {salt : Bytes}
    (h : Record D (some pw) salt passhash) : verify D pw salt passhash = true := by
  cases h with
  | pbkdf2 _ n hsalt hn hmax => exact verify_hash D pw hsalt hn hmax
  | legacy _ hsalt => exact (verify_legacy_iff D pw pw hsalt).mpr rfl

/-- The record `setPassword` stores. -/
theorem record_fresh (pw : String) (raw : { raw : Bytes // raw.length = 16 }) :
    Record D (some pw) (generateSalt raw)
      (hash D pw (generateSalt raw) kDefaultIterations) :=
  .pbkdf2 pw 210000 (generateSalt_ne_nil raw) (by decide) (by decide)

end PasswordHash

end TiBackup
