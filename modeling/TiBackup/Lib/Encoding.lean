import Mathlib.Algebra.Group.Nat.Defs
import TiBackup.Lib.Trim

/-!
# TiBackup.Lib.Encoding

Text and byte encodings: UTF-8 and Latin-1, hexadecimal, base64, and decimal
numbers. Byte strings are lists of `UInt8`, text is Lean's `String`.

Where a decoder meets input no encoder writes, it does what the Qt functions do:
`fromHex` skips characters that are not digits, `parseInt32` allows white space
around the number and a sign, `toLatin1` writes a question mark.
-/

namespace TiBackup.Lib

abbrev Bytes := List UInt8

/-! ### UTF-8 and Latin-1 -/

/-- The UTF-8 encoding of a text. -/
def toUtf8 (s : String) : Bytes := s.toList.flatMap String.utf8EncodeChar

/-- Decode UTF-8 characters; the first argument counts the bytes that still belong to
the last character. A byte no character starts with becomes U+FFFD. -/
def decodeUtf8 : Nat → Bytes → List Char
  | _, [] => []
  | skip + 1, _ :: bs => decodeUtf8 skip bs
  | 0, b :: bs =>
    match (b :: bs).toByteArray.utf8DecodeChar? 0 with
    | some c => c :: decodeUtf8 (c.utf8Size - 1) bs
    | none => Char.ofNat 0xfffd :: decodeUtf8 0 bs

/-- Decode UTF-8 text, without a leading byte-order mark. -/
def fromUtf8 (bs : Bytes) : String :=
  String.ofList (decodeUtf8 0 (if [0xef, 0xbb, 0xbf].isPrefixOf bs then bs.drop 3 else bs))

/-- A text without the byte-order mark it begins with. -/
def dropMark (cs : List Char) : List Char :=
  if cs.head? = some (Char.ofNat 0xfeff) then cs.tail else cs

@[simp] theorem toUtf8_append (s t : String) : toUtf8 (s ++ t) = toUtf8 s ++ toUtf8 t := by
  rw [toUtf8, String.toList_append, List.flatMap_append]
  rfl

/-- The bytes that still belong to a character are skipped. -/
theorem decodeUtf8_skip (xs bs : Bytes) : decodeUtf8 xs.length (xs ++ bs) = decodeUtf8 0 bs := by
  induction xs with
  | nil => rfl
  | cons x xs ih => exact ih

/-- An encoded character is decoded as itself. -/
theorem decodeUtf8_utf8EncodeChar (c : Char) (bs : Bytes) :
    decodeUtf8 0 (String.utf8EncodeChar c ++ bs) = c :: decodeUtf8 0 bs := by
  have hlength := String.length_utf8EncodeChar c
  have hdecode : (String.utf8EncodeChar c ++ bs).toByteArray.utf8DecodeChar? 0 = some c := by
    rw [List.toByteArray_append]
    exact ByteArray.utf8DecodeChar?_utf8EncodeChar_append
  rcases hbytes : String.utf8EncodeChar c with - | ⟨x, xs⟩
  · exact absurd hbytes String.utf8EncodeChar_ne_nil
  · rw [hbytes, List.length_cons] at hlength
    rw [hbytes, List.cons_append] at hdecode
    rw [List.cons_append, decodeUtf8, hdecode]
    dsimp only
    rw [← hlength, Nat.add_sub_cancel, decodeUtf8_skip]

/-- An encoded text is decoded as itself, whatever stands behind it. -/
theorem decodeUtf8_toUtf8_append (s : String) (bs : Bytes) :
    decodeUtf8 0 (toUtf8 s ++ bs) = s.toList ++ decodeUtf8 0 bs := by
  rw [toUtf8]
  generalize s.toList = cs
  induction cs with
  | nil => rfl
  | cons c cs ih =>
    rw [List.flatMap_cons, List.append_assoc, decodeUtf8_utf8EncodeChar, ih, List.cons_append]

/-- Decoding undoes encoding, unless there is a byte-order mark to be dropped. -/
theorem fromUtf8_toUtf8 {s : String} (h : Char.ofNat 0xfeff ∉ s.toList) :
    fromUtf8 (toUtf8 s) = s := by
  have hmark : [0xef, 0xbb, 0xbf].isPrefixOf (toUtf8 s) = false := by
    rw [← Bool.not_eq_true, List.isPrefixOf_iff_prefix]
    rintro ⟨rest, hrest⟩
    have hdecode := decodeUtf8_toUtf8_append s []
    rw [List.append_nil, ← hrest] at hdecode
    have hfirst : decodeUtf8 0 ([0xef, 0xbb, 0xbf] ++ rest) =
        Char.ofNat 0xfeff :: decodeUtf8 0 rest :=
      decodeUtf8_utf8EncodeChar (Char.ofNat 0xfeff) rest
    rw [hfirst, decodeUtf8, List.append_nil] at hdecode
    exact h (by rw [← hdecode]; exact List.mem_cons_self)
  have hdecode := decodeUtf8_toUtf8_append s []
  rw [List.append_nil, decodeUtf8, List.append_nil] at hdecode
  rw [fromUtf8, hmark, if_neg Bool.false_ne_true, hdecode, String.ofList_toList]

theorem toNat_ofNat_byte (b : UInt8) : (Char.ofNat b.toNat).toNat = b.toNat := by
  have hb : b.toNat < 256 := b.toNat_lt
  have hvalid : b.toNat.isValidChar := Or.inl (by omega)
  rw [Char.ofNat, dif_pos hvalid]
  rfl

/-- Seven-bit bytes encode the text of the characters with these codes. -/
theorem exists_toUtf8_of_ascii {bs : Bytes} (h : ∀ b ∈ bs, b < 128) :
    ∃ s : String, bs = toUtf8 s ∧ Char.ofNat 0xfeff ∉ s.toList := by
  refine ⟨String.ofList (bs.map fun b => Char.ofNat b.toNat), ?_, ?_⟩
  · rw [toUtf8, String.toList_ofList]
    induction bs with
    | nil => rfl
    | cons b bs ih =>
      have hb : ∀ n < 128, String.utf8EncodeChar (Char.ofNat n) = [UInt8.ofNat n] := by decide
      have hlt : b.toNat < 128 := UInt8.lt_iff_toNat_lt.mp (h b (by simp))
      rw [List.map_cons, List.flatMap_cons, hb _ hlt, UInt8.ofNat_toNat,
        ← ih fun x hx => h x (by simp [hx])]
      rfl
  · intro hmark
    rw [String.toList_ofList] at hmark
    obtain ⟨b, hb, hcode⟩ := List.mem_map.mp hmark
    have hlt : b.toNat < 128 := UInt8.lt_iff_toNat_lt.mp (h b hb)
    have hsame := congrArg Char.toNat hcode
    rw [toNat_ofNat_byte] at hsame
    have hnat : (Char.ofNat 0xfeff).toNat = 0xfeff := by decide
    omega

/-- Read every byte as the character with its code. -/
def fromLatin1 (bs : Bytes) : String := String.ofList (bs.map fun b => Char.ofNat b.toNat)

/-- How many UTF-16 units a character takes. -/
def utf16Size (c : Char) : Nat := if c.toNat < 0x10000 then 1 else 2

/-- The length of a text in UTF-16 units. -/
def utf16Length (s : String) : Nat := s.toList.foldl (fun n c => n + utf16Size c) 0

/-- A character of the basic plane is one unit. -/
theorem utf16Length_eq_length {s : String} (h : ∀ c ∈ s.toList, c.toNat < 0x10000) :
    utf16Length s = s.length := by
  have hfold : ∀ (cs : List Char) (n : Nat), (∀ c ∈ cs, c.toNat < 0x10000) →
      cs.foldl (fun n c => n + utf16Size c) n = n + cs.length := by
    intro cs
    induction cs with
    | nil => exact fun n _ => rfl
    | cons c cs ih =>
      intro n hcs
      rw [List.foldl_cons, ih _ fun d hd => hcs d (List.mem_cons_of_mem _ hd), utf16Size,
        if_pos (hcs c List.mem_cons_self), List.length_cons]
      omega
  rw [utf16Length, hfold _ _ h, Nat.zero_add, String.length_toList]

/-- Write every character as the byte with its code, or as question marks, one for
each UTF-16 unit, when it has none. -/
def toLatin1 (s : String) : Bytes :=
  s.toList.flatMap fun c =>
    if c.toNat < 256 then [UInt8.ofNat c.toNat] else List.replicate (utf16Size c) 63

@[simp] theorem toLatin1_fromLatin1 (bs : Bytes) : toLatin1 (fromLatin1 bs) = bs := by
  rw [toLatin1, fromLatin1, String.toList_ofList]
  induction bs with
  | nil => rfl
  | cons b bs ih =>
    have hb : b.toNat < 256 := b.toNat_lt
    rw [List.map_cons, List.flatMap_cons, ih, toNat_ofNat_byte, if_pos hb]
    simp

/-- A text without a question mark in its encoding is read back. -/
theorem fromLatin1_toLatin1 {s : String} (h : 63 ∉ toLatin1 s) : fromLatin1 (toLatin1 s) = s := by
  rw [← String.toList_inj, fromLatin1, String.toList_ofList]
  rw [toLatin1] at h ⊢
  generalize s.toList = cs at h ⊢
  induction cs with
  | nil => rfl
  | cons c cs ih =>
    rw [List.flatMap_cons, List.mem_append, not_or] at h
    rw [List.flatMap_cons, List.map_append, ih h.2]
    by_cases hlt : c.toNat < 256
    · rw [if_pos hlt, List.map_singleton, UInt8.toNat_ofNat_of_lt' hlt, Char.ofNat_toNat,
        List.singleton_append]
    · have hpos : utf16Size c ≠ 0 := by
        rw [utf16Size]
        split
        · decide
        · decide
      rw [if_neg hlt] at h
      exact absurd (List.mem_replicate.mpr ⟨hpos, rfl⟩) h.1

/-! ### Hexadecimal -/

/-- The lower-case digit of a half byte, as an ASCII byte. -/
def hexDigit (n : Nat) : UInt8 :=
  if n < 10 then UInt8.ofNat (48 + n) else UInt8.ofNat (87 + n)

/-- Two lower-case hexadecimal digits for every byte. -/
def toHex (bs : Bytes) : Bytes := bs.flatMap fun b => [hexDigit (b.toNat / 16), hexDigit (b.toNat % 16)]

/-- The value of a hexadecimal digit of either case. -/
def hexValue (b : UInt8) : Option Nat :=
  if 48 ≤ b ∧ b ≤ 57 then some (b.toNat - 48)
  else if 97 ≤ b ∧ b ≤ 102 then some (b.toNat - 87)
  else if 65 ≤ b ∧ b ≤ 70 then some (b.toNat - 55)
  else none

/-- Bytes from half bytes, two at a time. -/
def pairUp : List Nat → Bytes
  | hi :: lo :: rest => UInt8.ofNat (16 * hi + lo) :: pairUp rest
  | _ => []

/-- Decode hexadecimal digits, skipping every other character; the digits are paired
from the end, so an odd first digit stands for itself. -/
def fromHex (bs : Bytes) : Bytes :=
  let ds := bs.filterMap hexValue
  if ds.length % 2 = 0 then pairUp ds else pairUp (0 :: ds)

@[simp] theorem length_toHex (bs : Bytes) : (toHex bs).length = 2 * bs.length := by
  induction bs with
  | nil => rfl
  | cons b bs ih =>
    simp only [toHex, List.flatMap_cons, List.length_append, List.length_cons, List.length_nil] at ih ⊢
    omega

/-- The lower-case hexadecimal digits. -/
def IsHexDigit (b : UInt8) : Prop := (48 ≤ b ∧ b ≤ 57) ∨ (97 ≤ b ∧ b ≤ 102)

theorem isHexDigit_hexDigit {n : Nat} (h : n < 16) : IsHexDigit (hexDigit n) := by
  have hall : ∀ m < 16, (48 ≤ hexDigit m ∧ hexDigit m ≤ 57) ∨ (97 ≤ hexDigit m ∧ hexDigit m ≤ 102) := by
    decide
  exact hall n h

/-- Encoding writes lower-case digits only. -/
theorem isHexDigit_of_mem_toHex {bs : Bytes} {d : UInt8} (h : d ∈ toHex bs) : IsHexDigit d := by
  simp only [toHex, List.mem_flatMap, List.mem_cons, List.not_mem_nil, or_false] at h
  obtain ⟨b, -, rfl | rfl⟩ := h
  · have hb : b.toNat < 256 := b.toNat_lt
    exact isHexDigit_hexDigit (by omega)
  · exact isHexDigit_hexDigit (Nat.mod_lt _ (by decide))

/-- Encoding writes the digits of these half bytes. -/
theorem filterMap_hexValue_toHex (bs : Bytes) :
    (toHex bs).filterMap hexValue = bs.flatMap fun b => [b.toNat / 16, b.toNat % 16] := by
  have hdigit : ∀ n < 16, hexValue (hexDigit n) = some n := by decide
  induction bs with
  | nil => rfl
  | cons b bs ih =>
    have hb : b.toNat < 256 := b.toNat_lt
    rw [List.flatMap_cons, ← ih]
    exact (List.filterMap_cons_some (hdigit (b.toNat / 16) (by omega))).trans
      (congrArg _ (List.filterMap_cons_some (hdigit (b.toNat % 16) (by omega))))

/-- **Hexadecimal digits are decoded to what was encoded.** -/
theorem fromHex_toHex (bs : Bytes) : fromHex (toHex bs) = bs := by
  have heven : (bs.flatMap fun b => [b.toNat / 16, b.toNat % 16]).length % 2 = 0 := by
    rw [List.length_flatMap]
    induction bs with
    | nil => rfl
    | cons b bs ih =>
      rw [List.map_cons, List.sum_cons]
      exact (Nat.add_mod_left 2 _).trans ih
  rw [fromHex, filterMap_hexValue_toHex, if_pos heven]
  clear heven
  induction bs with
  | nil => rfl
  | cons b bs ih =>
    rw [List.flatMap_cons, List.cons_append, List.cons_append, List.nil_append, pairUp, ih,
      Nat.div_add_mod, UInt8.ofNat_toNat]

theorem toHex_inj {bs cs : Bytes} : toHex bs = toHex cs ↔ bs = cs := by
  refine ⟨?_, congrArg toHex⟩
  intro h
  rw [← fromHex_toHex bs, h, fromHex_toHex]

/-! ### Base64 -/

/-- One base64 digit; `url` selects the alphabet with `-` and `_`. -/
def base64Digit (url : Bool) (n : Nat) : Char :=
  if n < 26 then Char.ofNat (65 + n)
  else if n < 52 then Char.ofNat (71 + n)
  else if n < 62 then Char.ofNat (n - 4)
  else if n = 62 then (if url then '-' else '+')
  else (if url then '_' else '/')

/-- The base64 digits of a byte string, three bytes at a time. -/
def base64Digits (url pad : Bool) : Bytes → List Char
  | [] => []
  | [a] =>
    base64Digit url (a.toNat / 4) :: base64Digit url (a.toNat % 4 * 16) ::
      if pad then ['=', '='] else []
  | [a, b] =>
    base64Digit url (a.toNat / 4) :: base64Digit url (a.toNat % 4 * 16 + b.toNat / 16) ::
      base64Digit url (b.toNat % 16 * 4) :: if pad then ['='] else []
  | a :: b :: c :: rest =>
    base64Digit url (a.toNat / 4) :: base64Digit url (a.toNat % 4 * 16 + b.toNat / 16) ::
      base64Digit url (b.toNat % 16 * 4 + c.toNat / 64) :: base64Digit url (c.toNat % 64) ::
      base64Digits url pad rest

/-- Base64 with padding. -/
def toBase64 (bs : Bytes) : String := String.ofList (base64Digits false true bs)

/-- Base64 for URLs, without padding. -/
def toBase64Url (bs : Bytes) : String := String.ofList (base64Digits true false bs)

/-- The value of a digit of the standard alphabet, given as an ASCII byte. -/
def base64Value (b : UInt8) : Option Nat :=
  if 65 ≤ b ∧ b ≤ 90 then some (b.toNat - 65)
  else if 97 ≤ b ∧ b ≤ 122 then some (b.toNat - 71)
  else if 48 ≤ b ∧ b ≤ 57 then some (b.toNat + 4)
  else if b = 43 then some 62
  else if b = 47 then some 63
  else none

/-- Collect bytes from six-bit values; `bits` of the number `buf` are pending. -/
def base64Bytes : Nat → Nat → List Nat → Bytes
  | _, _, [] => []
  | buf, bits, d :: ds =>
    let buf := buf * 64 + d
    if bits + 6 ≥ 8 then
      UInt8.ofNat (buf / 2 ^ (bits - 2)) :: base64Bytes (buf % 2 ^ (bits - 2)) (bits - 2) ds
    else base64Bytes buf (bits + 6) ds

/-- Decode base64, skipping every character that is not a digit. -/
def fromBase64 (bs : Bytes) : Bytes := base64Bytes 0 0 (bs.filterMap base64Value)

theorem base64Digits_ne_nil {url pad : Bool} {bs : Bytes} (h : bs ≠ []) :
    base64Digits url pad bs ≠ [] := by
  match bs with
  | [] => exact absurd rfl h
  | [_] => simp [base64Digits]
  | [_, _] => simp [base64Digits]
  | _ :: _ :: _ :: _ => simp [base64Digits]

theorem toBase64Url_ne_empty {bs : Bytes} (h : bs ≠ []) : toBase64Url bs ≠ "" := by
  rw [toBase64Url, Ne, ← String.toList_eq_nil_iff, String.toList_ofList]
  exact base64Digits_ne_nil h

theorem mem_base64Digits {url : Bool} {bs : Bytes} {c : Char} (h : c ∈ base64Digits url false bs) :
    ∃ n < 64, c = base64Digit url n := by
  induction bs using base64Digits.induct with
  | case1 => cases h
  | case2 a =>
    have ha : a.toNat < 256 := a.toNat_lt
    rw [base64Digits, if_neg Bool.false_ne_true] at h
    rcases List.mem_cons.mp h with rfl | h
    · exact ⟨_, by omega, rfl⟩
    · exact ⟨_, by omega, List.mem_singleton.mp h⟩
  | case3 a b =>
    have ha : a.toNat < 256 := a.toNat_lt
    have hb : b.toNat < 256 := b.toNat_lt
    rw [base64Digits, if_neg Bool.false_ne_true] at h
    rcases List.mem_cons.mp h with rfl | h
    · exact ⟨_, by omega, rfl⟩
    · rcases List.mem_cons.mp h with rfl | h
      · exact ⟨_, by omega, rfl⟩
      · exact ⟨_, by omega, List.mem_singleton.mp h⟩
  | case4 a b c rest ih =>
    have ha : a.toNat < 256 := a.toNat_lt
    have hb : b.toNat < 256 := b.toNat_lt
    rw [base64Digits] at h
    rcases List.mem_cons.mp h with rfl | h
    · exact ⟨_, by omega, rfl⟩
    · rcases List.mem_cons.mp h with rfl | h
      · exact ⟨_, by omega, rfl⟩
      · rcases List.mem_cons.mp h with rfl | h
        · have hc : c.toNat < 256 := c.toNat_lt
          exact ⟨_, by omega, rfl⟩
        · rcases List.mem_cons.mp h with rfl | h
          · exact ⟨_, by omega, rfl⟩
          · exact ih h

/-- The six-bit values of a byte string, three bytes at a time. -/
def base64Values : Bytes → List Nat
  | [] => []
  | [a] => [a.toNat / 4, a.toNat % 4 * 16]
  | [a, b] => [a.toNat / 4, a.toNat % 4 * 16 + b.toNat / 16, b.toNat % 16 * 4]
  | a :: b :: c :: rest =>
    a.toNat / 4 :: (a.toNat % 4 * 16 + b.toNat / 16) :: (b.toNat % 16 * 4 + c.toNat / 64) ::
      c.toNat % 64 :: base64Values rest

/-- A digit stands for its value. -/
theorem base64Value_base64Digit {n : Nat} (h : n < 64) (cs : List Char) :
    (toLatin1 (String.ofList (base64Digit false n :: cs))).filterMap base64Value =
      n :: (toLatin1 (String.ofList cs)).filterMap base64Value := by
  have hall : ∀ m < 64, (base64Digit false m).toNat < 256 ∧
      base64Value (UInt8.ofNat (base64Digit false m).toNat) = some m := by decide
  obtain ⟨hlt, hvalue⟩ := hall n h
  rw [toLatin1, toLatin1, String.toList_ofList, String.toList_ofList, List.flatMap_cons, if_pos hlt,
    List.singleton_append, List.filterMap_cons_some hvalue]

/-- Encoding writes the digits of these values, and padding that decoding skips. -/
theorem filterMap_base64Value_toBase64 (bs : Bytes) :
    (toLatin1 (toBase64 bs)).filterMap base64Value = base64Values bs := by
  rw [toBase64]
  induction bs using base64Values.induct with
  | case1 => rfl
  | case2 a =>
    have ha : a.toNat < 256 := a.toNat_lt
    rw [base64Digits, base64Values, base64Value_base64Digit (by omega),
      base64Value_base64Digit (by omega)]
    rfl
  | case3 a b =>
    have ha : a.toNat < 256 := a.toNat_lt
    have hb : b.toNat < 256 := b.toNat_lt
    rw [base64Digits, base64Values, base64Value_base64Digit (by omega),
      base64Value_base64Digit (by omega), base64Value_base64Digit (by omega)]
    rfl
  | case4 a b c rest ih =>
    have ha : a.toNat < 256 := a.toNat_lt
    have hb : b.toNat < 256 := b.toNat_lt
    have hc : c.toNat < 256 := c.toNat_lt
    rw [base64Digits, base64Values, base64Value_base64Digit (by omega),
      base64Value_base64Digit (by omega), base64Value_base64Digit (by omega),
      base64Value_base64Digit (by omega), ih]

/-- The bytes are collected from the values again. -/
theorem base64Bytes_base64Values (bs : Bytes) : base64Bytes 0 0 (base64Values bs) = bs := by
  have hbyte : ∀ {n : Nat} {b : UInt8}, n = b.toNat → UInt8.ofNat n = b := by
    rintro n b rfl
    exact UInt8.ofNat_toNat
  induction bs using base64Values.induct with
  | case1 => rfl
  | case2 a =>
    have ha : a.toNat < 256 := a.toNat_lt
    simp only [base64Values, base64Bytes, Nat.zero_mul, Nat.zero_add, Nat.reduceAdd, Nat.reduceSub,
      Nat.reduceLeDiff, ge_iff_le, if_true, if_false, Nat.reducePow, List.cons.injEq, and_true]
    exact hbyte (by omega)
  | case3 a b =>
    have ha : a.toNat < 256 := a.toNat_lt
    have hb : b.toNat < 256 := b.toNat_lt
    simp only [base64Values, base64Bytes, Nat.zero_mul, Nat.zero_add, Nat.reduceAdd, Nat.reduceSub,
      Nat.reduceLeDiff, ge_iff_le, if_true, if_false, Nat.reducePow, List.cons.injEq, and_true]
    exact ⟨hbyte (by omega), hbyte (by omega)⟩
  | case4 a b c rest ih =>
    have ha : a.toNat < 256 := a.toNat_lt
    have hb : b.toNat < 256 := b.toNat_lt
    have hc : c.toNat < 256 := c.toNat_lt
    simp only [base64Values, base64Bytes, Nat.zero_mul, Nat.zero_add, Nat.reduceAdd, Nat.reduceSub,
      Nat.reduceLeDiff, ge_iff_le, if_true, if_false, Nat.reducePow, List.cons.injEq, Nat.mod_one,
      Nat.div_one]
    exact ⟨hbyte (by omega), hbyte (by omega), hbyte (by omega), ih⟩

/-- **Base64 is decoded to what was encoded.** -/
theorem fromBase64_toBase64 (bs : Bytes) : fromBase64 (toLatin1 (toBase64 bs)) = bs := by
  rw [fromBase64, filterMap_base64Value_toBase64, base64Bytes_base64Values]

/-! ### White space and numbers -/

/-- White space in byte strings: blank, tab, and the line and page breaks. -/
def isAsciiSpace (c : Char) : Bool := c.toNat = 32 || (9 ≤ c.toNat && c.toNat ≤ 13)

/-- White space in Unicode text. -/
def isTextSpace (c : Char) : Bool :=
  isAsciiSpace c || c.toNat ∈ [0x85, 0xa0, 0x1680, 0x2028, 0x2029, 0x202f, 0x205f, 0x3000] ||
    (0x2000 ≤ c.toNat && c.toNat ≤ 0x200a)

/-- Drop the white space at both ends. -/
def trimmed (space : Char → Bool) (cs : List Char) : List Char :=
  (cs.dropWhile space).rdropWhile space

/-- An unsigned decimal number: at least one digit and nothing else. -/
def parseDigits (cs : List Char) : Option Nat :=
  if cs ≠ [] ∧ cs.all Char.isDigit then some (Nat.ofDigitChars 10 cs 0) else none

/-- A signed decimal number: white space around it and one sign are allowed. -/
def parseInt (s : String) : Option Int :=
  match trimmed isTextSpace s.toList with
  | '-' :: cs => (parseDigits cs).map fun n => -(n : Int)
  | '+' :: cs => (parseDigits cs).map fun n => (n : Int)
  | cs => (parseDigits cs).map fun n => (n : Int)

/-- Read a text as a 32-bit number. -/
def parseInt32 (s : String) : Option Int :=
  (parseInt s).filter fun n => -2147483648 ≤ n ∧ n ≤ 2147483647

/-- Read a text as a 64-bit number. -/
def parseInt64 (s : String) : Option Int :=
  (parseInt s).filter fun n => -9223372036854775808 ≤ n ∧ n ≤ 9223372036854775807

theorem trimmed_eq_self {space : Char → Bool} {cs : List Char} (h : ∀ c ∈ cs, space c = false) :
    trimmed space cs = cs := by
  have hbare : Bare space cs := by
    constructor
    · exact fun c hc => h c (List.mem_of_mem_head? hc)
    · exact fun c hc => h c (List.mem_of_mem_getLast? hc)
  exact trim_of_around hbare ⟨[], [], by simp, by simp, by simp⟩

theorem isTextSpace_of_isDigit {c : Char} (h : c.isDigit = true) : isTextSpace c = false := by
  have hle : 48 ≤ c.toNat ∧ c.toNat ≤ 57 := Char.isDigit_iff_toNat.mp h
  simp only [isTextSpace, isAsciiSpace, List.mem_cons, List.not_mem_nil, or_false,
    Bool.or_eq_false_iff, Bool.and_eq_false_iff, decide_eq_false_iff_not, not_or]
  omega

/-- Printing a number and reading it back. -/
theorem parseInt_repr (n : Nat) : parseInt n.repr = some (n : Int) := by
  have hdigit : ∀ c ∈ Nat.toDigits 10 n, c.isDigit = true := fun c hc =>
    Nat.isDigit_of_mem_toDigits (by decide) (by decide) hc
  have hparse : parseDigits (Nat.toDigits 10 n) = some n := by
    rw [parseDigits, if_pos ⟨Nat.toDigits_ne_nil, List.all_eq_true.mpr hdigit⟩,
      Nat.ofDigitChars_ten_toDigits]
  have htrim : trimmed isTextSpace n.repr.toList = Nat.toDigits 10 n := by
    rw [Nat.toList_repr]
    exact trimmed_eq_self fun c hc => isTextSpace_of_isDigit (hdigit c hc)
  rw [parseInt, htrim]
  split
  · next cs hcs => exact absurd (hdigit '-' (by simp [hcs])) (by decide)
  · next cs hcs => exact absurd (hdigit '+' (by simp [hcs])) (by decide)
  · rw [hparse]
    rfl

theorem parseInt32_repr {n : Nat} (h : n ≤ 2147483647) : parseInt32 n.repr = some (n : Int) := by
  rw [parseInt32, parseInt_repr, Option.filter_some, if_pos]
  simp only [decide_eq_true_eq]
  omega

end TiBackup.Lib
