import TiBackup.Lib.Encoding

/-!
# TiBackup.Lib.Utf8

**Decoding UTF-8 in parts.** A decoder that is given a text in several parts, and decodes
each on its own, has the same result as one that is given all of it exactly when no cut is
inside an encoded character, and no cut but one at the beginning is right before a
byte-order mark (`flatMap_fromUtf8_iff`). The bytes need not be a text: bytes that no
character starts with decode one by one, wherever the cuts are.

A cut is *inside* a character when bytes of its encoding stand on both sides (`SplitsChar`).
Every such cut puts replacement characters in the place of the character
(`count_decodeUtf8_lt`), and so the results differ whatever else is cut.
-/

namespace TiBackup.Lib

/-- U+FFFD, for a byte no character starts with. -/
def replacementChar : Char := Char.ofNat 0xfffd

/-- The encoded byte-order mark. -/
def byteOrderMark : Bytes := [0xef, 0xbb, 0xbf]

/-- The end of the first part and the beginning of the second are parts of one encoded
character. -/
def SplitsChar (l r : Bytes) : Prop :=
  ∃ c x y, String.utf8EncodeChar c = x ++ y ∧ x ≠ [] ∧ y ≠ [] ∧ x <:+ l ∧ y <+: r

/-! ### Encoded characters -/

/-- A character is decoded exactly from its encoding. -/
theorem utf8DecodeChar_iff {bs : Bytes} {c : Char} :
    bs.toByteArray.utf8DecodeChar? 0 = some c ↔ String.utf8EncodeChar c <+: bs := by
  constructor
  · intro h
    obtain ⟨rest, hrest⟩ := ByteArray.exists_of_utf8DecodeChar?_eq_some h
    refine ⟨rest.data.toList, ?_⟩
    have hlist := congrArg (fun b : ByteArray => b.data.toList) hrest
    simpa using hlist.symm
  · intro h
    obtain ⟨rest, rfl⟩ := h
    rw [List.toByteArray_append]
    exact ByteArray.utf8DecodeChar?_utf8EncodeChar_append

/-- No encoding begins with another one. -/
theorem eq_of_utf8EncodeChar_isPrefix {c d : Char} {rest : Bytes}
    (h : String.utf8EncodeChar c <+: String.utf8EncodeChar d ++ rest) : c = d := by
  have hc := utf8DecodeChar_iff.mpr h
  have hd := utf8DecodeChar_iff.mpr (List.prefix_append (String.utf8EncodeChar d) rest)
  exact Option.some.inj (hc.symm.trans hd)

/-- An encoding begins with a byte that can begin one, -/
theorem first_of_utf8EncodeChar {c : Char} {b : UInt8} {bs rest : Bytes}
    (h : String.utf8EncodeChar c ++ rest = b :: bs) : b.IsUTF8FirstByte := by
  cases hc : String.utf8EncodeChar c with
  | nil => exact absurd hc String.utf8EncodeChar_ne_nil
  | cons x xs =>
    rw [hc] at h
    obtain ⟨rfl, -⟩ := List.cons.inj h
    have hfirst := @UInt8.isUTF8FirstByte_getElem_utf8EncodeChar c 0 (by simp [hc])
    simp only [hc, List.getElem_cons_zero, iff_true] at hfirst
    exact hfirst

/-- and goes on with bytes that cannot. -/
theorem not_first_of_utf8EncodeChar {c : Char} {x y : Bytes}
    (h : String.utf8EncodeChar c = x ++ y) (hx : x ≠ []) : ∀ b ∈ y, ¬ b.IsUTF8FirstByte := by
  intro b hb hfirst
  obtain ⟨i, hi, rfl⟩ := List.mem_iff_getElem.mp hb
  have hlength : x.length + i < (String.utf8EncodeChar c).length := by
    rw [h, List.length_append]
    omega
  have hget : (String.utf8EncodeChar c)[x.length + i] = y[i] := by
    simp [h]
  rw [← hget, UInt8.isUTF8FirstByte_getElem_utf8EncodeChar] at hfirst
  exact hx (List.length_eq_zero_iff.mp (by omega))

/-! ### One step of the decoder -/

/-- A byte that no encoded character starts at is replaced. -/
theorem decodeUtf8_bad {b : UInt8} {bs : Bytes} (h : ∀ c, ¬ String.utf8EncodeChar c <+: b :: bs) :
    decodeUtf8 0 (b :: bs) = replacementChar :: decodeUtf8 0 bs := by
  rw [decodeUtf8]
  cases hdecode : (b :: bs).toByteArray.utf8DecodeChar? 0 with
  | none => rfl
  | some c => exact absurd (utf8DecodeChar_iff.mp hdecode) (h c)

theorem decodeUtf8_bad_of_not_first {b : UInt8} (bs : Bytes) (h : ¬ b.IsUTF8FirstByte) :
    decodeUtf8 0 (b :: bs) = replacementChar :: decodeUtf8 0 bs := by
  refine decodeUtf8_bad ?_
  intro c hc
  obtain ⟨rest, hrest⟩ := hc
  exact h (first_of_utf8EncodeChar hrest)

/-- The induction that follows the decoder: an encoded character, or a bad byte. -/
theorem utf8_induction {P : Bytes → Prop} (nil : P [])
    (char : ∀ c bs, P bs → P (String.utf8EncodeChar c ++ bs))
    (bad : ∀ b bs, (∀ c, ¬ String.utf8EncodeChar c <+: b :: bs) → P bs → P (b :: bs)) (bs : Bytes) :
    P bs := by
  induction hn : bs.length using Nat.strongRecOn generalizing bs with
  | ind n ih =>
    subst hn
    cases bs with
    | nil => exact nil
    | cons b bs =>
      by_cases hchar : ∃ c, String.utf8EncodeChar c <+: b :: bs
      · obtain ⟨c, rest, hrest⟩ := hchar
        rw [← hrest]
        refine char c rest (ih _ ?_ rest rfl)
        have hpos := List.length_pos_iff.mpr (String.utf8EncodeChar_ne_nil (c := c))
        rw [← hrest, List.length_append]
        omega
      · exact bad b bs (not_exists.mp hchar) (ih _ (by simp) bs rfl)

/-- Bytes that cannot begin a character are replaced one by one. -/
theorem decodeUtf8_tails {y : Bytes} (h : ∀ b ∈ y, ¬ b.IsUTF8FirstByte) (r : Bytes) :
    decodeUtf8 0 (y ++ r) = List.replicate y.length replacementChar ++ decodeUtf8 0 r := by
  induction y with
  | nil => rfl
  | cons b y ih =>
    rw [List.cons_append, decodeUtf8_bad_of_not_first _ (h b (by simp)),
      ih fun b hb => h b (by simp [hb])]
    rfl

/-- So is the beginning of an encoded character, without its end. -/
theorem decodeUtf8_part {c : Char} {x y : Bytes} (h : String.utf8EncodeChar c = x ++ y)
    (hx : x ≠ []) (hy : y ≠ []) : decodeUtf8 0 x = List.replicate x.length replacementChar := by
  cases x with
  | nil => exact absurd rfl hx
  | cons b x =>
    have hbad : ∀ d, ¬ String.utf8EncodeChar d <+: b :: x := by
      intro d hd
      have hlonger : String.utf8EncodeChar d <+: String.utf8EncodeChar c ++ [] := by
        rw [List.append_nil, h]
        exact hd.trans (List.prefix_append _ _)
      obtain rfl := eq_of_utf8EncodeChar_isPrefix hlonger
      have hle := hd.length_le
      rw [h, List.length_append] at hle
      have hpos := List.length_pos_iff.mpr hy
      omega
    have htails := not_first_of_utf8EncodeChar (x := [b]) h (by simp)
    have hrest := decodeUtf8_tails (fun d hd => htails d (List.mem_append_left _ hd)) []
    rw [List.append_nil] at hrest
    rw [decodeUtf8_bad hbad, hrest, decodeUtf8, List.append_nil]
    rfl

/-- A decoded character that does not stand for bad bytes is encoded somewhere. -/
theorem infix_of_mem_decodeUtf8 {c : Char} (hc : c ≠ replacementChar) {bs : Bytes}
    (h : c ∈ decodeUtf8 0 bs) : String.utf8EncodeChar c <:+: bs := by
  induction bs using utf8_induction with
  | nil => exact absurd h List.not_mem_nil
  | char d bs ih =>
    rw [decodeUtf8_utf8EncodeChar] at h
    rcases List.mem_cons.mp h with rfl | hrest
    · exact (List.prefix_append _ _).isInfix
    · exact (ih hrest).trans (List.suffix_append _ _).isInfix
  | bad b bs hbad ih =>
    rw [decodeUtf8_bad hbad] at h
    exact (ih ((List.mem_cons.mp h).resolve_left hc)).trans (List.suffix_cons _ _).isInfix

/-- A byte that is all of an encoded character belongs to no other one. -/
theorem count_utf8EncodeChar {d : Char} {b : UInt8} (hd : String.utf8EncodeChar d = [b]) (c : Char) :
    (String.utf8EncodeChar c).count b = if c = d then 1 else 0 := by
  split
  · next hc => rw [hc, hd, List.count_singleton_self]
  · next hc =>
    rw [List.count_eq_zero]
    intro hmem
    obtain ⟨x, y, hsplit⟩ := List.append_of_mem hmem
    have hfirst : b.IsUTF8FirstByte :=
      @first_of_utf8EncodeChar d b [] [] (by rw [hd, List.append_nil])
    rcases List.eq_nil_or_concat x with rfl | ⟨init, last, rfl⟩
    · have hprefix : String.utf8EncodeChar d <+: String.utf8EncodeChar c ++ [] :=
        ⟨y, by rw [List.append_nil, hsplit, hd]; rfl⟩
      exact hc (eq_of_utf8EncodeChar_isPrefix hprefix).symm
    · exact not_first_of_utf8EncodeChar hsplit (by simp) b List.mem_cons_self hfirst

/-- A line break is decoded from itself only. -/
theorem count_newline_utf8EncodeChar (c : Char) :
    (String.utf8EncodeChar c).count 10 = if c = '\n' then 1 else 0 :=
  count_utf8EncodeChar (d := '\n') (by decide) c

/-- Decoding keeps the line breaks. -/
theorem count_newline_decodeUtf8 (bs : Bytes) : (decodeUtf8 0 bs).count '\n' = bs.count 10 := by
  induction bs using utf8_induction with
  | nil => rfl
  | char c bs ih =>
    rw [decodeUtf8_utf8EncodeChar, List.count_append, count_newline_utf8EncodeChar, List.count_cons,
      ih, Nat.add_comm]
    simp
  | bad b bs hbad ih =>
    have hb : b ≠ 10 := by
      rintro rfl
      exact hbad '\n' ⟨bs, rfl⟩
    rw [decodeUtf8_bad hbad, List.count_cons_of_ne hb, List.count_cons_of_ne (by decide), ih]

/-! ### One cut -/

/-- What begins a list that is put together begins the first part, or goes on into the
second. -/
theorem isPrefix_append_cases {α : Type} {p l r : List α} (h : p <+: l ++ r) :
    p <+: l ∨ ∃ y, p = l ++ y ∧ y ≠ [] ∧ y <+: r := by
  rcases List.prefix_or_prefix_of_prefix h (List.prefix_append l r) with hl | ⟨y, rfl⟩
  · exact .inl hl
  · by_cases hy : y = []
    · exact .inl (by simp [hy])
    · exact .inr ⟨y, rfl, hy, (List.prefix_append_right_inj l).mp h⟩

theorem not_splitsChar_nil (r : Bytes) : ¬ SplitsChar [] r := by
  intro hsplit
  obtain ⟨c, x, y, -, hx, -, hsuffix, -⟩ := hsplit
  exact hx (List.suffix_nil.mp hsuffix)

theorem not_splitsChar_nil_right (l : Bytes) : ¬ SplitsChar l [] := by
  intro hsplit
  obtain ⟨c, x, y, -, -, hy, -, hprefix⟩ := hsplit
  exact hy (List.prefix_nil.mp hprefix)

/-- More bytes before the cut. -/
theorem SplitsChar.append_left {l r : Bytes} (h : SplitsChar l r) (x : Bytes) :
    SplitsChar (x ++ l) r := by
  obtain ⟨c, p, y, hc, hp, hy, hsuffix, hr⟩ := h
  exact ⟨c, p, y, hc, hp, hy, hsuffix.trans (List.suffix_append _ _), hr⟩

/-- A cut before a byte that can begin a character is inside none. -/
theorem not_splitsChar_of_first {l r : Bytes} {b : UInt8} (h : b.IsUTF8FirstByte) :
    ¬ SplitsChar l (b :: r) := by
  intro hsplit
  obtain ⟨c, x, y, hc, hx, hy, -, rest, hrest⟩ := hsplit
  cases y with
  | nil => exact hy rfl
  | cons d y =>
    obtain ⟨rfl, -⟩ := List.cons.inj hrest
    exact not_first_of_utf8EncodeChar hc hx d (by simp) h

/-- **A clean cut** changes nothing. -/
theorem decodeUtf8_append {l r : Bytes} (h : ¬ SplitsChar l r) :
    decodeUtf8 0 (l ++ r) = decodeUtf8 0 l ++ decodeUtf8 0 r := by
  induction l using utf8_induction with
  | nil => rfl
  | char c l ih =>
    rw [List.append_assoc, decodeUtf8_utf8EncodeChar, decodeUtf8_utf8EncodeChar, List.cons_append,
      ih fun hsplit => h (hsplit.append_left _)]
  | bad b l hbad ih =>
    have hbad' : ∀ c, ¬ String.utf8EncodeChar c <+: b :: (l ++ r) := by
      intro c hc
      rw [← List.cons_append] at hc
      rcases isPrefix_append_cases hc with hc | ⟨y, hy, hne, hr⟩
      · exact hbad c hc
      · exact h ⟨c, b :: l, y, hy, by simp, hne, List.suffix_refl _, hr⟩
    rw [List.cons_append, decodeUtf8_bad hbad', decodeUtf8_bad hbad, List.cons_append,
      ih fun hsplit => h (hsplit.append_left [b])]

/-- A cut inside a character puts replacements in its place. -/
theorem count_decodeUtf8_lt {l r : Bytes} (h : SplitsChar l r) :
    (decodeUtf8 0 (l ++ r)).count replacementChar <
      (decodeUtf8 0 l ++ decodeUtf8 0 r).count replacementChar := by
  obtain ⟨c, x, y, hc, hx, hy, ⟨before, rfl⟩, ⟨after, rfl⟩⟩ := h
  obtain ⟨b, x', rfl⟩ := List.exists_cons_of_ne_nil hx
  have hfirst : b.IsUTF8FirstByte := by
    refine @first_of_utf8EncodeChar c b (x' ++ y) [] ?_
    rw [hc, List.append_nil, List.cons_append]
  have hleft : decodeUtf8 0 (before ++ b :: x') =
      decodeUtf8 0 before ++ List.replicate (x'.length + 1) replacementChar := by
    rw [decodeUtf8_append (not_splitsChar_of_first hfirst), decodeUtf8_part hc hx hy,
      List.length_cons]
  have hright : decodeUtf8 0 (y ++ after) =
      List.replicate y.length replacementChar ++ decodeUtf8 0 after :=
    decodeUtf8_tails (not_first_of_utf8EncodeChar hc hx) after
  have hwhole : decodeUtf8 0 (before ++ b :: x' ++ (y ++ after)) =
      decodeUtf8 0 before ++ c :: decodeUtf8 0 after := by
    have hsplit : before ++ b :: x' ++ (y ++ after) = before ++ (b :: (x' ++ y ++ after)) := by simp
    rw [hsplit, decodeUtf8_append (not_splitsChar_of_first hfirst),
      ← decodeUtf8_utf8EncodeChar c after, hc]
    simp
  have hpos : 0 < y.length := List.length_pos_iff.mpr hy
  rw [hleft, hright, hwhole]
  simp only [List.count_append, List.count_cons, List.count_replicate_self]
  split
  · omega
  · omega

/-! ### Byte-order marks -/

theorem byteOrderMark_eq : byteOrderMark = String.utf8EncodeChar (Char.ofNat 0xfeff) := by decide

@[simp] theorem fromUtf8_nil : fromUtf8 [] = "" := rfl

theorem fromUtf8_mark (bs : Bytes) : (fromUtf8 (byteOrderMark ++ bs)).toList = decodeUtf8 0 bs := by
  have hmark : [0xef, 0xbb, 0xbf].isPrefixOf (byteOrderMark ++ bs) = true :=
    List.isPrefixOf_iff_prefix.mpr (List.prefix_append _ _)
  rw [fromUtf8, String.toList_ofList, if_pos hmark]
  rfl

theorem fromUtf8_of_no_mark {bs : Bytes} (h : ¬ byteOrderMark <+: bs) :
    (fromUtf8 bs).toList = decodeUtf8 0 bs := by
  rw [fromUtf8, String.toList_ofList, if_neg]
  rwa [List.isPrefixOf_iff_prefix]

theorem infix_of_mem_fromUtf8 {c : Char} (hc : c ≠ replacementChar) {bs : Bytes}
    (h : c ∈ (fromUtf8 bs).toList) : String.utf8EncodeChar c <:+: bs := by
  by_cases hmark : byteOrderMark <+: bs
  · obtain ⟨rest, rfl⟩ := hmark
    rw [fromUtf8_mark] at h
    exact (infix_of_mem_decodeUtf8 hc h).trans (List.suffix_append _ _).isInfix
  · rw [fromUtf8_of_no_mark hmark] at h
    exact infix_of_mem_decodeUtf8 hc h

theorem count_newline_fromUtf8 (bs : Bytes) : (fromUtf8 bs).toList.count '\n' = bs.count 10 := by
  by_cases h : byteOrderMark <+: bs
  · obtain ⟨rest, rfl⟩ := h
    rw [fromUtf8_mark, count_newline_decodeUtf8, List.count_append, Nat.right_eq_add]
    decide
  · rw [fromUtf8_of_no_mark h, count_newline_decodeUtf8]

/-- Nothing but a mark is decoded as no text. -/
theorem fromUtf8_eq_empty_iff {bs : Bytes} : fromUtf8 bs = "" ↔ bs = [] ∨ bs = byteOrderMark := by
  have hnil : ∀ bs, decodeUtf8 0 bs = [] → bs = [] := by
    intro bs h
    induction bs using utf8_induction with
    | nil => rfl
    | char c bs _ => rw [decodeUtf8_utf8EncodeChar] at h; cases h
    | bad b bs hbad _ => rw [decodeUtf8_bad hbad] at h; cases h
  constructor
  · intro h
    have hlist : (fromUtf8 bs).toList = [] := by rw [h]; rfl
    by_cases hmark : byteOrderMark <+: bs
    · obtain ⟨rest, rfl⟩ := hmark
      rw [fromUtf8_mark] at hlist
      exact .inr (by rw [hnil _ hlist, List.append_nil])
    · rw [fromUtf8_of_no_mark hmark] at hlist
      exact .inl (hnil _ hlist)
  · rintro (rfl | rfl)
    · rfl
    · rw [← List.append_nil byteOrderMark, ← String.toList_eq_nil_iff, fromUtf8_mark]
      rfl

/-- The mark that is dropped is not a replacement character. -/
theorem count_fromUtf8 (bs : Bytes) :
    (fromUtf8 bs).toList.count replacementChar = (decodeUtf8 0 bs).count replacementChar := by
  by_cases h : byteOrderMark <+: bs
  · obtain ⟨rest, rfl⟩ := h
    rw [fromUtf8_mark, byteOrderMark_eq, decodeUtf8_utf8EncodeChar, List.count_cons_of_ne]
    decide
  · rw [fromUtf8_of_no_mark h]

/-- Behind a clean cut only the first part may lose a mark. -/
theorem fromUtf8_append {l r : Bytes} (hl : l ≠ []) (h : ¬ SplitsChar l r) :
    (fromUtf8 (l ++ r)).toList = (fromUtf8 l).toList ++ decodeUtf8 0 r := by
  by_cases hmark : byteOrderMark <+: l
  · obtain ⟨l, rfl⟩ := hmark
    rw [List.append_assoc, fromUtf8_mark, fromUtf8_mark,
      decodeUtf8_append fun hsplit => h (hsplit.append_left _)]
  · rw [fromUtf8_of_no_mark hmark, fromUtf8_of_no_mark, decodeUtf8_append h]
    intro hwhole
    rcases isPrefix_append_cases hwhole with hpart | ⟨y, hy, hne, hr⟩
    · exact hmark hpart
    · rw [byteOrderMark_eq] at hy
      exact h ⟨_, l, y, hy, hl, hne, List.suffix_refl l, hr⟩

/-- A mark that is not dropped is one more character. -/
theorem length_fromUtf8_lt {bs : Bytes} (h : byteOrderMark <+: bs) :
    (fromUtf8 bs).toList.length < (decodeUtf8 0 bs).length := by
  obtain ⟨rest, rfl⟩ := h
  rw [fromUtf8_mark, byteOrderMark_eq, decodeUtf8_utf8EncodeChar]
  exact Nat.lt_succ_self _

theorem length_fromUtf8_le (bs : Bytes) :
    (fromUtf8 bs).toList.length ≤ (decodeUtf8 0 bs).length := by
  by_cases h : byteOrderMark <+: bs
  · exact (length_fromUtf8_lt h).le
  · exact (congrArg List.length (fromUtf8_of_no_mark h)).le

/-- Such a byte stands for its character in an encoded text. -/
theorem count_toUtf8 {d : Char} {b : UInt8} (hd : String.utf8EncodeChar d = [b]) (s : String) :
    (toUtf8 s).count b = s.toList.count d := by
  rw [toUtf8]
  induction s.toList with
  | nil => rfl
  | cons c cs ih =>
    rw [List.flatMap_cons, List.count_append, count_utf8EncodeChar hd, List.count_cons, ih,
      Nat.add_comm]
    simp

theorem not_mem_toUtf8 {d : Char} {b : UInt8} (hd : String.utf8EncodeChar d = [b]) {s : String}
    (h : d ∉ s.toList) : b ∉ toUtf8 s := by
  rw [← List.count_eq_zero, count_toUtf8 hd]
  exact List.count_eq_zero.mpr h

theorem toUtf8_ofList_append (xs ys : List Char) :
    toUtf8 (String.ofList (xs ++ ys)) = toUtf8 (String.ofList xs) ++ toUtf8 (String.ofList ys) := by
  simp only [toUtf8, String.toList_ofList, List.flatMap_append]

theorem toUtf8_ofList_cons (c : Char) (cs : List Char) :
    toUtf8 (String.ofList (c :: cs)) = String.utf8EncodeChar c ++ toUtf8 (String.ofList cs) := by
  simp only [toUtf8, String.toList_ofList, List.flatMap_cons]

/-- **A separator cuts the encoded text** where it cuts the text. -/
theorem splitOn_toUtf8 {d : Char} {b : UInt8} (hd : String.utf8EncodeChar d = [b])
    (cs : List Char) : (toUtf8 (String.ofList cs)).splitOn b =
      (cs.splitOn d).map fun p => toUtf8 (String.ofList p) := by
  induction hn : cs.length using Nat.strong_induction_on generalizing cs with
  | _ n ih =>
    by_cases h : d ∈ cs
    · obtain ⟨front, rest, rfl, hfront⟩ := List.eq_append_cons_of_mem h
      have hshort : rest.length < n := by
        rw [← hn, List.length_append, List.length_cons]
        omega
      have hbytes : b ∉ toUtf8 (String.ofList front) :=
        not_mem_toUtf8 hd (by rwa [String.toList_ofList])
      rw [toUtf8_ofList_append, toUtf8_ofList_cons, hd, List.singleton_append,
        List.splitOn_append_cons_self_of_not_mem hbytes,
        List.splitOn_append_cons_self_of_not_mem hfront, List.map_cons, ih _ hshort rest rfl]
    · rw [List.splitOn_eq_singleton h, List.map_singleton,
        List.splitOn_eq_singleton (not_mem_toUtf8 hd (by rwa [String.toList_ofList]))]

theorem byteOrderMark_isPrefix_toUtf8 {s : String} :
    byteOrderMark <+: toUtf8 s ↔ s.toList.head? = some (Char.ofNat 0xfeff) := by
  have hdecode := decodeUtf8_toUtf8_append s []
  rw [List.append_nil, decodeUtf8, List.append_nil] at hdecode
  constructor
  · rintro ⟨rest, hrest⟩
    rw [← hrest, byteOrderMark_eq, decodeUtf8_utf8EncodeChar] at hdecode
    rw [← hdecode, List.head?_cons]
  · intro hhead
    cases hs : s.toList with
    | nil => rw [hs] at hhead; cases hhead
    | cons c cs =>
      rw [hs, List.head?_cons] at hhead
      rw [toUtf8, hs, List.flatMap_cons, Option.some.inj hhead, byteOrderMark_eq]
      exact List.prefix_append _ _

theorem dropMark_eq_self_iff {cs : List Char} :
    dropMark cs = cs ↔ cs.head? ≠ some (Char.ofNat 0xfeff) := by
  rw [dropMark]
  split
  · next hhead =>
    refine iff_of_false ?_ fun hne => hne hhead
    cases cs with
    | nil => cases hhead
    | cons c cs => exact fun heq => absurd (congrArg List.length heq) (by simp)
  · next hhead => exact iff_of_true rfl hhead

theorem length_dropMark_le (cs : List Char) : (dropMark cs).length ≤ cs.length := by
  rw [dropMark]
  split
  · exact List.length_tail ▸ Nat.sub_le _ _
  · exact le_rfl

/-- Decoding undoes encoding, but for the mark. -/
theorem toList_fromUtf8_toUtf8 (s : String) : (fromUtf8 (toUtf8 s)).toList = dropMark s.toList := by
  have hdecode := decodeUtf8_toUtf8_append s []
  rw [List.append_nil, decodeUtf8, List.append_nil] at hdecode
  rw [dropMark]
  split
  · next hhead =>
    obtain ⟨rest, hrest⟩ := byteOrderMark_isPrefix_toUtf8.mpr hhead
    rw [← hrest, byteOrderMark_eq, decodeUtf8_utf8EncodeChar] at hdecode
    rw [← hrest, fromUtf8_mark, ← hdecode, List.tail_cons]
  · next hhead =>
    rw [fromUtf8_of_no_mark fun hmark => hhead (byteOrderMark_isPrefix_toUtf8.mp hmark), hdecode]

/-- **Decoding undoes encoding** exactly for the texts that do not begin with a byte-order
mark. -/
theorem fromUtf8_toUtf8_iff {s : String} :
    fromUtf8 (toUtf8 s) = s ↔ s.toList.head? ≠ some (Char.ofNat 0xfeff) := by
  rw [← String.toList_inj, toList_fromUtf8_toUtf8, dropMark_eq_self_iff]

theorem toUtf8_inj {s t : String} : toUtf8 s = toUtf8 t ↔ s = t := by
  refine ⟨?_, congrArg toUtf8⟩
  intro heq
  have hs := decodeUtf8_toUtf8_append s []
  have ht := decodeUtf8_toUtf8_append t []
  rw [heq, ht] at hs
  exact String.toList_inj.mp (List.append_cancel_right hs).symm

/-! ### Many cuts -/

/-- What is on both sides of a cut between two parts. -/
def Cut (parts : List Bytes) (l r : Bytes) : Prop :=
  ∃ before after, parts = before ++ after ∧ l = before.flatten ∧ r = after.flatten

theorem cut_first (x : Bytes) (xs : List Bytes) : Cut (x :: xs) x xs.flatten :=
  ⟨[x], xs, rfl, by simp, rfl⟩

theorem Cut.cons {parts : List Bytes} {l r : Bytes} (h : Cut parts l r) (x : Bytes) :
    Cut (x :: parts) (x ++ l) r := by
  obtain ⟨before, after, rfl, rfl, rfl⟩ := h
  exact ⟨x :: before, after, rfl, rfl, rfl⟩

/-- A cut of a list is before everything, or after its first part. -/
theorem Cut.cases {x : Bytes} {xs : List Bytes} {l r : Bytes} (h : Cut (x :: xs) l r) :
    l = [] ∨ ∃ l', l = x ++ l' ∧ Cut xs l' r := by
  obtain ⟨before, after, hparts, rfl, rfl⟩ := h
  cases before with
  | nil => exact .inl rfl
  | cons b before =>
    obtain ⟨rfl, rfl⟩ := List.cons.inj hparts
    exact .inr ⟨before.flatten, rfl, before, after, rfl, rfl, rfl⟩

theorem Cut.flatten {parts : List Bytes} {l r : Bytes} (h : Cut parts l r) :
    parts.flatten = l ++ r := by
  obtain ⟨before, after, rfl, rfl, rfl⟩ := h
  exact List.flatten_append

/-- A cut inside a character that goes back into the first part: the first cut is inside
this character, too. -/
theorem splitsChar_append_cases {x l r : Bytes} (h : SplitsChar (x ++ l) r) :
    SplitsChar l r ∨ SplitsChar x (l ++ r) := by
  obtain ⟨c, p, y, hc, hp, hy, hsuffix, hr⟩ := h
  rcases List.suffix_or_suffix_of_suffix hsuffix (List.suffix_append x l) with hl | ⟨z, rfl⟩
  · exact .inl ⟨c, p, y, hc, hp, hy, hl, hr⟩
  · by_cases hz : z = []
    · exact .inl ⟨c, z ++ l, y, hc, hp, hy, by rw [hz]; exact List.suffix_refl l, hr⟩
    · obtain ⟨rest, rfl⟩ := hr
      refine .inr ⟨c, z, l ++ y, by rw [hc, List.append_assoc], hz, by simp [hy], ?_, rest, by simp⟩
      obtain ⟨before, hbefore⟩ := hsuffix
      exact ⟨before, List.append_cancel_right ((List.append_assoc _ _ _).trans hbefore)⟩

/-- Decoding in parts never has fewer replacements, -/
theorem count_flatMap_le (parts : List Bytes) :
    (decodeUtf8 0 parts.flatten).count replacementChar ≤
      (parts.flatMap (decodeUtf8 0)).count replacementChar := by
  induction parts with
  | nil => exact Nat.le_refl _
  | cons x xs ih =>
    rw [List.flatten_cons, List.flatMap_cons, List.count_append]
    by_cases hsplit : SplitsChar x xs.flatten
    · have hlt := count_decodeUtf8_lt hsplit
      rw [List.count_append] at hlt
      omega
    · rw [decodeUtf8_append hsplit, List.count_append]
      omega

/-- and has more of them when a cut is inside a character. -/
theorem count_flatMap_lt {parts : List Bytes} {l r : Bytes} (hcut : Cut parts l r)
    (hsplit : SplitsChar l r) : (decodeUtf8 0 parts.flatten).count replacementChar <
      (parts.flatMap (decodeUtf8 0)).count replacementChar := by
  induction parts generalizing l with
  | nil =>
    obtain ⟨before, after, hparts, rfl, rfl⟩ := hcut
    obtain ⟨rfl, rfl⟩ := List.append_eq_nil_iff.mp hparts.symm
    exact absurd hsplit (not_splitsChar_nil _)
  | cons x xs ih =>
    rw [List.flatten_cons, List.flatMap_cons, List.count_append]
    have hrest := count_flatMap_le xs
    by_cases hfirst : SplitsChar x xs.flatten
    · have hlt := count_decodeUtf8_lt hfirst
      rw [List.count_append] at hlt
      omega
    · rw [decodeUtf8_append hfirst, List.count_append]
      rcases hcut.cases with rfl | ⟨l', rfl, hcut'⟩
      · exact absurd hsplit (not_splitsChar_nil _)
      · rcases splitsChar_append_cases hsplit with hlater | hearlier
        · have hlt := ih hcut' hlater
          omega
        · rw [← hcut'.flatten] at hearlier
          exact absurd hearlier hfirst

/-- No cut is inside a character. -/
def CleanCuts (parts : List Bytes) : Prop := ∀ l r, Cut parts l r → ¬ SplitsChar l r

theorem CleanCuts.first {x : Bytes} {xs : List Bytes} (h : CleanCuts (x :: xs)) :
    ¬ SplitsChar x xs.flatten := h _ _ (cut_first x xs)

theorem CleanCuts.rest {x : Bytes} {xs : List Bytes} (h : CleanCuts (x :: xs)) : CleanCuts xs :=
  fun _ _ hcut hsplit => h _ _ (hcut.cons x) (hsplit.append_left x)

/-- With clean cuts and no mark behind them, the parts are decoded as the whole. -/
theorem flatMap_fromUtf8_of_clean {parts : List Bytes} (hclean : CleanCuts parts)
    (hmark : ∀ l r, Cut parts l r → l ≠ [] → ¬ byteOrderMark <+: r) :
    parts.flatMap (fun bs => (fromUtf8 bs).toList) = (fromUtf8 parts.flatten).toList := by
  induction parts with
  | nil => rfl
  | cons x xs ih =>
    have hmark' : ∀ l r, Cut xs l r → l ≠ [] → ¬ byteOrderMark <+: r := by
      intro l r hcut hl
      exact hmark _ _ (hcut.cons x) (by simp [hl])
    rw [List.flatMap_cons, ih hclean.rest hmark', List.flatten_cons]
    by_cases hx : x = []
    · subst hx
      rfl
    · rw [fromUtf8_append hx hclean.first, fromUtf8_of_no_mark (hmark _ _ (cut_first x xs) hx)]

/-- With clean cuts, the parts never give more, -/
theorem length_flatMap_le {parts : List Bytes} (hclean : CleanCuts parts) :
    (parts.flatMap fun bs => (fromUtf8 bs).toList).length ≤
      (fromUtf8 parts.flatten).toList.length := by
  induction parts with
  | nil => exact Nat.le_refl _
  | cons x xs ih =>
    have hrest := ih hclean.rest
    have hmark := length_fromUtf8_le xs.flatten
    rw [List.flatMap_cons, List.flatten_cons, List.length_append]
    by_cases hx : x = []
    · subst hx
      simpa using hrest
    · rw [fromUtf8_append hx hclean.first, List.length_append]
      omega

/-- and less when a mark follows a cut. -/
theorem length_flatMap_lt {parts : List Bytes} (hclean : CleanCuts parts) {l r : Bytes}
    (hcut : Cut parts l r) (hl : l ≠ []) (hmark : byteOrderMark <+: r) :
    (parts.flatMap fun bs => (fromUtf8 bs).toList).length <
      (fromUtf8 parts.flatten).toList.length := by
  induction parts generalizing l with
  | nil =>
    obtain ⟨before, after, hparts, rfl, rfl⟩ := hcut
    obtain ⟨rfl, rfl⟩ := List.append_eq_nil_iff.mp hparts.symm
    exact absurd rfl hl
  | cons x xs ih =>
    have hrest := length_flatMap_le hclean.rest
    have hdropped := length_fromUtf8_le xs.flatten
    rcases hcut.cases with rfl | ⟨l', rfl, hcut'⟩
    · exact absurd rfl hl
    · rw [List.flatMap_cons, List.flatten_cons, List.length_append]
      by_cases hx : x = []
      · subst hx
        simpa using ih hclean.rest hcut' hl
      · rw [fromUtf8_append hx hclean.first, List.length_append]
        by_cases hl' : l' = []
        · -- the mark follows the first part
          subst hl'
          have hwhole := hcut'.flatten
          rw [List.nil_append] at hwhole
          rw [← hwhole] at hmark
          have hlt := length_fromUtf8_lt hmark
          omega
        · have hlt := ih hclean.rest hcut' hl'
          omega

/-- **Decoding in parts** gives what decoding the whole gives exactly when no cut is inside
an encoded character, and none but one before everything is right before a byte-order
mark. -/
theorem flatMap_fromUtf8_iff (parts : List Bytes) :
    parts.flatMap (fun bs => (fromUtf8 bs).toList) = (fromUtf8 parts.flatten).toList ↔
      ∀ l r, Cut parts l r → ¬ SplitsChar l r ∧ (l ≠ [] → ¬ byteOrderMark <+: r) := by
  constructor
  · intro heq
    have hcount : (parts.flatMap (decodeUtf8 0)).count replacementChar =
        (decodeUtf8 0 parts.flatten).count replacementChar := by
      have hsame := congrArg (List.count replacementChar) heq
      rw [count_fromUtf8, List.count_flatMap] at hsame
      rw [← hsame, List.count_flatMap]
      refine congrArg List.sum (List.map_congr_left ?_)
      intro bs _
      exact (count_fromUtf8 bs).symm
    have hclean : CleanCuts parts := by
      intro l r hcut hsplit
      have hlt := count_flatMap_lt hcut hsplit
      omega
    intro l r hcut
    refine ⟨hclean l r hcut, ?_⟩
    intro hl hmark
    have hlt := length_flatMap_lt hclean hcut hl hmark
    rw [heq] at hlt
    exact Nat.lt_irrefl _ hlt
  · intro h
    exact flatMap_fromUtf8_of_clean (fun l r hcut => (h l r hcut).1) fun l r hcut => (h l r hcut).2

end TiBackup.Lib
