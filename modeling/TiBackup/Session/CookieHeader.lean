import TiBackup.Lib.Utf8
import TiBackup.Model.WsHub
import TiBackup.Session.Cookie

/-!
# TiBackup.Session.CookieHeader

**The session cookie in a Cookie header.** HTTP requests and web sockets read it with two
loops over the items of the header. Both find the first item that carries a cookie of the
name `tibackup_sid`, and read its value (`cookieValue_exact`). A value may begin with white
space: an item is trimmed, the text behind its first equals sign is not.

The requests of the other modules have their cookies as text; what they read of it is what
is read of its bytes (`cookieValue_toUtf8`).
-/

namespace TiBackup

open Lib

namespace CookieHeader

/-! ### The two loops -/

/-- One item of a Cookie header, if it is the cookie of that name. -/
def cookieItem (name p : Bytes) : Option String :=
  let t := trimmedBytes p
  let eq := t.idxOf 61
  if 0 < eq ∧ eq < t.length ∧ t.take eq = name then some (fromUtf8 (t.drop (eq + 1))) else none

/-- `cookieValue`, on the bytes of the header. -/
def cookieValue (header name : Bytes) : String :=
  ((header.splitOn 59).findSome? (cookieItem name)).getD ""

/-- `tibackup_sid`. -/
def sid : Bytes := toUtf8 "tibackup_sid"

/-! ### Items -/

/-- Neither an equals sign nor white space at the beginning. -/
structure PlainName (name : Bytes) : Prop where
  noSign : 61 ∉ name
  first : ∀ b ∈ name.head?, isSpaceByte b = false

/-- An item is a name, an equals sign and a value, with white space around them. -/
structure Carries (name item value : Bytes) : Prop where
  around : Around isSpaceByte (name ++ 61 :: value) item
  last : ∀ b ∈ value.getLast?, isSpaceByte b = false

theorem plainName_sid : PlainName sid := ⟨by decide +kernel, by decide +kernel⟩

theorem bare_pair {name value : Bytes} (hname : PlainName name)
    (hlast : ∀ b ∈ value.getLast?, isSpaceByte b = false) :
    Bare isSpaceByte (name ++ 61 :: value) := by
  constructor
  · intro b hb
    cases name with
    | nil =>
      obtain rfl := Option.some.inj hb
      decide
    | cons c name => exact hname.first b hb
  · intro b hb
    rw [List.getLast?_append, List.getLast?_cons, Option.some_or] at hb
    obtain rfl := Option.some.inj hb
    cases hvalue : value.getLast? with
    | none => rfl
    | some c => exact hlast c hvalue

theorem trimmedBytes_eq_iff {name item value : Bytes} (hname : PlainName name) :
    trimmedBytes item = name ++ 61 :: value ↔ Carries name item value := by
  constructor
  · intro h
    obtain ⟨hbare, haround⟩ := trim_eq_iff.mp h
    refine ⟨haround, ?_⟩
    intro b hb
    refine hbare.last b ?_
    rw [List.getLast?_append, List.getLast?_cons, hb]
    rfl
  · rintro ⟨haround, hlast⟩
    exact trim_of_around (bare_pair hname hlast) haround

/-- What an item carries is determined by it. -/
theorem Carries.unique {name name' item value value' : Bytes} (hname : PlainName name)
    (hname' : PlainName name') (h : Carries name item value) (h' : Carries name' item value') :
    name = name' ∧ value = value' := by
  have heq := (trimmedBytes_eq_iff hname).mpr h
  rw [(trimmedBytes_eq_iff hname').mpr h'] at heq
  obtain ⟨-, hfront, hrest⟩ := cut_append_cons hname.noSign value
  obtain ⟨-, hfront', hrest'⟩ := cut_append_cons hname'.noSign value'
  rw [heq] at hfront' hrest'
  exact ⟨hfront.symm.trans hfront', hrest.symm.trans hrest'⟩

theorem cookieItem_eq_some_iff {name p : Bytes} (hne : name ≠ []) (hname : PlainName name)
    {v : String} : cookieItem name p = some v ↔ ∃ value, Carries name p value ∧ fromUtf8 value = v := by
  simp only [cookieItem, ← trimmedBytes_eq_iff hname]
  generalize trimmedBytes p = t
  constructor
  · intro h
    split at h
    · next hcut =>
      have hsplit := (cut_at_idxOf_iff.mp ⟨hcut.2.1, hcut.2.2, rfl⟩).2
      exact ⟨_, hsplit, Option.some.inj h⟩
    · cases h
  · rintro ⟨value, rfl, rfl⟩
    obtain ⟨hlt, hfront, hrest⟩ := cut_append_cons hname.noSign value
    have hpos : 0 < (name ++ 61 :: value).idxOf 61 := by
      by_contra hzero
      rw [Nat.eq_zero_of_not_pos hzero, List.take_zero] at hfront
      exact hne hfront.symm
    rw [if_pos ⟨hpos, hlt, hfront⟩, hrest]

/-! ### The first item -/

/-- No cookie of that name. -/
def Other (name item : Bytes) : Prop := ∀ value, ¬ Carries name item value

/-- What is read of a list of items: the value of the first one that carries the cookie, and
nothing if there is none. -/
inductive ReadsFirst (name : Bytes) (read : Bytes → String) : List Bytes → String → Prop
  | first {before after : List Bytes} {item value : Bytes} : (∀ i ∈ before, Other name i) →
      Carries name item value → ReadsFirst name read (before ++ item :: after) (read value)
  | none {items : List Bytes} : (∀ i ∈ items, Other name i) → ReadsFirst name read items ""

/-- What is read comes from one of the items. -/
theorem ReadsFirst.from_item {name : Bytes} {read : Bytes → String} {items : List Bytes} {v : String}
    (h : ReadsFirst name read items v) : (∀ i ∈ items, Other name i) ∨
      ∃ item ∈ items, ∃ value, Carries name item value ∧ read value = v := by
  cases h with
  | first hbefore hcarries =>
    exact .inr ⟨_, List.mem_append_right _ List.mem_cons_self, _, hcarries, rfl⟩
  | none hnone => exact .inl hnone

theorem cookieItem_eq_none_iff {name p : Bytes} (hne : name ≠ []) (hname : PlainName name) :
    cookieItem name p = none ↔ Other name p := by
  rw [Option.eq_none_iff_forall_ne_some]
  constructor
  · intro h value hcarries
    exact h _ ((cookieItem_eq_some_iff hne hname).mpr ⟨value, hcarries, rfl⟩)
  · intro h v hv
    obtain ⟨value, hcarries, -⟩ := (cookieItem_eq_some_iff hne hname).mp hv
    exact h value hcarries

/-- **The value of the first cookie** is read. -/
theorem cookieValue_eq_iff {name : Bytes} (hne : name ≠ []) (hname : PlainName name)
    {header : Bytes} {v : String} :
    cookieValue header name = v ↔ ReadsFirst name fromUtf8 (header.splitOn 59) v := by
  rw [cookieValue]
  generalize header.splitOn 59 = items
  constructor
  · rintro rfl
    cases hfound : items.findSome? (cookieItem name) with
    | none =>
      rw [Option.getD_none]
      refine .none fun i hi => ?_
      exact (cookieItem_eq_none_iff hne hname).mp (List.findSome?_eq_none_iff.mp hfound i hi)
    | some v =>
      obtain ⟨before, item, after, rfl, hitem, hbefore⟩ := List.findSome?_eq_some_iff.mp hfound
      obtain ⟨value, hcarries, rfl⟩ := (cookieItem_eq_some_iff hne hname).mp hitem
      rw [Option.getD_some]
      exact .first (fun i hi => (cookieItem_eq_none_iff hne hname).mp (hbefore i hi)) hcarries
  · rintro (⟨hbefore, hcarries⟩ | hnone)
    · have hitem := (cookieItem_eq_some_iff hne hname).mpr ⟨_, hcarries, rfl⟩
      rw [List.findSome?_eq_some_iff.mpr ⟨_, _, _, rfl, hitem, fun i hi =>
        (cookieItem_eq_none_iff hne hname).mpr (hbefore i hi)⟩, Option.getD_some]
    · rw [List.findSome?_eq_none_iff.mpr fun i hi =>
        (cookieItem_eq_none_iff hne hname).mpr (hnone i hi), Option.getD_none]

theorem sid_ne_nil : sid ≠ [] := by decide

/-- The two loops are the same. -/
theorem wsCookieTokenFromHeader_eq (header : Bytes) :
    wsCookieTokenFromHeader header = cookieValue header sid := rfl

/-- An item without an equals sign carries nothing. -/
theorem other_of_not_mem {name item : Bytes} (h : 61 ∉ item) : Other name item := by
  rintro value ⟨⟨before, after, -, -, rfl⟩, -⟩
  exact h (by simp)

/-- A cookie of another name is not this one, whatever its name and its value contain. -/
theorem Carries.other {name name' item value : Bytes} (hname : PlainName name)
    (hname' : PlainName name') (h : Carries name item value) (hne : name ≠ name') :
    Other name' item :=
  fun _ h' => hne (h.unique hname hname' h').1

/-! ### The header as text -/

/-- A white-space byte is a white-space character of its own. -/
theorem isAsciiSpace_of_isSpaceByte {b : UInt8} (hb : isSpaceByte b = true) {c : Char}
    (h : b ∈ String.utf8EncodeChar c) : isAsciiSpace c = true := by
  have hall : ∀ n < 256, isSpaceByte (UInt8.ofNat n) = true →
      String.utf8EncodeChar (Char.ofNat n) = [UInt8.ofNat n] ∧
        isAsciiSpace (Char.ofNat n) = true := by decide +kernel
  obtain ⟨hencode, hspace⟩ := hall b.toNat b.toNat_lt (by rwa [UInt8.ofNat_toNat])
  rw [UInt8.ofNat_toNat] at hencode
  have hcount := count_utf8EncodeChar hencode c
  split at hcount
  · next heq => rwa [heq]
  · exact absurd h (List.count_eq_zero.mp hcount)

theorem isSpaceByte_of_isAsciiSpace {c : Char} (hc : isAsciiSpace c = true) {b : UInt8}
    (h : b ∈ String.utf8EncodeChar c) : isSpaceByte b = true := by
  have hall : ∀ n < 33, isAsciiSpace (Char.ofNat n) = true →
      (String.utf8EncodeChar (Char.ofNat n)).all isSpaceByte = true := by decide
  have hlt : c.toNat < 33 := by
    simp only [isAsciiSpace, Bool.or_eq_true, decide_eq_true_eq, Bool.and_eq_true] at hc
    omega
  have hchar := hall c.toNat hlt
  rw [Char.ofNat_toNat] at hchar
  exact List.all_eq_true.mp (hchar hc) b h

/-- Trimming the text is trimming its bytes. -/
theorem trimmedBytes_toUtf8 (cs : List Char) : trimmedBytes (toUtf8 (String.ofList cs)) =
    toUtf8 (String.ofList (trimmed isAsciiSpace cs)) := by
  have haround : Around isAsciiSpace (trimmed isAsciiSpace cs) cs := around_trim cs
  have hbare : Bare isAsciiSpace (trimmed isAsciiSpace cs) := bare_trim cs
  generalize trimmed isAsciiSpace cs = core at haround hbare
  obtain ⟨before, after, hbefore, hafter, rfl⟩ := haround
  have hspaces : ∀ ds : List Char, (∀ c ∈ ds, isAsciiSpace c = true) →
      ∀ b ∈ toUtf8 (String.ofList ds), isSpaceByte b = true := by
    intro ds hds b hb
    rw [toUtf8, String.toList_ofList, List.mem_flatMap] at hb
    obtain ⟨c, hc, hb⟩ := hb
    exact isSpaceByte_of_isAsciiSpace (hds c hc) hb
  have hencode : ∀ c, isAsciiSpace c = false → ∀ b ∈ String.utf8EncodeChar c,
      isSpaceByte b = false := by
    intro c hc b hb
    by_contra hspace
    exact Bool.false_ne_true
      (hc.symm.trans (isAsciiSpace_of_isSpaceByte (Bool.not_eq_false _ |>.mp hspace) hb))
  refine trim_of_around ?_ ⟨_, _, hspaces before hbefore, hspaces after hafter, ?_⟩
  · constructor
    · intro b hb
      cases core with
      | nil => cases hb
      | cons c core =>
        refine hencode c (hbare.first c rfl) b ?_
        rw [toUtf8_ofList_cons, List.head?_append_of_ne_nil _ String.utf8EncodeChar_ne_nil] at hb
        exact List.mem_of_mem_head? hb
    · intro b hb
      rcases List.eq_nil_or_concat' core with rfl | ⟨init, c, rfl⟩
      · cases hb
      · refine hencode c (hbare.last c List.getLast?_concat) b ?_
        have hnil : toUtf8 (String.ofList []) = [] := rfl
        rw [toUtf8_ofList_append, toUtf8_ofList_cons, hnil, List.append_nil, List.getLast?_append,
          List.getLast?_eq_some_getLast String.utf8EncodeChar_ne_nil, Option.some_or] at hb
        obtain rfl := Option.some.inj hb
        exact List.getLast_mem _
  · rw [toUtf8_ofList_append, toUtf8_ofList_append]

/-- An item of the text, read as bytes. -/
theorem cookieItem_toUtf8 (name : String) (p : List Char) :
    cookieItem (toUtf8 name) (toUtf8 (String.ofList p)) =
      ((TiBackup.cookieItem p).bind fun kv => if kv.1 = name then some kv.2 else none).map
        fun v => fromUtf8 (toUtf8 v) := by
  simp only [cookieItem, TiBackup.cookieItem, trimmedBytes_toUtf8]
  generalize trimmed isAsciiSpace p = t
  by_cases hsign : '=' ∈ t
  · obtain ⟨front, rest, rfl, hfront⟩ := List.eq_append_cons_of_mem hsign
    have hbytes : 61 ∉ toUtf8 (String.ofList front) :=
      not_mem_toUtf8 (d := '=') (by decide) (by rwa [String.toList_ofList])
    have htext : toUtf8 (String.ofList (front ++ '=' :: rest)) =
        toUtf8 (String.ofList front) ++ 61 :: toUtf8 (String.ofList rest) := by
      rw [toUtf8_ofList_append, toUtf8_ofList_cons]
      rfl
    obtain ⟨hlt, htake, hdrop⟩ := cut_append_cons hfront rest
    obtain ⟨hlt', htake', hdrop'⟩ := cut_append_cons hbytes (toUtf8 (String.ofList rest))
    have hpos : 0 < (front ++ '=' :: rest).idxOf '=' ↔
        0 < (toUtf8 (String.ofList front) ++ 61 :: toUtf8 (String.ofList rest)).idxOf 61 := by
      rw [idxOf_append_cons hfront, idxOf_append_cons hbytes]
      cases front with
      | nil => rfl
      | cons c front =>
        rw [toUtf8_ofList_cons, List.length_append]
        refine iff_of_true (Nat.succ_pos _) (Nat.add_pos_left ?_ _)
        exact List.length_pos_iff.mpr String.utf8EncodeChar_ne_nil
    rw [htext, htake, htake', hdrop, hdrop']
    simp only [← hpos, hlt, hlt', true_and, and_true, toUtf8_inj]
    by_cases hnamed : 0 < (front ++ '=' :: rest).idxOf '='
    · by_cases hname : String.ofList front = name
      · rw [if_pos ⟨hnamed, hname⟩, if_pos hnamed, Option.bind_some, if_pos hname]
        rfl
      · rw [if_neg fun h => hname h.2, if_pos hnamed, Option.bind_some, if_neg hname]
        rfl
    · rw [if_neg fun h => hnamed h.1, if_neg hnamed]
      rfl
  · have hbytes : 61 ∉ toUtf8 (String.ofList t) :=
      not_mem_toUtf8 (d := '=') (by decide) (by rwa [String.toList_ofList])
    rw [if_neg fun h => hbytes (List.idxOf_lt_length_iff.mp h.2.1),
      if_neg fun h => hsign (List.idxOf_lt_length_iff.mp h.2)]
    rfl

/-- **A header that is text** is read by the HTTP requests as its bytes are. -/
theorem cookieValue_toUtf8 (req : Request) (name : String) :
    cookieValue (toUtf8 req.cookie) (toUtf8 name) = TiBackup.cookieValue req name := by
  have hitems := splitOn_toUtf8 (d := ';') (b := 59) (by decide) req.cookie.toList
  rw [String.ofList_toList] at hitems
  have hitem : cookieItem (toUtf8 name) ∘ (fun p => toUtf8 (String.ofList p)) =
      Option.map (fun v => fromUtf8 (toUtf8 v)) ∘ fun p =>
        (TiBackup.cookieItem p).bind fun kv => if kv.1 = name then some kv.2 else none := by
    funext p
    rw [Function.comp_apply, Function.comp_apply, cookieItem_toUtf8]
  rw [cookieValue, hitems, TiBackup.cookieValue, List.findSome?_map, hitem, ← List.map_findSome?]
  cases (req.cookie.toList.splitOn ';').findSome? fun p =>
      (TiBackup.cookieItem p).bind fun kv => if kv.1 = name then some kv.2 else none with
  | none => rfl
  | some v =>
    dsimp only
    rw [Option.map_some, Option.getD_some, ← toList_fromUtf8_toUtf8, String.ofList_toList]

theorem wsCookieTokenFromHeader_toUtf8 (req : Request) :
    wsCookieTokenFromHeader (toUtf8 req.cookie) = sessionToken req :=
  cookieValue_toUtf8 req "tibackup_sid"

/-! ### Tokens -/

/-- The bytes of a token are neither semicolons nor white space. -/
theorem token_bytes (raw : RandomBytes) :
    ∀ b ∈ toUtf8 (SessionStore.randomToken raw), b ≠ 59 ∧ isSpaceByte b = false := by
  have hdigit : ∀ n < 64, (String.utf8EncodeChar (base64Digit true n)).all
      (fun b => b ≠ 59 && !isSpaceByte b) = true := by decide
  intro b hb
  rw [toUtf8, List.mem_flatMap] at hb
  obtain ⟨c, hc, hb⟩ := hb
  rw [SessionStore.randomToken, toBase64Url, String.toList_ofList] at hc
  obtain ⟨n, hn, rfl⟩ := mem_base64Digits hc
  have hall := List.all_eq_true.mp (hdigit n hn) b hb
  rw [Bool.and_eq_true, decide_eq_true_eq, Bool.not_eq_true'] at hall
  exact hall

/-- A token is decoded as it was encoded. -/
theorem fromUtf8_token (raw : RandomBytes) :
    fromUtf8 (toUtf8 (SessionStore.randomToken raw)) = SessionStore.randomToken raw := by
  have hdigit : ∀ n < 64, base64Digit true n ≠ Char.ofNat 0xfeff := by decide
  refine fromUtf8_toUtf8_iff.mpr fun hmark => ?_
  have hmem := List.mem_of_mem_head? hmark
  rw [SessionStore.randomToken, toBase64Url, String.toList_ofList] at hmem
  obtain ⟨n, hn, heq⟩ := mem_base64Digits hmem
  exact hdigit n hn heq.symm

/-- A header of these items. -/
def headerOf (items : List Bytes) : Bytes := [59].intercalate items

theorem carries_token {raw : RandomBytes} {item : Bytes}
    (h : Around isSpaceByte (sid ++ 61 :: toUtf8 (SessionStore.randomToken raw)) item) :
    Carries sid item (toUtf8 (SessionStore.randomToken raw)) :=
  ⟨h, fun b hb => (token_bytes raw b (List.mem_of_mem_getLast? hb)).2⟩

/-- A token is found between other cookies. -/
theorem cookieValue_token {raw : RandomBytes} {before after : List Bytes} {item : Bytes}
    (hbefore : ∀ i ∈ before, 59 ∉ i ∧ Other sid i) (hafter : ∀ i ∈ after, 59 ∉ i)
    (hitem : Around isSpaceByte (sid ++ 61 :: toUtf8 (SessionStore.randomToken raw)) item) :
    cookieValue (headerOf (before ++ item :: after)) sid = SessionStore.randomToken raw := by
  have hsemicolon : 59 ∉ item := by
    obtain ⟨front, rest, hfront, hrest, rfl⟩ := hitem
    have hspace : ∀ bs : Bytes, (∀ b ∈ bs, isSpaceByte b = true) → 59 ∉ bs :=
      fun bs hbs hmem => absurd (hbs 59 hmem) (by decide)
    have htoken : 59 ∉ toUtf8 (SessionStore.randomToken raw) :=
      fun hmem => (token_bytes raw 59 hmem).1 rfl
    have hsid : 59 ∉ sid := by decide
    simp [hspace front hfront, hspace rest hrest, htoken, hsid]
  refine (cookieValue_eq_iff sid_ne_nil plainName_sid).mpr ?_
  rw [headerOf, List.splitOn_intercalate]
  · have hfirst : ReadsFirst sid fromUtf8 (before ++ item :: after) (fromUtf8 _) :=
      .first (fun i hi => (hbefore i hi).2) (carries_token hitem)
    rwa [fromUtf8_token] at hfirst
  · intro i hi
    rcases List.mem_append.mp hi with hi | hi
    · exact (hbefore i hi).1
    · rcases List.mem_cons.mp hi with rfl | hi
      · exact hsemicolon
      · exact hafter i hi
  · exact List.append_ne_nil_of_right_ne_nil _ (List.cons_ne_nil _ _)

/-- **The session cookie is read exactly**, with both loops: the value of the first item
that carries it, which is the token that was issued when no other item does. A cookie of
another name does not, and an item without an equals sign does not. -/
theorem cookieValue_exact :
    (∀ header, cookieValue header sid = wsCookieTokenFromHeader header ∧
      ∀ v, wsCookieTokenFromHeader header = v ↔
        ReadsFirst sid fromUtf8 (header.splitOn 59) v) ∧
    (∀ (store : SessionStore) (rawToken rawCsrf : RandomBytes) (purgeNow now : Int)
      (before after : List Bytes) (item : Bytes),
      let token := (store.createSession rawToken rawCsrf purgeNow now).2.1
      (∀ i ∈ before ++ after, 59 ∉ i ∧ Other sid i) →
        Around isSpaceByte (sid ++ 61 :: toUtf8 token) item →
          cookieValue (headerOf (before ++ item :: after)) sid = token ∧
            wsCookieTokenFromHeader (headerOf (before ++ item :: after)) = token) ∧
    (∀ name item value : Bytes, PlainName name → name ≠ sid → Carries name item value →
      Other sid item) ∧
    ∀ item : Bytes, 61 ∉ item → Other sid item := by
  refine ⟨fun header => ⟨rfl, fun v => cookieValue_eq_iff sid_ne_nil plainName_sid⟩, ?_, ?_,
    fun item hitem => other_of_not_mem hitem⟩
  · intro store rawToken rawCsrf purgeNow now before after item token hothers hitem
    have htoken := cookieValue_token (fun i hi => hothers i (List.mem_append_left _ hi))
      (fun i hi => (hothers i (List.mem_append_right _ hi)).1) hitem
    exact ⟨htoken, htoken⟩
  · intro name item value hname hne hcarries
    exact hcarries.other hname plainName_sid hne

/-- A token between a cookie whose name ends like its own and a flag. -/
theorem cookieValue_exact_between :
    wsCookieTokenFromHeader (headerOf [toUtf8 "xtibackup_sid=tibackup_sid=evil",
      32 :: (sid ++ 61 :: toUtf8 (SessionStore.randomToken Reference.rawToken)),
      toUtf8 " theme"]) = SessionStore.randomToken Reference.rawToken := by
  have hothers : ∀ i ∈ [toUtf8 "xtibackup_sid=tibackup_sid=evil"] ++ [toUtf8 " theme"],
      59 ∉ i ∧ Other sid i := by
    intro i hi
    rcases List.mem_cons.mp hi with rfl | hi
    · have hcarries : Carries (toUtf8 "xtibackup_sid") (toUtf8 "xtibackup_sid=tibackup_sid=evil")
          (toUtf8 "tibackup_sid=evil") :=
        ⟨⟨[], [], by simp, by simp, by decide +kernel⟩, by decide +kernel⟩
      have hname : PlainName (toUtf8 "xtibackup_sid") := ⟨by decide +kernel, by decide +kernel⟩
      exact ⟨by decide +kernel, hcarries.other hname plainName_sid (by decide +kernel)⟩
    · obtain rfl := List.mem_singleton.mp hi
      exact ⟨by decide +kernel, other_of_not_mem (by decide +kernel)⟩
  have hread := cookieValue_exact.2.1 {} Reference.rawToken Reference.rawToken 0 0 _ _
    (32 :: (sid ++ 61 :: toUtf8 (SessionStore.randomToken Reference.rawToken))) hothers
  exact (hread ⟨[32], [], List.forall_mem_singleton.mpr rfl, by simp,
    by rw [List.append_nil]; rfl⟩).2

/-- A value that begins with a blank. -/
def spacedHeader : Bytes := toUtf8 "tibackup_sid= abc"

/-- **White space at the beginning of a value is kept.** -/
theorem cookieValue_spaced : cookieValue spacedHeader sid = " abc" ∧
    ¬ ∀ header, ReadsFirst sid (fun value => fromUtf8 (trimmedBytes value)) (header.splitOn 59)
      (cookieValue header sid) := by
  have hvalue : cookieValue spacedHeader sid = " abc" := by decide +kernel
  refine ⟨hvalue, ?_⟩
  intro hall
  have hread := hall spacedHeader
  have hitems : spacedHeader.splitOn 59 = [spacedHeader] := by decide +kernel
  have hcarries : Carries sid spacedHeader (toUtf8 " abc") :=
    (trimmedBytes_eq_iff plainName_sid).mp (by decide +kernel)
  rw [hvalue, hitems] at hread
  rcases hread.from_item with hnone | ⟨item, hitem, value, hother, hread⟩
  · exact hnone spacedHeader List.mem_cons_self _ hcarries
  · obtain rfl := List.mem_singleton.mp hitem
    obtain ⟨-, rfl⟩ := hcarries.unique plainName_sid plainName_sid hother
    exact absurd hread (by decide +kernel)

end CookieHeader

end TiBackup
