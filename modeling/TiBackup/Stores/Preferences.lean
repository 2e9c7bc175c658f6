import TiBackup.Lib.Utf8
import TiBackup.Lib.ValueStore
import TiBackup.Stores.Frame

/-!
# TiBackup.Stores.Preferences

**The preferences are a lens.** PUT /api/prefs sets the keys of the configuration that its
body has a field for, one after the other, so what it does is the update of a value store
from a table (`conf_putPrefs`). GET /api/prefs shows the same keys. The laws of the two are
read off the table (`prefs_lens`).
-/

namespace TiBackup

open Lib

variable {L : Library}

/-! ### The table of preferences -/

/-- The types of preferences. -/
inductive PrefType
  | text
  | number
  | switch
  deriving Repr, DecidableEq

namespace PrefType

/-- How a value is stored, -/
def stored : PrefType → Json → QVariant
  | text, v => .str v.toString
  | number, v => .int (v.toInt 0)
  | switch, v => .bool v.toBool

/-- and how it is shown. -/
def shown : PrefType → QVariant → Json
  | text, x => .str x.toString
  | number, x => .int x.toInt.toInt
  | switch, x => .bool x.toBool

/-- The values of a type; a number is an `int`. -/
def Typed : PrefType → Json → Prop
  | text, v => ∃ s, v = .str s
  | number, v => ∃ n : Int32, v = .int n.toInt
  | switch, v => ∃ b, v = .bool b

theorem shown_stored {ty : PrefType} {v : Json} (h : ty.Typed v) : ty.shown (ty.stored v) = v := by
  cases ty with
  | text =>
    obtain ⟨s, rfl⟩ := h
    rfl
  | number =>
    obtain ⟨n, rfl⟩ := h
    rw [stored, Json.toInt_int]
    rfl
  | switch =>
    obtain ⟨b, rfl⟩ := h
    rfl

theorem typed_shown (ty : PrefType) (x : QVariant) : ty.Typed (ty.shown x) := by
  cases ty with
  | text => exact ⟨_, rfl⟩
  | number => exact ⟨_, rfl⟩
  | switch => exact ⟨_, rfl⟩

end PrefType

/-- A preference: a field, of a group or of the body itself, and its key. -/
structure Pref where
  group : Option String
  field : String
  key : String
  type : PrefType
  deriving Repr, DecidableEq

def debugPref : Pref := ⟨none, "debug", "main/debug", .switch⟩

def pathPrefs : List Pref :=
  [⟨some "paths", "backupjobs", "paths/backupjobs", .text⟩,
   ⟨some "paths", "pbservers", "paths/pbservers", .text⟩,
   ⟨some "paths", "logs", "paths/logs", .text⟩]

def smtpPrefs : List Pref :=
  [⟨some "smtp", "server", "smtp/server", .text⟩,
   ⟨some "smtp", "port", "smtp/port", .number⟩,
   ⟨some "smtp", "security", "smtp/security", .text⟩,
   ⟨some "smtp", "auth", "smtp/auth", .switch⟩,
   ⟨some "smtp", "username", "smtp/username", .text⟩,
   ⟨some "smtp", "from", "smtp/from", .text⟩]

/-- The preferences that are read and set alike. -/
def prefs : List Pref := debugPref :: pathPrefs ++ smtpPrefs

namespace Pref

/-- Where its field is in a body. -/
def object (p : Pref) (b : Json.Fields) : Json.Fields :=
  match p.group with
  | none => b
  | some g => (b.get g).toObject

/-- A body has the field. -/
def In (p : Pref) (b : Json.Fields) : Prop := (p.object b).contains p.field = true

instance (p : Pref) (b : Json.Fields) : Decidable (p.In b) :=
  inferInstanceAs (Decidable ((p.object b).contains p.field = true))

def value (p : Pref) (b : Json.Fields) : Json := (p.object b).get p.field

/-- What a body has for the key. -/
def written (p : Pref) (b : Json.Fields) : Option QVariant :=
  if p.In b then some (p.type.stored (p.value b)) else none

/-- What is shown of it. -/
def shown (p : Pref) (st : State L) : Json := p.type.shown (st.getValue p.key)

end Pref

/-- The text of a new SMTP password. -/
def newPassword (b : Json.Fields) : String := ((b.get "smtp").toObject.get "password").toString

/-- It is written unless it is empty. -/
def writtenPassword (b : Json.Fields) : Option QVariant :=
  if newPassword b = "" then none else some (.str (Api.encodePassword (newPassword b)))

/-- All that PUT /api/prefs can set. -/
def prefTable : List (String × (Json.Fields → Option QVariant)) :=
  prefs.map (fun p => (p.key, p.written)) ++ [("smtp/password", writtenPassword)]

theorem nodup_prefTable : (prefTable.map Prod.fst).Nodup := by decide

/-! ### PUT /api/prefs -/

/-- The configuration as a value store. -/
def confStore (L : Library) : ValueStore L.Conf String QVariant :=
  ⟨L.getValue, L.setValue, L.getValue_setValue⟩

theorem conf_setIfPresent (o : Json.Fields) (field key : String) (conv : Json → QVariant)
    (st : State L) : (Api.setIfPresent o field key conv st).conf =
      (confStore L).setIf st.conf key
        (if o.contains field then some (conv (o.get field)) else none) := by
  rw [Api.setIfPresent]
  split
  · rfl
  · rfl

theorem get_of_not_contains {o : Json.Fields} {k : String} (h : ¬ o.contains k = true) :
    o.get k = .null := by
  rw [Json.Fields.contains, Option.not_isSome_iff_eq_none] at h
  rw [Json.Fields.get, h, Option.getD_none]

theorem conf_setPaths (b : Json.Fields) (st : State L) :
    (Api.setPaths (b.get "paths").toObject st).conf =
      (confStore L).update (pathPrefs.map fun p => (p.key, p.written)) b st.conf := by
  simp only [Api.setPaths, List.foldl_cons, List.foldl_nil, conf_setIfPresent]
  rfl

/-- A password that is absent is one that is empty. -/
theorem conf_setPassword (b : Json.Fields) (st : State L) :
    (if (b.get "smtp").toObject.contains "password" = true then
        if (newPassword b).isEmpty = true then st
        else st.setValue "smtp/password" (.str (Api.encodePassword (newPassword b)))
      else st).conf = (confStore L).setIf st.conf "smtp/password" (writtenPassword b) := by
  by_cases hempty : newPassword b = ""
  · have hkept : writtenPassword b = none := if_pos hempty
    rw [if_pos (String.isEmpty_iff.mpr hempty), ite_self, hkept]
    rfl
  · have hnew : writtenPassword b = some (.str (Api.encodePassword (newPassword b))) :=
      if_neg hempty
    have hpresent : (b.get "smtp").toObject.contains "password" = true := by
      by_contra habsent
      exact hempty (by rw [newPassword, get_of_not_contains habsent]; rfl)
    rw [if_pos hpresent, if_neg (by rwa [String.isEmpty_iff]), hnew]
    rfl

theorem conf_setSmtp (b : Json.Fields) (st : State L) :
    (Api.setSmtp (b.get "smtp").toObject st).conf =
      (confStore L).update (smtpPrefs.map (fun p => (p.key, p.written)) ++
        [("smtp/password", writtenPassword)]) b st.conf := by
  refine (conf_setPassword b _).trans ?_
  simp only [conf_setIfPresent]
  rfl

/-- A group that is absent is one without fields. -/
theorem conf_group (o : Json.Fields) (k : String) (set : Json.Fields → State L → State L)
    (hnone : ∀ st : State L, (set [] st).conf = st.conf) (st : State L) :
    (if o.contains k = true then set (o.get k).toObject st else st).conf =
      (set (o.get k).toObject st).conf := by
  split
  · rfl
  · next habsent =>
    rw [get_of_not_contains habsent]
    exact (hnone st).symm

theorem conf_setDebug (b : Json.Fields) (st : State L) :
    (if b.contains "debug" = true then
        { st.setValue "main/debug" (.bool (b.get "debug").toBool) with
          debugLogging := (b.get "debug").toBool }
      else st).conf = (confStore L).setIf st.conf debugPref.key (debugPref.written b) := by
  by_cases h : b.contains "debug" = true
  · have hin : debugPref.written b = some (.bool (b.get "debug").toBool) := if_pos h
    rw [if_pos h, hin]
    rfl
  · have hout : debugPref.written b = none := if_neg h
    rw [if_neg h, hout]
    rfl

/-- **What an accepted body sets.** -/
theorem conf_putPrefs {st : State L} {q : Request} {t : Moment} (h : CsrfVerified st t.now q) :
    (Api.putPrefs q t st).1.conf = (confStore L).update prefTable (parseBody q) st.conf := by
  rw [Api.putPrefs, Api.withCsrf_of_verified h]
  dsimp only
  have hdebug := conf_setDebug (parseBody q) (st.validated t.now q)
  generalize (if (parseBody q).contains "debug" = true then _ else _) = changed at hdebug ⊢
  rw [conf_group _ "smtp" Api.setSmtp (fun _ => rfl), conf_setSmtp,
    conf_group _ "paths" Api.setPaths (fun _ => rfl), conf_setPaths, hdebug]
  rfl

/-- A request that is rejected sets nothing. -/
theorem conf_putPrefs_of_rejected {st : State L} {q : Request} {t : Moment}
    (h : ¬ CsrfVerified st t.now q) : (Api.putPrefs q t st).1.conf = st.conf := by
  obtain ⟨e, -, hrun⟩ := Api.withCsrf_of_not_verified h .now _
  rw [Api.putPrefs, hrun]
  rfl

/-- The log level follows at once. -/
theorem debugLogging_putPrefs {st : State L} {q : Request} {t : Moment}
    (h : CsrfVerified st t.now q) : (Api.putPrefs q t st).1.debugLogging =
      if debugPref.In (parseBody q) then (debugPref.value (parseBody q)).toBool
      else st.debugLogging := by
  have hdebug : (if (parseBody q).contains "debug" = true then
      { (st.validated t.now q).setValue "main/debug" (.bool ((parseBody q).get "debug").toBool)
          with debugLogging := ((parseBody q).get "debug").toBool }
      else st.validated t.now q).debugLogging =
        if debugPref.In (parseBody q) then (debugPref.value (parseBody q)).toBool
        else st.debugLogging := by
    by_cases hin : debugPref.In (parseBody q)
    · have hpresent : (parseBody q).contains "debug" = true := hin
      rw [if_pos hin, if_pos hpresent]
      rfl
    · have habsent : ¬ (parseBody q).contains "debug" = true := hin
      rw [if_neg hin, if_neg habsent]
      rfl
  rw [Api.putPrefs, Api.withCsrf_of_verified h, ← hdebug]
  dsimp only
  generalize (if (parseBody q).contains "debug" = true then _ else _) = changed
  have hpaths : Part.Same .flags changed (if (parseBody q).contains "paths" = true then
      Api.setPaths ((parseBody q).get "paths").toObject changed else changed) :=
    .ite (Api.setPaths_keeps (by decide) _ _)
  exact (hpaths.trans (.ite (Api.setSmtp_keeps (by decide) _ _))).1

/-- What is stored for a key afterwards. -/
theorem getValue_putPrefs {st : State L} {q : Request} {t : Moment} (h : CsrfVerified st t.now q)
    (k : String) : (Api.putPrefs q t st).1.getValue k =
      (ValueStore.written prefTable (parseBody q) k).getD (st.getValue k) := by
  rw [State.getValue, conf_putPrefs h]
  exact (confStore L).get_update nodup_prefTable (parseBody q) st.conf k

theorem getValue_putPrefs_pref {st : State L} {q : Request} {t : Moment}
    (h : CsrfVerified st t.now q) {p : Pref} (hp : p ∈ prefs) :
    (Api.putPrefs q t st).1.getValue p.key =
      if p.In (parseBody q) then p.type.stored (p.value (parseBody q)) else st.getValue p.key := by
  have hmem : (p.key, p.written) ∈ prefTable :=
    List.mem_append_left _ (List.mem_map.mpr ⟨p, hp, rfl⟩)
  rw [getValue_putPrefs h, ValueStore.written_of_mem nodup_prefTable hmem (parseBody q)]
  dsimp only [Pref.written]
  split
  · rfl
  · rfl

theorem getValue_putPrefs_password {st : State L} {q : Request} {t : Moment}
    (h : CsrfVerified st t.now q) : (Api.putPrefs q t st).1.getValue "smtp/password" =
      if newPassword (parseBody q) = "" then st.getValue "smtp/password"
      else .str (Api.encodePassword (newPassword (parseBody q))) := by
  have hmem : ("smtp/password", writtenPassword) ∈ prefTable :=
    List.mem_append_right _ List.mem_cons_self
  rw [getValue_putPrefs h, ValueStore.written_of_mem nodup_prefTable hmem (parseBody q)]
  dsimp only [writtenPassword]
  split
  · rfl
  · rfl

/-! ### GET /api/prefs -/

/-- What GET /api/prefs shows. -/
def prefsShown (st : State L) : Json.Fields :=
  [(debugPref.field, debugPref.shown st),
   ("paths", .obj (pathPrefs.map (fun p => (p.field, p.shown st)) ++
     [("scripts", .str (st.getValue "paths/scripts").toString)])),
   ("smtp", .obj (smtpPrefs.map (fun p => (p.field, p.shown st)) ++
     [("password_set", .bool (!(st.getValue "smtp/password").toString.isEmpty))]))]

theorem getPrefs_of_live {st : State L} {q : Request} {t : Moment} {s : Session}
    (h : LiveSession st t.now q s) : Api.getPrefs q t st =
      (st.validated t.now q, .now (jsonResp (.obj (prefsShown st)))) := by
  rw [Api.getPrefs, Api.withAuth_of_live h]
  rfl

theorem prefsShown_congr {st st' : State L} (h : ∀ p ∈ prefs, p.shown st' = p.shown st)
    (hscripts : st'.getValue "paths/scripts" = st.getValue "paths/scripts")
    (hpassword : st'.getValue "smtp/password" = st.getValue "smtp/password") :
    prefsShown st' = prefsShown st := by
  obtain ⟨hdebug, hrest⟩ := List.forall_mem_cons.mp h
  obtain ⟨hpaths, hsmtp⟩ := List.forall_mem_append.mp hrest
  have hgroup : ∀ ps : List Pref, (∀ p ∈ ps, p.shown st' = p.shown st) →
      ps.map (fun p => (p.field, p.shown st')) = ps.map fun p => (p.field, p.shown st) :=
    fun ps hps => List.map_congr_left fun p hp => by rw [hps p hp]
  rw [prefsShown, prefsShown, hdebug, hgroup _ hpaths, hgroup _ hsmtp, hscripts, hpassword]

/-- The preferences are found where they are shown. -/
theorem value_prefsShown (st : State L) : ∀ p ∈ prefs, p.value (prefsShown st) = p.shown st := by
  simp only [prefs, pathPrefs, smtpPrefs, List.cons_append, List.nil_append, List.forall_mem_cons]
  exact ⟨rfl, rfl, rfl, rfl, rfl, rfl, rfl, rfl, rfl, rfl, List.forall_mem_nil _⟩

/-! ### What a body replaces -/

/-- Every preference that a body has is of its type. -/
def WellTyped (b : Json.Fields) : Prop := ∀ p ∈ prefs, p.In b → p.type.Typed (p.value b)

/-- Two bodies have no field in common. -/
def NoCommonField (b c : Json.Fields) : Prop :=
  (∀ p ∈ prefs, ¬ (p.In b ∧ p.In c)) ∧ (newPassword b = "" ∨ newPassword c = "")

/-- The fields of a group, those replaced that are given and can be set. -/
def replaceFields (settable : List String) (given old : Json.Fields) : Json.Fields :=
  old.map fun f => (f.1, if f.1 ∈ settable ∧ given.contains f.1 = true then given.get f.1 else f.2)

/-- What is shown after a body. A password is set if one was or the body has one. -/
def updatedPrefs (b old : Json.Fields) : Json.Fields :=
  let smtp := (old.get "smtp").toObject
  [("debug", if b.contains "debug" = true then b.get "debug" else old.get "debug"),
   ("paths", .obj (replaceFields ["backupjobs", "pbservers", "logs"] (b.get "paths").toObject
     (old.get "paths").toObject)),
   ("smtp", .obj ((replaceFields ["server", "port", "security", "auth", "username", "from"]
     (b.get "smtp").toObject smtp).set "password_set"
       (.bool ((smtp.get "password_set").toBool || newPassword b ≠ ""))))]

/-- The folder of the scripts is not among what is set, -/
theorem getValue_scripts_putPrefs (st : State L) (q : Request) (t : Moment) :
    (Api.putPrefs q t st).1.getValue "paths/scripts" = st.getValue "paths/scripts" := by
  by_cases h : CsrfVerified st t.now q
  · rw [getValue_putPrefs h, ValueStore.written_of_not_mem (by decide), Option.getD_none]
  · rw [State.getValue, conf_putPrefs_of_rejected h, State.getValue]

/-- and an empty password keeps the one that is stored. -/
theorem getValue_password_putPrefs {st : State L} {q : Request} {t : Moment}
    (hempty : newPassword (parseBody q) = "") :
    (Api.putPrefs q t st).1.getValue "smtp/password" = st.getValue "smtp/password" := by
  by_cases h : CsrfVerified st t.now q
  · rw [getValue_putPrefs_password h, if_pos hempty]
  · rw [State.getValue, conf_putPrefs_of_rejected h, State.getValue]

/-- A preference that is replaced in the body it is in. -/
theorem shown_putPrefs {st : State L} {q : Request} {t : Moment} (h : CsrfVerified st t.now q)
    (htyped : WellTyped (parseBody q)) {p : Pref} (hp : p ∈ prefs) :
    p.shown (Api.putPrefs q t st).1 =
      if p.In (parseBody q) then p.value (parseBody q) else p.shown st := by
  rw [Pref.shown, getValue_putPrefs_pref h hp]
  split
  · next hin => exact PrefType.shown_stored (htyped p hp hin)
  · rfl

/-- A group of preferences. -/
theorem replaceFields_map {g : String} {ps : List Pref} (hgroup : ∀ p ∈ ps, p.group = some g)
    {b : Json.Fields} {st st' : State L}
    (h : ∀ p ∈ ps, p.shown st' = if p.In b then p.value b else p.shown st) :
    replaceFields (ps.map Pref.field) (b.get g).toObject (ps.map fun p => (p.field, p.shown st)) =
      ps.map fun p => (p.field, p.shown st') := by
  rw [replaceFields, List.map_map]
  refine List.map_congr_left fun p hp => ?_
  have hobject : p.object b = (b.get g).toObject := by
    rw [Pref.object, hgroup p hp]
  have hin : p.In b ↔ (b.get g).toObject.contains p.field = true := by
    rw [Pref.In, hobject]
  rw [h p hp, Pref.value, hobject, Function.comp_apply]
  simp only [List.mem_map_of_mem hp, true_and]
  exact congrArg (Prod.mk p.field) (if_congr hin.symm rfl rfl)

theorem replaceFields_append (settable : List String) (given old old' : Json.Fields) :
    replaceFields settable given (old ++ old') =
      replaceFields settable given old ++ replaceFields settable given old' :=
  List.map_append

/-- A field that cannot be set stays. -/
theorem replaceFields_of_not_mem {settable : List String} {k : String} (h : k ∉ settable)
    (given : Json.Fields) (v : Json) : replaceFields settable given [(k, v)] = [(k, v)] := by
  rw [replaceFields, List.map_cons, List.map_nil, if_neg fun hset => h hset.1]

/-- A password that is not empty is stored as text that is not empty. -/
theorem encodePassword_ne {pw : String} (h : pw ≠ "") : Api.encodePassword pw ≠ "" := by
  intro hempty
  refine h (toUtf8_inj.mp ?_)
  rw [← fromBase64_toBase64 (toUtf8 pw), ← Api.encodePassword, hempty]
  rfl

/-- Whether a password is set afterwards. -/
theorem passwordSet_putPrefs {st : State L} {q : Request} {t : Moment}
    (h : CsrfVerified st t.now q) :
    (!((Api.putPrefs q t st).1.getValue "smtp/password").toString.isEmpty) =
      (!(st.getValue "smtp/password").toString.isEmpty || decide (newPassword (parseBody q) ≠ "")) := by
  rw [getValue_putPrefs_password h]
  by_cases hempty : newPassword (parseBody q) = ""
  · rw [if_pos hempty, decide_eq_false (not_not.mpr hempty), Bool.or_false]
  · have hne := mt String.isEmpty_iff.mp (encodePassword_ne hempty)
    rw [if_neg hempty, decide_eq_true hempty, Bool.or_true, QVariant.toString_str,
      Bool.not_eq_true _ |>.mp hne]
    rfl

/-- **The fields that a body has are replaced** in what is shown. -/
theorem prefsShown_putPrefs {st : State L} {q : Request} {t : Moment} (h : CsrfVerified st t.now q)
    (htyped : WellTyped (parseBody q)) :
    prefsShown (Api.putPrefs q t st).1 = updatedPrefs (parseBody q) (prefsShown st) := by
  obtain ⟨hdebug, hrest⟩ := List.forall_mem_cons.mp fun p hp =>
    shown_putPrefs h htyped (p := p) hp
  obtain ⟨hpaths, hsmtp⟩ := List.forall_mem_append.mp hrest
  have hpathsGroup : replaceFields ["backupjobs", "pbservers", "logs"]
      ((parseBody q).get "paths").toObject ((prefsShown st).get "paths").toObject =
        pathPrefs.map (fun p => (p.field, p.shown (Api.putPrefs q t st).1)) ++
          [("scripts", .str (st.getValue "paths/scripts").toString)] := by
    refine (replaceFields_append _ _ (pathPrefs.map fun p => (p.field, p.shown st)) _).trans ?_
    rw [replaceFields_of_not_mem (by decide)]
    exact congrArg (· ++ _) (replaceFields_map (g := "paths") (by decide) hpaths)
  have hsmtpGroup : replaceFields ["server", "port", "security", "auth", "username", "from"]
      ((parseBody q).get "smtp").toObject ((prefsShown st).get "smtp").toObject =
        smtpPrefs.map (fun p => (p.field, p.shown (Api.putPrefs q t st).1)) ++
          [("password_set", .bool (!(st.getValue "smtp/password").toString.isEmpty))] := by
    refine (replaceFields_append _ _ (smtpPrefs.map fun p => (p.field, p.shown st)) _).trans ?_
    rw [replaceFields_of_not_mem (by decide)]
    exact congrArg (· ++ _) (replaceFields_map (g := "smtp") (by decide) hsmtp)
  rw [updatedPrefs]
  rw [hpathsGroup, hsmtpGroup, prefsShown, hdebug, getValue_scripts_putPrefs,
    passwordSet_putPrefs h]
  rfl

/-- **What is shown can be put back**, and nothing changes. -/
theorem prefsShown_putPrefs_self {st : State L} {q : Request} {t : Moment}
    (h : CsrfVerified st t.now q) (hbody : parseBody q = prefsShown st) :
    prefsShown (Api.putPrefs q t st).1 = prefsShown st := by
  refine prefsShown_congr ?_ (getValue_scripts_putPrefs st q t) ?_
  · intro p hp
    have htyped : WellTyped (parseBody q) := by
      intro p hp _
      rw [hbody, value_prefsShown st p hp]
      exact PrefType.typed_shown p.type _
    rw [shown_putPrefs h htyped hp, hbody, value_prefsShown st p hp, ite_self]
  · refine getValue_password_putPrefs ?_
    rw [hbody]
    rfl

/-! ### Two bodies -/

/-- Two requests, one after the other. -/
def putTwice (q r : Request) (t u : Moment) (st : State L) : State L :=
  (Api.putPrefs r u (Api.putPrefs q t st).1).1

/-- They are both accepted. -/
def BothVerified (q r : Request) (t u : Moment) (st : State L) : Prop :=
  CsrfVerified st t.now q ∧ CsrfVerified (Api.putPrefs q t st).1 u.now r

theorem disjointOn_of_noCommonField {b c : Json.Fields} (h : NoCommonField b c) :
    ValueStore.DisjointOn prefTable b c := by
  intro f hf
  rcases List.mem_append.mp hf with hpref | hpassword
  · obtain ⟨p, hp, rfl⟩ := List.mem_map.mp hpref
    by_cases hb : p.In b
    · exact .inr (if_neg fun hc => h.1 p hp ⟨hb, hc⟩)
    · exact .inl (if_neg hb)
  · obtain rfl := List.mem_singleton.mp hpassword
    exact h.2.imp (fun hb => if_pos hb) fun hc => if_pos hc

/-- **Two bodies without a common field** can be put in either order. -/
theorem getValue_putTwice_comm {st : State L} {q r : Request} {t u t' u' : Moment}
    (hqr : BothVerified q r t u st) (hrq : BothVerified r q t' u' st)
    (hnone : NoCommonField (parseBody q) (parseBody r)) (k : String) :
    (putTwice q r t u st).getValue k = (putTwice r q t' u' st).getValue k := by
  rw [putTwice, putTwice, State.getValue, State.getValue, conf_putPrefs hqr.2,
    conf_putPrefs hqr.1, conf_putPrefs hrq.2, conf_putPrefs hrq.1]
  exact ((confStore L).get_update_comm nodup_prefTable (disjointOn_of_noCommonField hnone)
    st.conf k).symm

theorem debugLogging_putTwice_comm {st : State L} {q r : Request} {t u t' u' : Moment}
    (hqr : BothVerified q r t u st) (hrq : BothVerified r q t' u' st)
    (hnone : NoCommonField (parseBody q) (parseBody r)) :
    (putTwice q r t u st).debugLogging = (putTwice r q t' u' st).debugLogging := by
  rw [putTwice, putTwice, debugLogging_putPrefs hqr.2, debugLogging_putPrefs hqr.1,
    debugLogging_putPrefs hrq.2, debugLogging_putPrefs hrq.1]
  by_cases hq : debugPref.In (parseBody q)
  · have hr : ¬ debugPref.In (parseBody r) := fun hr => hnone.1 _ List.mem_cons_self ⟨hq, hr⟩
    rw [if_neg hr, if_pos hq, if_pos hq]
  · rw [if_neg hq, if_neg hq]

/-! ### The laws -/

/-- The laws of the preferences. -/
structure PrefsLens (L : Library) : Prop where
  /-- GET /api/prefs answers what is shown. -/
  get : ∀ (st : State L) (q : Request) (t : Moment) (s : Session), LiveSession st t.now q s →
    (Api.getPrefs q t st).2 = .now (jsonResp (.obj (prefsShown st)))
  /-- The fields of a body are replaced in it. -/
  replaced : ∀ (st : State L) (q : Request) (t : Moment), CsrfVerified st t.now q →
    WellTyped (parseBody q) →
      prefsShown (Api.putPrefs q t st).1 = updatedPrefs (parseBody q) (prefsShown st)
  /-- No body changes the folder of the scripts, and only a new password the old one. -/
  kept : ∀ (st : State L) (q : Request) (t : Moment),
    (Api.putPrefs q t st).1.getValue "paths/scripts" = st.getValue "paths/scripts" ∧
      (newPassword (parseBody q) = "" →
        (Api.putPrefs q t st).1.getValue "smtp/password" = st.getValue "smtp/password")
  /-- What was shown can be put back. -/
  same : ∀ (st : State L) (q : Request) (t : Moment), CsrfVerified st t.now q →
    parseBody q = prefsShown st → prefsShown (Api.putPrefs q t st).1 = prefsShown st
  /-- Bodies without a common field can be put in either order. -/
  commute : ∀ (st : State L) (q r : Request) (t u t' u' : Moment), BothVerified q r t u st →
    BothVerified r q t' u' st → NoCommonField (parseBody q) (parseBody r) →
      (∀ k, (putTwice q r t u st).getValue k = (putTwice r q t' u' st).getValue k) ∧
        (putTwice q r t u st).debugLogging = (putTwice r q t' u' st).debugLogging ∧
          prefsShown (putTwice q r t u st) = prefsShown (putTwice r q t' u' st)

/-- **The preferences are a lens.** -/
theorem prefs_lens (L : Library) : PrefsLens L where
  get _ _ _ _ h := congrArg Prod.snd (getPrefs_of_live h)
  replaced _ _ _ h htyped := prefsShown_putPrefs h htyped
  kept st q t := ⟨getValue_scripts_putPrefs st q t, getValue_password_putPrefs⟩
  same _ _ _ h hbody := prefsShown_putPrefs_self h hbody
  commute st q r t u t' u' hqr hrq hnone := by
    have hall := getValue_putTwice_comm hqr hrq hnone
    refine ⟨hall, debugLogging_putTwice_comm hqr hrq hnone, ?_⟩
    refine prefsShown_congr ?_ (hall _) (hall _)
    intro p _
    rw [Pref.shown, Pref.shown, hall]

/-- A body with a field of every group, and the folder of the scripts. -/
def somePrefs : Json.Fields :=
  [("debug", .bool true),
   ("paths", .obj [("logs", .str "/var/log/tibackup"), ("scripts", .str "/tmp")]),
   ("smtp", .obj [("port", .int 587), ("password", .str "secret")])]

theorem wellTyped_somePrefs : WellTyped somePrefs := by
  simp only [WellTyped, prefs, pathPrefs, smtpPrefs, List.cons_append, List.nil_append,
    List.forall_mem_cons]
  refine ⟨fun _ => ⟨true, rfl⟩, ?_, ?_, fun _ => ⟨_, rfl⟩, ?_, fun _ => ⟨587, rfl⟩, ?_, ?_, ?_, ?_,
    List.forall_mem_nil _⟩
  all_goals exact fun hin => absurd hin (by decide)

/-- It replaces three fields, and a password is set. -/
theorem prefs_lens_somePrefs : prefsShown (Api.putPrefs (Reference.request (.obj somePrefs))
      (Reference.moment "") Reference.initial).1 =
    [("debug", .bool true),
     ("paths", .obj [("backupjobs", .str ""), ("pbservers", .str ""),
       ("logs", .str "/var/log/tibackup"), ("scripts", .str "")]),
     ("smtp", .obj [("server", .str ""), ("port", .int 587), ("security", .str ""),
       ("auth", .bool false), ("username", .str ""), ("from", .str ""),
       ("password_set", .bool true)])] :=
  ((prefs_lens Reference.library).replaced Reference.initial
    (Reference.request (.obj somePrefs)) (Reference.moment "") (Reference.csrfVerified rfl _)
      wellTyped_somePrefs).trans rfl

end TiBackup
