import TiBackup.Lib.Utf8
import TiBackup.Model.FileHost
import TiBackup.Model.RunLog

/-!
# TiBackup.Files.Scripts

**Saving a script and reading it again.** PUT /api/scripts empties the file when it opens
it, and looks at nothing that happens afterwards. It answers truthfully, and leaves the
old script alone when it fails, unless the file was opened and less than the whole text
was stored in it (`putScript_truthful_iff`).

GET /api/scripts reads the file as text: line ends `\r\n` become `\n`, and a byte-order
mark at the beginning is dropped. A text is read as it was saved, and a file is saved as
it was opened, exactly when it has neither (`script_roundTrip_iff`).
-/

namespace TiBackup

open Lib

variable {L : Library}

/-! ### How a file is written -/

/-- What comes of writing a file: it is not opened, or it is, and so many bytes are
stored before the disk is full or closing fails. -/
inductive SaveOutcome
  | openFails
  | opened (stored : Nat)
  deriving Repr, DecidableEq

/-- This is what comes of it on the machine. -/
def SaveOutcome.Of (sys : HostSystem) (h : sys.Host) (target : String) (content : Bytes) :
    SaveOutcome → Prop
  | .openFails => (sys.openForWriting h target).2 = false ∧
      sys.readFile (sys.openForWriting h target).1 target = sys.readFile h target
  | .opened stored => (sys.openForWriting h target).2 = true ∧
      sys.readFile (sys.writeAndClose (sys.openForWriting h target).1 target content) target =
        some (content.take stored)

/-- The file a request is about. -/
def scriptTarget (st : State L) (req : Request) : String :=
  Api.confineToScripts st ((parseBody req).get "path").toString

/-- What it is to hold. -/
def scriptBytes (req : Request) : Bytes := toUtf8 ((parseBody req).get "content").toString

/-- The request gets as far as to write the file. -/
def WritesScript (st : State L) (q : Request) (t : Moment) : Prop :=
  CsrfVerified st t.now q ∧ scriptTarget st q ≠ "" ∧
    (L.system.openForWriting st.host (scriptTarget st q)).2 = true

theorem putScript_of_verified {st : State L} {q : Request} {t : Moment}
    (h : CsrfVerified st t.now q) :
    Api.putScript q t st =
      let r := Api.saveScriptConfined ((parseBody q).get "path").toString
        ((parseBody q).get "content").toString (st.validated t.now q)
      if r.2 then (r.1, .now okResp)
      else (r.1,
        .now (errResp "path must be under the configured scripts directory" .forbidden)) := by
  rw [Api.putScript, Api.withCsrf_of_verified h]
  dsimp only
  cases (Api.saveScriptConfined ((parseBody q).get "path").toString
    ((parseBody q).get "content").toString (st.validated t.now q)).2 <;> rfl

theorem now_errResp_ne_okResp (e : String) {status : StatusCode} (h : status ≠ .ok) :
    Reply.now (errResp e status) ≠ .now okResp := by
  intro heq
  exact h (congrArg Response.status (Reply.now.inj heq))

/-- A request that does is answered with `ok`, whatever becomes of the writing, -/
theorem putScript_of_writes {st : State L} {q : Request} {t : Moment} (h : WritesScript st q t) :
    Api.putScript q t st = ({ st.validated t.now q with
      host := L.system.writeAndClose (L.system.openForWriting st.host (scriptTarget st q)).1
        (scriptTarget st q) (scriptBytes q) }, .now okResp) := by
  obtain ⟨hverified, hne, hopens⟩ := h
  have htarget : Api.confineToScripts (st.validated t.now q) ((parseBody q).get "path").toString =
      scriptTarget st q := rfl
  have hhost : (st.validated t.now q).host = st.host := rfl
  have hnonempty : ¬ (scriptTarget st q).isEmpty = true := by rwa [String.isEmpty_iff]
  rw [putScript_of_verified hverified]
  simp only [Api.saveScriptConfined, htarget, hhost, if_neg hnonempty, hopens, Bool.not_true,
    Bool.false_eq_true, if_false]
  rfl

/-- and every other one with an error, when opening the file has failed at most. -/
theorem putScript_of_not_writes {st : State L} {q : Request} {t : Moment}
    (h : ¬ WritesScript st q t) : (Api.putScript q t st).2 ≠ .now okResp ∧
      ((Api.putScript q t st).1.host = st.host ∨
        (L.system.openForWriting st.host (scriptTarget st q)).2 = false ∧
          (Api.putScript q t st).1.host =
            (L.system.openForWriting st.host (scriptTarget st q)).1) := by
  have htarget : Api.confineToScripts (st.validated t.now q) ((parseBody q).get "path").toString =
      scriptTarget st q := rfl
  by_cases hverified : CsrfVerified st t.now q
  · rw [putScript_of_verified hverified, Api.saveScriptConfined, htarget]
    by_cases hempty : scriptTarget st q = ""
    · rw [hempty]
      exact ⟨now_errResp_ne_okResp _ (by decide), .inl rfl⟩
    · have hnonempty : ¬ (scriptTarget st q).isEmpty = true := by rwa [String.isEmpty_iff]
      have hfails : (L.system.openForWriting st.host (scriptTarget st q)).2 = false :=
        eq_false_of_ne_true fun hopens => h ⟨hverified, hempty, hopens⟩
      have hfails' : (L.system.openForWriting (st.validated t.now q).host
        (scriptTarget st q)).2 = false := hfails
      simp only [if_neg hnonempty, hfails', Bool.not_false, if_true]
      exact ⟨now_errResp_ne_okResp _ (by decide), .inr ⟨hfails, rfl⟩⟩
  · obtain ⟨e, he, hput⟩ := Api.withCsrf_of_not_verified hverified .now _
    have hrejected : Api.putScript q t st = (st.validated t.now q, .now e) := hput
    rw [hrejected]
    refine ⟨?_, .inl rfl⟩
    rcases he with rfl | rfl
    · exact now_errResp_ne_okResp _ (by decide)
    · exact now_errResp_ne_okResp _ (by decide)

/-! ### Truthful answers -/

/-- The answer says what became of the file: it holds the whole new text, or what it held
before. -/
structure SaveTruthful (st : State L) (q : Request) (t : Moment) : Prop where
  saved : (Api.putScript q t st).2 = .now okResp →
    L.system.readFile (Api.putScript q t st).1.host (scriptTarget st q) = some (scriptBytes q)
  failed : (Api.putScript q t st).2 ≠ .now okResp →
    L.system.readFile (Api.putScript q t st).1.host (scriptTarget st q) =
      L.system.readFile st.host (scriptTarget st q)

/-- The request gets as far as to write the file, and only a part of the text is stored. -/
def PartlyStored (st : State L) (q : Request) (t : Moment) (o : SaveOutcome) : Prop :=
  CsrfVerified st t.now q ∧ scriptTarget st q ≠ "" ∧
    ∃ stored < (scriptBytes q).length, o = .opened stored

/-- **Saving a script is reported truthfully**, and keeps the old one when it fails, unless
only a part of the text is stored. -/
theorem putScript_truthful_iff {st : State L} {q : Request} {t : Moment} {o : SaveOutcome}
    (ho : o.Of L.system st.host (scriptTarget st q) (scriptBytes q)) :
    SaveTruthful st q t ↔ ¬ PartlyStored st q t o := by
  by_cases hwrites : WritesScript st q t
  · have hput := putScript_of_writes hwrites
    obtain ⟨hverified, hne, hopens⟩ := hwrites
    cases o with
    | openFails => exact absurd (ho.1.symm.trans hopens) Bool.false_ne_true
    | opened stored =>
      have hfile : L.system.readFile (Api.putScript q t st).1.host (scriptTarget st q) =
          some ((scriptBytes q).take stored) := by
        rw [hput]
        exact ho.2
      constructor
      · rintro htruthful ⟨-, -, n, hn, hopened⟩
        obtain rfl := SaveOutcome.opened.inj hopened
        have hsaved := htruthful.saved (by rw [hput])
        have hlength := congrArg List.length (Option.some.inj (hfile.symm.trans hsaved))
        rw [List.length_take] at hlength
        omega
      · intro hpart
        have hall : (scriptBytes q).length ≤ stored := by
          by_contra hlt
          exact hpart ⟨hverified, hne, stored, not_le.mp hlt, rfl⟩
        refine ⟨fun _ => by rw [hfile, List.take_of_length_le hall], ?_⟩
        intro herror
        exact absurd (by rw [hput]) herror
  · obtain ⟨herror, hhost⟩ := putScript_of_not_writes hwrites
    refine iff_of_true ⟨fun hok => absurd hok herror, fun _ => ?_⟩ ?_
    · rcases hhost with hhost | ⟨hfails, hhost⟩
      · rw [hhost]
      · rw [hhost]
        cases o with
        | openFails => exact ho.2
        | opened stored => exact absurd (hfails.symm.trans ho.1) Bool.false_ne_true
    · rintro ⟨hverified, hne, stored, -, rfl⟩
      exact hwrites ⟨hverified, hne, ho.1⟩

/-! ### Reading text -/

/-- Reading as text on characters: `\r\n` becomes `\n`. -/
def unixBreaks : List Char → List Char
  | '\r' :: '\n' :: rest => '\n' :: unixBreaks rest
  | c :: rest => c :: unixBreaks rest
  | [] => []

/-- Neither a line end `\r\n` nor a byte-order mark at the beginning. -/
def KeepsText (s : String) : Prop :=
  ¬ ['\r', '\n'] <:+: s.toList ∧ s.toList.head? ≠ some (Char.ofNat 0xfeff)

theorem length_unixBreaks_le (cs : List Char) : (unixBreaks cs).length ≤ cs.length := by
  induction cs using unixBreaks.induct with
  | case1 rest ih =>
    rw [unixBreaks, List.length_cons, List.length_cons, List.length_cons]
    omega
  | case2 c rest hc ih =>
    rw [unixBreaks, List.length_cons, List.length_cons]
    · omega
    · exact hc
  | case3 => exact le_rfl

/-- A text that does not get shorter stays as it is. -/
theorem unixBreaks_eq_self {cs : List Char} (h : cs.length ≤ (unixBreaks cs).length) :
    unixBreaks cs = cs := by
  induction cs using unixBreaks.induct with
  | case1 rest ih =>
    have hle := length_unixBreaks_le rest
    rw [unixBreaks, List.length_cons, List.length_cons, List.length_cons] at h
    omega
  | case2 c rest hc ih =>
    rw [unixBreaks.eq_2 c rest hc] at h ⊢
    rw [ih (Nat.le_of_succ_le_succ h)]
  | case3 => rfl

theorem unixBreaks_eq_self_iff {cs : List Char} :
    unixBreaks cs = cs ↔ ¬ ['\r', '\n'] <:+: cs := by
  induction cs using unixBreaks.induct with
  | case1 rest ih =>
    refine iff_of_false ?_ fun hnone => hnone ⟨[], rest, rfl⟩
    intro heq
    have hlength := congrArg List.length heq
    have hle := length_unixBreaks_le rest
    rw [unixBreaks, List.length_cons, List.length_cons, List.length_cons] at hlength
    omega
  | case2 c rest hc ih =>
    have hstep : unixBreaks (c :: rest) = c :: unixBreaks rest := unixBreaks.eq_2 c rest hc
    have hhere : ¬ ['\r', '\n'] <+: c :: rest := by
      rintro ⟨more, hmore⟩
      obtain ⟨rfl, hrest⟩ := List.cons.inj hmore
      exact hc more rfl hrest.symm
    rw [hstep, List.cons_inj_right, ih, List.infix_cons_iff, or_iff_right hhere]
  | case3 => exact iff_of_true rfl (by simp)

theorem textMode_append {xs : Bytes} (h : 13 ∉ xs) (ys : Bytes) :
    Api.textMode (xs ++ ys) = xs ++ Api.textMode ys := by
  induction xs with
  | nil => rfl
  | cons x xs ih =>
    have hx : x ≠ 13 := fun heq => h (by simp [heq])
    rw [List.cons_append, List.cons_append, ← ih fun hmem => h (List.mem_cons_of_mem x hmem)]
    exact Api.textMode.eq_2 x _ fun _ heq _ => hx heq

/-- Reading text that was encoded. -/
theorem textMode_toUtf8 (s : String) :
    Api.textMode (toUtf8 s) = toUtf8 (String.ofList (unixBreaks s.toList)) := by
  have hbreak := count_newline_utf8EncodeChar
  have hreturn := count_utf8EncodeChar (d := '\r') (b := 13) (by decide)
  rw [toUtf8, toUtf8, String.toList_ofList]
  induction s.toList using unixBreaks.induct with
  | case1 rest ih =>
    rw [unixBreaks, List.flatMap_cons, List.flatMap_cons, List.flatMap_cons, ← ih]
    rfl
  | case2 c rest hc ih =>
    rw [unixBreaks.eq_2 c rest hc, List.flatMap_cons, List.flatMap_cons, ← ih]
    by_cases hcr : c = '\r'
    · subst hcr
      refine Api.textMode.eq_2 13 _ ?_
      intro more _ hmore
      cases rest with
      | nil => cases hmore
      | cons d rest =>
        rw [List.flatMap_cons] at hmore
        have hne : d ≠ '\n' := fun hd => hc rest rfl (by rw [hd])
        have hnone := hbreak d
        rw [if_neg hne, List.count_eq_zero] at hnone
        cases hencode : String.utf8EncodeChar d with
        | nil => exact String.utf8EncodeChar_ne_nil hencode
        | cons b bs =>
          rw [hencode, List.cons_append] at hmore
          refine hnone ?_
          rw [hencode, (List.cons.inj hmore).1]
          exact List.mem_cons_self
    · have hnone := hreturn c
      rw [if_neg hcr, List.count_eq_zero] at hnone
      exact textMode_append hnone _
  | case3 => rfl

/-- What is read of an encoded text. -/
theorem toList_readText_toUtf8 (s : String) :
    (readText (toUtf8 s)).toList = dropMark (unixBreaks s.toList) := by
  rw [readText, textMode_toUtf8, toList_fromUtf8_toUtf8, String.toList_ofList]

theorem readText_toUtf8_iff {s : String} : readText (toUtf8 s) = s ↔ KeepsText s := by
  rw [← String.toList_inj, toList_readText_toUtf8, KeepsText]
  constructor
  · intro heq
    have hlength := congrArg List.length heq
    have hmark := length_dropMark_le (unixBreaks s.toList)
    have hbreaks := unixBreaks_eq_self_iff.mp (unixBreaks_eq_self (hlength.symm.le.trans hmark))
    rw [unixBreaks_eq_self_iff.mpr hbreaks, dropMark_eq_self_iff] at heq
    exact ⟨hbreaks, heq⟩
  · rintro ⟨hbreaks, hmark⟩
    rw [unixBreaks_eq_self_iff.mpr hbreaks, dropMark_eq_self_iff.mpr hmark]

/-! ### The two requests -/

theorem getScript_of_live {st : State L} {q : Request} {t : Moment} {s : Session}
    (hlive : LiveSession st t.now q s) {target : String}
    (htarget : Api.confineToScripts st (queryItemValue q "path") = target) (hne : target ≠ "")
    {file : Bytes} (hfile : L.system.readFile st.host target = some file) :
    Api.getScript q t st = (st.validated t.now q, .now (jsonResp (.obj
      [("path", .str target), ("content", .str (readText file))]))) := by
  have htarget' : Api.confineToScripts (st.validated t.now q) (queryItemValue q "path") = target :=
    htarget
  have hfile' : L.system.readFile (st.validated t.now q).host target = some file := hfile
  have hnonempty : ¬ target.isEmpty = true := by rwa [String.isEmpty_iff]
  rw [Api.getScript, Api.withAuth_of_live hlive, Api.reads]
  simp only [htarget', hfile', if_neg hnonempty]
  rfl

/-- A request that was answered with `ok` has written the file. -/
theorem putScript_of_ok {st : State L} {q : Request} {t : Moment}
    (h : (Api.putScript q t st).2 = .now okResp) : WritesScript st q t := by
  by_contra hwrites
  exact (putScript_of_not_writes hwrites).1 h

/-- What is relied on of files that are written without an error: they hold what was
written, and a path that led to one still does. -/
structure ScriptLaws (sys : HostSystem) : Prop where
  read : ∀ h target content, (sys.openForWriting h target).2 = true →
    sys.readFile (sys.writeAndClose (sys.openForWriting h target).1 target content) target =
      some content
  confine : ∀ h dir path content, sys.confineToScriptsDir h dir path ≠ "" →
    (sys.openForWriting h (sys.confineToScriptsDir h dir path)).2 = true →
      sys.confineToScriptsDir (sys.writeAndClose
        (sys.openForWriting h (sys.confineToScriptsDir h dir path)).1
        (sys.confineToScriptsDir h dir path) content) dir path = sys.confineToScriptsDir h dir path

/-- A script is saved, and read right afterwards. -/
structure SavedScript (L : Library) where
  st : State L
  put : Request
  savedAt : Moment
  get : Request
  readAt : Moment
  saved : (Api.putScript put savedAt st).2 = .now okResp
  live : ∃ s, LiveSession (Api.putScript put savedAt st).1 readAt.now get s
  samePath : queryItemValue get "path" = ((parseBody put).get "path").toString

/-- What was saved. -/
def SavedScript.content (x : SavedScript L) : String := ((parseBody x.put).get "content").toString

/-- The script as it is answered. -/
def SavedScript.answer (x : SavedScript L) : Reply :=
  (Api.getScript x.get x.readAt (Api.putScript x.put x.savedAt x.st).1).2

theorem SavedScript.answer_eq (laws : ScriptLaws L.system) (x : SavedScript L) :
    x.answer = .now (jsonResp (.obj [("path", .str (scriptTarget x.st x.put)),
      ("content", .str (readText (toUtf8 x.content)))])) := by
  have hput := putScript_of_writes (putScript_of_ok x.saved)
  obtain ⟨-, hne, hopens⟩ := putScript_of_ok x.saved
  obtain ⟨s, hlive⟩ := x.live
  refine congrArg Prod.snd (getScript_of_live hlive ?_ hne ?_)
  · rw [x.samePath, hput]
    exact laws.confine _ _ _ _ hne hopens
  · rw [hput]
    exact laws.read _ _ _ hopens

/-- What the editor shows of an answer. -/
def scriptContent : Reply → String
  | .now r => (r.body.toObject.get "content").toString
  | .later _ => ""

/-- A script is opened in the editor, and saved as it is shown. -/
structure OpenedScript (L : Library) where
  st : State L
  get : Request
  readAt : Moment
  put : Request
  savedAt : Moment
  /-- The text in the file. -/
  text : String
  live : ∃ s, LiveSession st readAt.now get s
  confined : Api.confineToScripts st (queryItemValue get "path") ≠ ""
  file : L.system.readFile st.host (Api.confineToScripts st (queryItemValue get "path")) =
    some (toUtf8 text)
  samePath : ((parseBody put).get "path").toString = queryItemValue get "path"
  unchanged : ((parseBody put).get "content").toString = scriptContent (Api.getScript get readAt st).2
  saved : (Api.putScript put savedAt (Api.getScript get readAt st).1).2 = .now okResp

/-- The file afterwards. -/
def OpenedScript.fileAfter (x : OpenedScript L) : Option Bytes :=
  L.system.readFile (Api.putScript x.put x.savedAt (Api.getScript x.get x.readAt x.st).1).1.host
    (Api.confineToScripts x.st (queryItemValue x.get "path"))

theorem OpenedScript.fileAfter_eq (laws : ScriptLaws L.system) (x : OpenedScript L) :
    x.fileAfter = some (toUtf8 (readText (toUtf8 x.text))) := by
  obtain ⟨s, hlive⟩ := x.live
  have hget := getScript_of_live hlive rfl x.confined x.file
  have hput := putScript_of_writes (putScript_of_ok x.saved)
  obtain ⟨-, -, hopens⟩ := putScript_of_ok x.saved
  have hbytes : scriptBytes x.put = toUtf8 (readText (toUtf8 x.text)) := by
    rw [scriptBytes, x.unchanged, hget]
    simp [scriptContent, jsonResp, Json.Fields.get, List.lookup_cons]
  have htarget : scriptTarget (Api.getScript x.get x.readAt x.st).1 x.put =
      Api.confineToScripts x.st (queryItemValue x.get "path") := by
    rw [scriptTarget, x.samePath, hget]
    rfl
  rw [OpenedScript.fileAfter, hput, ← htarget, ← hbytes]
  exact laws.read _ _ _ hopens

theorem content_of_reply {path content content' : String}
    (h : Reply.now (jsonResp (.obj [("path", .str path), ("content", .str content)])) =
      .now (jsonResp (.obj [("path", .str path), ("content", .str content')]))) :
    content = content' := by
  have hbody := Json.obj.inj (congrArg Response.body (Reply.now.inj h))
  exact Json.str.inj (congrArg Prod.snd (List.cons.inj (List.cons.inj hbody).2).1)

/-- **Scripts are kept on the way through the editor**, as they are saved and as they are
opened, exactly when the text has neither a line end `\r\n` nor a mark at the beginning. -/
theorem script_roundTrip_iff (laws : ScriptLaws L.system) :
    (∀ x : SavedScript L, x.answer = .now (jsonResp (.obj
        [("path", .str (scriptTarget x.st x.put)), ("content", .str x.content)])) ↔
      KeepsText x.content) ∧
    ∀ x : OpenedScript L, x.fileAfter = some (toUtf8 x.text) ↔ KeepsText x.text := by
  constructor
  · intro x
    rw [x.answer_eq laws, ← readText_toUtf8_iff]
    exact ⟨content_of_reply, fun heq => by rw [heq]⟩
  · intro x
    rw [x.fileAfter_eq laws, Option.some.injEq, toUtf8_inj, readText_toUtf8_iff]

/-! ### A machine with one script -/

/-- The only file is a script. -/
def oneScript (content : Bytes) : FileSystem Bytes where
  entries := [(["scripts".toList], .folder), (["scripts".toList, "a.sh".toList], .file content)]
  current := []
  current_folder := rfl
  in_folder := by
    intro e he
    rcases List.mem_cons.mp he with rfl | he
    · exact ⟨rfl, by decide⟩
    · obtain rfl := List.mem_singleton.mp he
      have hname : Path.PlainName "a.sh".toList := by decide
      exact ⟨rfl, hname⟩

/-- It can be written, and then holds what `stored` leaves of the text. -/
def scriptHost (stored : Bytes → Bytes) : HostSystem :=
  { fileHost with
    openForWriting := fun fs path =>
      if path = "/scripts/a.sh" then (oneScript [], true) else (fs, false)
    writeAndClose := fun fs path content =>
      if path = "/scripts/a.sh" then oneScript (stored content) else fs
    confineToScriptsDir := fun _ _ path => if path = "/scripts/a.sh" then path else "" }

theorem readFile_oneScript (content : Bytes) :
    fileHost.readFile (oneScript content) "/scripts/a.sh" = some content := rfl

theorem scriptLaws_scriptHost : ScriptLaws (scriptHost id) where
  read h target content hopens := by
    by_cases htarget : target = "/scripts/a.sh"
    · subst htarget
      exact readFile_oneScript content
    · have hfails : (scriptHost id).openForWriting h target = (h, false) := if_neg htarget
      rw [hfails] at hopens
      cases hopens
  confine _ _ _ _ _ _ := rfl

def scriptState (stored : Bytes → Bytes) (content : Bytes) :
    State (Reference.libraryOn (scriptHost stored) fun _ => "") :=
  Reference.stateOn (scriptHost stored) (fun _ => "") ∅ (oneScript content)

/-- A request to save it. -/
def saveRequest (content : String) : Request :=
  Reference.request (.obj [("path", .str "/scripts/a.sh"), ("content", .str content)])

/-- A request to read it. -/
def readRequest : Request :=
  { Reference.request .null with query := [("path", "/scripts/a.sh")] }

theorem csrfVerified_saveRequest (stored : Bytes → Bytes) (old : Bytes) (content : String) :
    CsrfVerified (scriptState stored old) (Reference.moment "").now (saveRequest content) :=
  Reference.csrfVerified rfl _

/-- Saving there. -/
theorem putScript_scriptState (stored : Bytes → Bytes) (old : Bytes) (content : String) :
    (Api.putScript (saveRequest content) (Reference.moment "") (scriptState stored old)).2 =
        .now okResp ∧
      (scriptHost stored).readFile (Api.putScript (saveRequest content) (Reference.moment "")
        (scriptState stored old)).1.host "/scripts/a.sh" = some (stored (toUtf8 content)) := by
  rw [putScript_of_verified (csrfVerified_saveRequest stored old content)]
  exact ⟨rfl, rfl⟩

/-- The condition where all of the text is stored. -/
theorem putScript_truthful_whole : SaveTruthful (scriptState id (toUtf8 "exit 0\n"))
    (saveRequest "exit 1\n") (Reference.moment "") := by
  refine (putScript_truthful_iff (o := .opened 7) ⟨rfl, rfl⟩).mpr ?_
  rintro ⟨-, -, stored, hlt, hopened⟩
  obtain rfl := SaveOutcome.opened.inj hopened
  exact absurd hlt (by decide)

/-- **A full disk** leaves four bytes of the new script and nothing of the old one, and is
reported as success. -/
theorem putScript_fullDisk :
    (Api.putScript (saveRequest "exit 1\n") (Reference.moment "")
        (scriptState (List.take 4) (toUtf8 "exit 0\n"))).2 = .now okResp ∧
      (scriptHost (List.take 4)).readFile (Api.putScript (saveRequest "exit 1\n")
        (Reference.moment "") (scriptState (List.take 4) (toUtf8 "exit 0\n"))).1.host
          "/scripts/a.sh" = some (toUtf8 "exit") ∧
      ¬ ∀ (L : Library) (st : State L) (q : Request) (t : Moment) (o : SaveOutcome),
        o.Of L.system st.host (scriptTarget st q) (scriptBytes q) → SaveTruthful st q t := by
  obtain ⟨hok, hfile⟩ := putScript_scriptState (List.take 4) (toUtf8 "exit 0\n") "exit 1\n"
  refine ⟨hok, hfile.trans (by decide), ?_⟩
  intro hall
  have hsaved := (hall _ (scriptState (List.take 4) (toUtf8 "exit 0\n")) (saveRequest "exit 1\n")
    (Reference.moment "") (.opened 4) ⟨rfl, rfl⟩).saved hok
  exact absurd (Option.some.inj (hfile.symm.trans hsaved)) (by decide)

theorem confineToScripts_scriptHost (st : State (Reference.libraryOn (scriptHost id) fun _ => "")) :
    Api.confineToScripts st (queryItemValue readRequest "path") = "/scripts/a.sh" := rfl

/-- Reading there. -/
theorem getScript_scriptState (text : String) :
    Api.getScript readRequest (Reference.moment "") (scriptState id (toUtf8 text)) =
      ((scriptState id (toUtf8 text)).validated (Reference.moment "").now readRequest,
        .now (jsonResp (.obj [("path", .str "/scripts/a.sh"),
          ("content", .str (readText (toUtf8 text)))]))) :=
  getScript_of_live (Reference.liveSession rfl rfl) (confineToScripts_scriptHost _) (by decide)
    (readFile_oneScript (toUtf8 text))

/-- A script that is saved there is read, -/
def savedThere (content : String) : SavedScript (Reference.libraryOn (scriptHost id) fun _ => "") where
  st := scriptState id []
  put := saveRequest content
  savedAt := Reference.moment ""
  get := readRequest
  readAt := Reference.moment ""
  saved := (putScript_scriptState id [] content).1
  live := by
    have hagain : CsrfVerified ((scriptState id []).validated (Reference.moment "").now
        (saveRequest content)) (Reference.moment "").now readRequest :=
      (csrfVerified_saveRequest id [] content).again (by decide) rfl rfl
    rw [putScript_of_writes (putScript_of_ok (putScript_scriptState id [] content).1)]
    exact hagain.live
  samePath := rfl

/-- and one that is opened there is saved. -/
def openedThere (text : String) : OpenedScript (Reference.libraryOn (scriptHost id) fun _ => "") where
  st := scriptState id (toUtf8 text)
  get := readRequest
  readAt := Reference.moment ""
  put := saveRequest (readText (toUtf8 text))
  savedAt := Reference.moment ""
  text := text
  live := ⟨_, Reference.liveSession rfl rfl⟩
  confined := by
    rw [confineToScripts_scriptHost]
    decide
  file := by
    rw [confineToScripts_scriptHost]
    exact readFile_oneScript (toUtf8 text)
  samePath := rfl
  unchanged := by
    rw [getScript_scriptState]
    rfl
  saved := by
    have hverified : CsrfVerified (scriptState id (toUtf8 text)) (Reference.moment "").now
        readRequest := ⟨_, Reference.liveSession rfl rfl, by decide, rfl⟩
    have hagain : CsrfVerified ((scriptState id (toUtf8 text)).validated (Reference.moment "").now
        readRequest) (Reference.moment "").now (saveRequest (readText (toUtf8 text))) :=
      hverified.again (by decide : 0 ≤ Reference.initial.sessions.ttl) rfl rfl
    rw [getScript_scriptState, putScript_of_verified hagain]
    rfl

theorem keepsText_exit : KeepsText "exit 0\n" := ⟨by decide +kernel, by decide⟩

/-- A plain script comes back. -/
theorem script_roundTrip_exit :
    (savedThere "exit 0\n").answer = .now (jsonResp (.obj
        [("path", .str "/scripts/a.sh"), ("content", .str "exit 0\n")])) ∧
      (openedThere "exit 0\n").fileAfter = some (toUtf8 "exit 0\n") :=
  ⟨((script_roundTrip_iff scriptLaws_scriptHost).1 (savedThere "exit 0\n")).mpr keepsText_exit,
    ((script_roundTrip_iff scriptLaws_scriptHost).2 (openedThere "exit 0\n")).mpr keepsText_exit⟩

/-- **A line end `\r\n`** comes back as `\n`, and is gone from a file that was opened and
saved. -/
theorem script_roundTrip_returns :
    readText (toUtf8 "exit 0\r\n") = "exit 0\n" ∧
      (¬ ∀ L : Library, ScriptLaws L.system → ∀ x : SavedScript L, x.answer = .now (jsonResp (.obj
        [("path", .str (scriptTarget x.st x.put)), ("content", .str x.content)]))) ∧
      ¬ ∀ L : Library, ScriptLaws L.system → ∀ x : OpenedScript L,
        x.fileAfter = some (toUtf8 x.text) := by
  have hread : readText (toUtf8 "exit 0\r\n") = "exit 0\n" := by decide +kernel
  refine ⟨hread, ?_, ?_⟩
  · intro hall
    have hanswer := hall _ scriptLaws_scriptHost (savedThere "exit 0\r\n")
    rw [SavedScript.answer_eq scriptLaws_scriptHost] at hanswer
    exact absurd (hread.symm.trans (content_of_reply hanswer)) (by decide)
  · intro hall
    have hfile := hall _ scriptLaws_scriptHost (openedThere "exit 0\r\n")
    rw [OpenedScript.fileAfter_eq scriptLaws_scriptHost, Option.some.injEq, toUtf8_inj] at hfile
    exact absurd (hread.symm.trans hfile) (by decide)

end TiBackup
