import TiBackup.Stores.Preferences

/-!
# TiBackup.Stores.TestMail

**Testing mail settings before they are saved.** POST /api/prefs/test-mail takes the
settings of the page and falls back on the stored ones. It sends what it would send after
PUT /api/prefs with the same settings, but for a password that begins with a byte-order
mark: the stored one is decoded as UTF-8, which drops the mark (`testMail_saved_iff`).
-/

namespace TiBackup

open Lib

variable {L : Library}

/-! ### The parameters -/

/-- Whom a test mail is for. -/
def mailRecipient (recipient : Json) : String :=
  String.ofList (trimmed isTextSpace recipient.toString.toList)

/-- What comes of a test mail with these parameters. -/
def mailAnswer (recipient : Json) (p : MailParams) : Reply :=
  if (mailRecipient recipient).isEmpty = true then
    .future (errResp "recipient required" .badRequest)
  else if p.server.isEmpty = true then
    .future (errResp "SMTP server not configured" .badRequest)
  else .later (.testMail p (mailRecipient recipient))

/-- Storing a value and reading it back is reading it. -/
theorem mailParams_putPrefs {st : State L} {q : Request} {t : Moment} (h : CsrfVerified st t.now q)
    {s : Json.Fields} (hbody : parseBody q = [("smtp", .obj s)]) :
    Api.mailParams [] (Api.putPrefs q t st).1 = { Api.mailParams s st with
      password := if (s.get "password").toString = "" then (Api.mailParams s st).password
        else fromUtf8 (toUtf8 (s.get "password").toString) } := by
  have hobject : ∀ p ∈ smtpPrefs, p.object (parseBody q) = s := by
    rw [hbody]
    intro p hp
    rw [Pref.object, (by decide : ∀ p ∈ smtpPrefs, p.group = some "smtp") p hp]
    rfl
  have hfield : ∀ p ∈ smtpPrefs, (Api.putPrefs q t st).1.getValue p.key =
      if s.contains p.field = true then p.type.stored (s.get p.field) else st.getValue p.key := by
    intro p hp
    have hmem : p ∈ prefs := List.mem_cons_of_mem _ (List.mem_append_right _ hp)
    rw [getValue_putPrefs_pref h hmem, Pref.value, hobject p hp]
    exact if_congr (by rw [Pref.In, hobject p hp]) rfl rfl
  simp only [smtpPrefs, List.forall_mem_cons] at hfield
  obtain ⟨hserver, hport, hsecurity, hauth, husername, hfrom, -⟩ := hfield
  have hnone : ∀ k, Json.Fields.contains [] k = false := fun _ => rfl
  have hpassword := getValue_putPrefs_password h
  have hnew : newPassword (parseBody q) = (s.get "password").toString := by
    rw [newPassword, hbody]
    rfl
  simp only [Api.mailParams, hnone, MailParams.mk.injEq, Bool.false_eq_true, if_false, hserver,
    hport, hsecurity, hauth, husername, hfrom]
  refine ⟨apply_ite _ _ _ _, apply_ite _ _ _ _, congrArg _ (apply_ite _ _ _ _), apply_ite _ _ _ _,
    apply_ite _ _ _ _, apply_ite _ _ _ _, ?_⟩
  rw [if_pos (by rfl), hpassword, hnew]
  by_cases hempty : (s.get "password").toString = ""
  · rw [if_pos hempty, if_pos hempty, if_pos (String.isEmpty_iff.mpr hempty)]
  · rw [if_neg hempty, if_neg hempty, QVariant.toString_str, Api.encodePassword,
      fromBase64_toBase64]

/-- The answer to a verified request. -/
theorem testMail_of_verified {st : State L} {q : Request} {t : Moment}
    (h : CsrfVerified st t.now q) : (Api.testMail q t st).2 =
      mailAnswer ((parseBody q).get "recipient")
        (Api.mailParams ((parseBody q).get "smtp").toObject st) := by
  have hparams : ∀ s, Api.mailParams s (st.validated t.now q) = Api.mailParams s st := fun _ => rfl
  rw [Api.testMail, Api.withCsrf_of_verified h]
  simp only [Api.reads, hparams]
  rw [mailAnswer, mailRecipient]

/-! ### Before and after saving -/

/-- Settings that are tested as they are, and saved and then tested. -/
structure MailTest (L : Library) where
  st : State L
  recipient : Json
  smtp : Json.Fields
  /-- POST /api/prefs/test-mail with the settings, -/
  direct : Request
  directAt : Moment
  direct_body : parseBody direct = [("recipient", recipient), ("smtp", .obj smtp)]
  direct_verified : CsrfVerified st directAt.now direct
  /-- PUT /api/prefs with the settings, -/
  put : Request
  putAt : Moment
  put_body : parseBody put = [("smtp", .obj smtp)]
  put_verified : CsrfVerified st putAt.now put
  /-- and then POST /api/prefs/test-mail without them. -/
  saved : Request
  savedAt : Moment
  saved_body : parseBody saved = [("recipient", recipient)]
  saved_verified : CsrfVerified (Api.putPrefs put putAt st).1 savedAt.now saved

namespace MailTest

variable (x : MailTest L)

/-- What is sent, or the rejection, before saving -/
def directAnswer : Reply := (Api.testMail x.direct x.directAt x.st).2

/-- and after it. -/
def savedAnswer : Reply := (Api.testMail x.saved x.savedAt (Api.putPrefs x.put x.putAt x.st).1).2

/-- The text of the password. -/
def typed : String := (x.smtp.get "password").toString

/-- The server, that of the settings or the stored one. -/
def server : String :=
  if x.smtp.contains "server" = true then (x.smtp.get "server").toString
  else (x.st.getValue "smtp/server").toString

/-- Something is sent, with a password that begins with a byte-order mark. -/
def SendsMark : Prop :=
  mailRecipient x.recipient ≠ "" ∧ x.server ≠ "" ∧
    x.typed.toList.head? = some (Char.ofNat 0xfeff)

theorem directAnswer_eq :
    x.directAnswer = mailAnswer x.recipient (Api.mailParams x.smtp x.st) := by
  rw [directAnswer, testMail_of_verified x.direct_verified, x.direct_body]
  rfl

theorem savedAnswer_eq : x.savedAnswer = mailAnswer x.recipient
    { Api.mailParams x.smtp x.st with
      password := if x.typed = "" then (Api.mailParams x.smtp x.st).password
        else fromUtf8 (toUtf8 x.typed) } := by
  rw [savedAnswer, testMail_of_verified x.saved_verified, x.saved_body, typed,
    ← mailParams_putPrefs x.put_verified x.put_body]
  rfl

/-- The password that is sent before saving. -/
theorem password_mailParams (s : Json.Fields) (st : State L) (h : (s.get "password").toString ≠ "") :
    (Api.mailParams s st).password = (s.get "password").toString :=
  if_neg (mt String.isEmpty_iff.mp h)

end MailTest

/-- Two mails to somebody, from a server, are the same if their parameters are. -/
theorem mailAnswer_inj {recipient : Json} {p p' : MailParams} (hrecipient : mailRecipient recipient ≠ "")
    (hserver : p.server ≠ "") (hserver' : p'.server ≠ "") :
    mailAnswer recipient p = mailAnswer recipient p' ↔ p = p' := by
  have hne := mt String.isEmpty_iff.mp hrecipient
  rw [mailAnswer, mailAnswer, if_neg hne, if_neg hne, if_neg (mt String.isEmpty_iff.mp hserver),
    if_neg (mt String.isEmpty_iff.mp hserver')]
  exact ⟨fun h => (Work.testMail.inj (Reply.later.inj h)).1, fun h => by rw [h]⟩

theorem MailTest.answers_ne {x : MailTest L} (h : x.SendsMark) :
    x.directAnswer ≠ x.savedAnswer := by
  obtain ⟨hrecipient, hserver, hmark⟩ := h
  have hne : x.typed ≠ "" := by
    intro hempty
    rw [hempty] at hmark
    cases hmark
  rw [x.directAnswer_eq, x.savedAnswer_eq, if_neg hne, Ne,
    mailAnswer_inj hrecipient hserver hserver]
  intro heq
  refine fromUtf8_toUtf8_iff.mp ?_ hmark
  exact (congrArg MailParams.password heq).symm.trans (password_mailParams x.smtp x.st hne)

/-- **Testing settings is testing them after they are saved**, unless something is sent with
a password that begins with a byte-order mark. -/
theorem testMail_saved_iff (x : MailTest L) : x.directAnswer = x.savedAnswer ↔ ¬ x.SendsMark := by
  refine ⟨fun heq hmark => MailTest.answers_ne hmark heq, ?_⟩
  intro hmark
  rw [x.directAnswer_eq, x.savedAnswer_eq]
  by_cases hrecipient : mailRecipient x.recipient = ""
  · have hrejected : ∀ p, mailAnswer x.recipient p =
        .future (errResp "recipient required" .badRequest) :=
      fun p => if_pos (String.isEmpty_iff.mpr hrecipient)
    rw [hrejected, hrejected]
  by_cases hserver : x.server = ""
  · have hrejected : ∀ pw, mailAnswer x.recipient
        { Api.mailParams x.smtp x.st with password := pw } =
          .future (errResp "SMTP server not configured" .badRequest) := by
      intro pw
      rw [mailAnswer, if_neg (mt String.isEmpty_iff.mp hrecipient)]
      exact if_pos (String.isEmpty_iff.mpr hserver)
    exact (hrejected _).trans (hrejected _).symm
  by_cases hempty : x.typed = ""
  · rw [if_pos hempty]
  · have hkept := fromUtf8_toUtf8_iff.mpr fun hhead => hmark ⟨hrecipient, hserver, hhead⟩
    rw [if_neg hempty, hkept, MailTest.typed, ← MailTest.password_mailParams _ x.st hempty]

/-- Settings whose password begins with a mark, -/
def markedSmtp : Json.Fields :=
  [("server", .str "mail.example.org"), ("password", .str "\uFEFFpw")]

/-- the request that saves them, -/
def saveMarked : Request := Reference.request (.obj [("smtp", .obj markedSmtp)])

/-- and one for a mail. -/
def askForMail : Request := Reference.request (.obj [("recipient", .str "root@example.org")])

theorem csrfVerified_askForMail : CsrfVerified
    (Api.putPrefs saveMarked (Reference.moment "") Reference.initial).1 (Reference.moment "").now
      askForMail := by
  have hput : CsrfVerified Reference.initial (Reference.moment "").now saveMarked :=
    Reference.csrfVerified rfl _
  have hagain : CsrfVerified (Reference.initial.validated (Reference.moment "").now saveMarked)
      (Reference.moment "").now askForMail := hput.again (by decide) rfl rfl
  rw [Api.putPrefs, Api.withCsrf_of_verified hput]
  exact hagain

def markedTest : MailTest Reference.library where
  st := Reference.initial
  recipient := .str "root@example.org"
  smtp := markedSmtp
  direct := Reference.request (.obj [("recipient", .str "root@example.org"),
    ("smtp", .obj markedSmtp)])
  directAt := Reference.moment ""
  direct_body := rfl
  direct_verified := Reference.csrfVerified rfl _
  put := saveMarked
  putAt := Reference.moment ""
  put_body := rfl
  put_verified := Reference.csrfVerified rfl _
  saved := askForMail
  savedAt := Reference.moment ""
  saved_body := rfl
  saved_verified := csrfVerified_askForMail

/-- **A password that begins with a mark** is sent before it is saved, and another one
afterwards. -/
theorem testMail_marked :
    markedTest.directAnswer = .later (.testMail
      ⟨"mail.example.org", 0, "", false, "", "", "\uFEFFpw"⟩ "root@example.org") ∧
    markedTest.savedAnswer = .later (.testMail
      ⟨"mail.example.org", 0, "", false, "", "", "pw"⟩ "root@example.org") ∧
    ¬ ∀ (L : Library) (x : MailTest L), x.directAnswer = x.savedAnswer := by
  have hdecoded : fromUtf8 (toUtf8 "\uFEFFpw") = "pw" := by decide +kernel
  refine ⟨by rw [MailTest.directAnswer_eq]; rfl, ?_, ?_⟩
  · rw [MailTest.savedAnswer_eq, ← hdecoded]
    rfl
  · intro hall
    refine MailTest.answers_ne ?_ (hall _ markedTest)
    exact ⟨by decide, by decide, by decide⟩

end TiBackup
