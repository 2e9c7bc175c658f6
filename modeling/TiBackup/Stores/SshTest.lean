import TiBackup.Lib.Machine
import TiBackup.Model.Reference
import TiBackup.Stores.Frame

/-!
# TiBackup.Stores.SshTest

**What the end of an SSH connection test overwrites.** POST /api/ssh/test copies the
stored record and hands the copy to a worker; up to twenty seconds later the worker
saves the copy with the captured host key. Meanwhile the main thread goes on serving
requests, so the copy may be out of date by then, and saving it undoes whatever was
written in between, or brings a deleted server back.

The end of a test changes nothing but the host key exactly when the copy still is the
stored record up to the host key (`CopyIsCurrent`). That is so as long as nobody
creates, changes or deletes a server while it is being tested (`Undisturbed`); other
tests of the same server do no harm.
-/

namespace TiBackup

open Lib Lib.Machine

variable {L : Library}

/-- The daemon, and the tests that are running: the copied record and the uuid of each. -/
structure SshWorld (L : Library) where
  daemon : State L
  running : List (SSHServer × String)

inductive SshEvent
  /-- The main thread serves a request. -/
  | request (c : Call)
  /-- One of the running tests is over, with this result. -/
  | testDone (i : Nat) (tr : TestResult)

namespace Api

/-- The test a request starts. -/
def startedTest (c : Call) : Reply → List (SSHServer × String)
  | .later (.sshTest srv uuid) => if c.route = .sshTest then [(srv, uuid)] else []
  | _ => []

/-- Requests and ends of tests, in any order. -/
def sshTests (L : Library) : Machine (SshWorld L) SshEvent Unit where
  step w
    | .request c =>
      (⟨(serve c w.daemon).1, w.running ++ startedTest c (serve c w.daemon).2⟩, ())
    | .testDone i tr =>
      match w.running[i]? with
      | none => (w, ())
      | some (srv, uuid) =>
        (⟨(sshTestDone srv uuid tr w.daemon).1, w.running.eraseIdx i⟩, ())

/-! ### The end of a test -/

/-- The servers before and after: only the host key of the server `uuid` may differ,
and the server is there afterwards if it was there before. -/
def OnlyHostkey (st st' : State L) (uuid : String) : Prop :=
  (∀ k, k ≠ uuid → getSshByUuid st' k = getSshByUuid st k) ∧
    ∃ hostkey, getSshByUuid st' uuid =
      (getSshByUuid st uuid).map fun srv => { srv with hostkey := hostkey }

/-- The stored record is the copy, but for the host key. -/
def CopyCurrent (st : State L) (srv : SSHServer) (uuid : String) : Prop :=
  ∃ hostkey, getSshByUuid st uuid = some { srv with uuid := uuid, hostkey := hostkey }

/-- The worker saves its copy: the test succeeded with a host key, and the server it
was about is a stored one. -/
def pins (uuid : String) (tr : TestResult) : Bool :=
  tr.ok && !uuid.isEmpty && !tr.hostkey.isEmpty

theorem find_sshTestDone (srv : SSHServer) (uuid : String) (tr : TestResult) (st : State L)
    (k : String) : getSshByUuid (sshTestDone srv uuid tr st).1 k =
      if pins uuid tr = true ∧ k = uuid then some { srv with uuid := uuid, hostkey := tr.hostkey }
      else getSshByUuid st k := by
  by_cases hpins : pins uuid tr = true
  · have hsaved : (sshTestDone srv uuid tr st).1 =
        saveSsh st { srv with uuid := uuid, hostkey := tr.hostkey } := if_pos hpins
    simp only [hsaved, hpins, true_and]
    exact L.ssh.find_save st.ssh { srv with uuid := uuid, hostkey := tr.hostkey } k
  · have hkept : (sshTestDone srv uuid tr st).1 = st := if_neg hpins
    rw [hkept, if_neg fun h => hpins h.1]

/-- The end of a test keeps to the host key exactly when it saves nothing, or a copy
that is current. -/
theorem onlyHostkey_sshTestDone_iff (srv : SSHServer) (uuid : String) (tr : TestResult)
    (st : State L) : OnlyHostkey st (sshTestDone srv uuid tr st).1 uuid ↔
      (pins uuid tr = true → CopyCurrent st srv uuid) := by
  simp only [OnlyHostkey, find_sshTestDone]
  by_cases hpins : pins uuid tr = true
  · simp only [hpins, true_and, if_true, true_imp_iff]
    constructor
    · rintro ⟨-, hostkey, hkept⟩
      cases hstored : getSshByUuid st uuid with
      | none => rw [hstored] at hkept; cases hkept
      | some old =>
        rw [hstored, Option.map_some, Option.some.injEq] at hkept
        refine ⟨old.hostkey, ?_⟩
        rw [hstored, Option.some.injEq]
        cases old
        injections
        subst_vars
        rfl
    · rintro ⟨hostkey, hstored⟩
      refine ⟨fun k hk => if_neg hk, tr.hostkey, ?_⟩
      rw [hstored]
      rfl
  · simp only [hpins, Bool.false_eq_true, false_and, if_false, false_imp_iff, iff_true]
    refine ⟨fun _ _ => trivial, ?_⟩
    cases getSshByUuid st uuid with
    | none => exact ⟨"", rfl⟩
    | some old => exact ⟨old.hostkey, rfl⟩

/-! ### What a request does to one server -/

/-- The server a request creates, changes or deletes. -/
def sshTarget (c : Call) : Option String :=
  match c.route with
  | .postSsh => some (JsonMap.sshServerFromJson c.moment.uuid (parseBody c.req)).uuid
  | .putSsh uuid => some uuid
  | .deleteSsh uuid => some uuid
  | _ => none

/-- A request that is answered with ok has another target than the server it may not change. -/
theorem ne_of_sshTarget {c : Call} {st : State L} {k target : String}
    (h : sshTarget c = some k → ¬Answered (serve c st)) (htarget : sshTarget c = some target)
    (hok : Answered (serve c st)) : k ≠ target := by
  rintro rfl
  exact h htarget hok

/-- A request changes no other server than its target, and that one only if it is
answered with ok. -/
theorem find_serve {c : Call} {st : State L} {k : String}
    (h : sshTarget c = some k → ¬Answered (serve c st)) :
    getSshByUuid (serve c st).1 k = getSshByUuid st k := by
  obtain ⟨route, req, m⟩ := c
  cases hwrites : route.writes .ssh with
  | false =>
    have hsame := handle_frame hwrites req m st
    rw [getSshByUuid, serve, hsame]
    rfl
  | true =>
    cases route with
    | postSsh =>
      rcases postSsh_cases req m st with ⟨-, hrun⟩ | ⟨-, -, hsame⟩
      · have hother := ne_of_sshTarget h rfl (by rw [serve, handle, hrun]; rfl)
        rw [serve, handle, hrun]
        exact L.ssh.find_save_of_ne hother
      · rw [serve, handle, hsame]
        rfl
    | putSsh uuid =>
      rcases putSsh_cases uuid req m st with ⟨existing, -, -, hrun⟩ | ⟨-, -, hsame⟩
      · have hkey : (putSshRecord uuid existing m req).uuid = uuid := by
          rw [putSshRecord, keepSshSecrets_eq]
        have hother := ne_of_sshTarget h rfl (by rw [serve, handle, hrun]; rfl)
        rw [serve, handle, hrun]
        exact L.ssh.find_save_of_ne (by rwa [hkey])
      · rw [serve, handle, hsame]
        rfl
    | deleteSsh uuid =>
      rcases deleteSsh_cases uuid req m st with ⟨-, hrun⟩ | ⟨-, -, hsame⟩
      · have hother := ne_of_sshTarget h rfl (by rw [serve, handle, hrun]; rfl)
        rw [serve, handle, hrun]
        exact (L.ssh.find_remove st.ssh uuid k).trans (if_neg hother)
      · rw [serve, handle, hsame]
        rfl
    | _ => cases hwrites

/-! ### Runs -/

/-- The end of a test keeps to the host key of the server under test. -/
def KeepsToHostkey (w : SshWorld L) : SshEvent → Prop
  | .request _ => True
  | .testDone i tr => ∀ srv uuid, w.running[i]? = some (srv, uuid) →
      OnlyHostkey w.daemon ((sshTests L).next w (.testDone i tr)).daemon uuid

/-- The worker that is about to save its copy holds a current one. -/
def CopyIsCurrent (w : SshWorld L) : SshEvent → Prop
  | .request _ => True
  | .testDone i tr => ∀ srv uuid, w.running[i]? = some (srv, uuid) → pins uuid tr = true →
      CopyCurrent w.daemon srv uuid

/-- No server is created, changed or deleted while a test of it is running. -/
def Undisturbed (w : SshWorld L) : SshEvent → Prop
  | .request c => ∀ uuid, sshTarget c = some uuid → (∃ srv, (srv, uuid) ∈ w.running) →
      ¬Answered (serve c w.daemon)
  | .testDone _ _ => True

theorem next_testDone {w : SshWorld L} {i : Nat} {tr : TestResult} {srv : SSHServer} {uuid : String}
    (h : w.running[i]? = some (srv, uuid)) : (sshTests L).next w (.testDone i tr) =
      ⟨(sshTestDone srv uuid tr w.daemon).1, w.running.eraseIdx i⟩ := by
  simp only [next, sshTests, h]

theorem next_testDone_none {w : SshWorld L} {i : Nat} {tr : TestResult}
    (h : w.running[i]? = none) : (sshTests L).next w (.testDone i tr) = w := by
  simp only [next, sshTests, h]

theorem keepsToHostkey_iff (w : SshWorld L) (e : SshEvent) :
    KeepsToHostkey w e ↔ CopyIsCurrent w e := by
  cases e with
  | request c => exact Iff.rfl
  | testDone i tr =>
    refine forall₃_congr ?_
    intro srv uuid h
    rw [next_testDone h]
    exact onlyHostkey_sshTestDone_iff srv uuid tr w.daemon

/-- Every test of a stored server that is running holds a current copy. -/
def CopiesCurrent (w : SshWorld L) : Prop :=
  ∀ srv uuid, (srv, uuid) ∈ w.running → uuid ≠ "" → CopyCurrent w.daemon srv uuid

/-- POST /api/ssh/test hands over the stored record of a saved server. -/
theorem sshTest_copies {req : Request} {m : Moment} {st : State L} {srv : SSHServer}
    {uuid : String} (h : (sshTest req m st).2 = .later (.sshTest srv uuid)) (huuid : uuid ≠ "") :
    getSshByUuid st uuid = some srv := by
  rcases guarded_cases st req m .future _ with ⟨-, hrun⟩ | ⟨e, -, hrun⟩
  · rw [sshTest, hrun] at h
    dsimp only at h
    split at h
    · cases hstored : getSshByUuid (st.validated m.now req) ((parseBody req).get "uuid").toString with
      | none => rw [hstored] at h; cases h
      | some stored =>
        rw [hstored] at h
        cases h
        exact hstored
    · next hempty =>
      cases h
      exact absurd (by simpa using hempty) huuid
  · rw [sshTest, hrun] at h
    cases h

/-- A test of a stored server starts with a current copy. -/
theorem startedTest_current {c : Call} {st : State L} {srv : SSHServer} {uuid : String}
    (h : (srv, uuid) ∈ startedTest c (serve c st).2) (huuid : uuid ≠ "") :
    CopyCurrent (serve c st).1 srv uuid := by
  obtain ⟨route, req, m⟩ := c
  unfold startedTest at h
  split at h
  · next srv' uuid' hreply =>
    split at h
    · next hroute =>
      cases hroute
      obtain ⟨rfl, rfl⟩ := Prod.mk.inj (List.mem_singleton.mp h)
      have hstored := sshTest_copies hreply huuid
      have hkey : srv.uuid = uuid := L.ssh.key_of_find hstored
      have hkept : getSshByUuid (serve ⟨.sshTest, req, m⟩ st).1 uuid = some srv :=
        (find_serve fun htarget => by cases htarget).trans hstored
      refine ⟨srv.hostkey, ?_⟩
      rw [hkept, ← hkey]
    · cases h
  · cases h

theorem copiesCurrent_step (w : SshWorld L) (e : SshEvent) (h : CopiesCurrent w)
    (he : Undisturbed w e) : CopiesCurrent ((sshTests L).next w e) := by
  cases e with
  | request c =>
    intro srv uuid hmem huuid
    rcases List.mem_append.mp hmem with hold | hnew
    · obtain ⟨hostkey, hstored⟩ := h srv uuid hold huuid
      exact ⟨hostkey, (find_serve fun htarget => he uuid htarget ⟨srv, hold⟩).trans hstored⟩
    · exact startedTest_current hnew huuid
  | testDone i tr =>
    cases hi : w.running[i]? with
    | none => rwa [next_testDone_none hi]
    | some test =>
      obtain ⟨srv', uuid'⟩ := test
      rw [next_testDone hi]
      intro srv uuid hmem huuid
      have hold : (srv, uuid) ∈ w.running := List.mem_of_mem_eraseIdx hmem
      obtain ⟨hostkey, hstored⟩ := h srv uuid hold huuid
      rw [CopyCurrent, find_sshTestDone]
      split
      · next hpins =>
        -- Another test of the same server: both copies are current, so they agree.
        obtain ⟨-, rfl⟩ := hpins
        obtain ⟨hostkey', hstored'⟩ := h srv' uuid (List.mem_of_getElem? hi) huuid
        rw [hstored, Option.some.injEq] at hstored'
        refine ⟨tr.hostkey, ?_⟩
        cases srv
        cases srv'
        injections
        subst_vars
        rfl
      · exact ⟨hostkey, hstored⟩

/-- **What the end of a test overwrites.** In every run of requests and ends of tests:
each end of a test changes at most the host key of the server as it stands, exactly
when every copy that is saved is current; and so it does in every run in which no
server is created, changed or deleted while it is being tested. -/
theorem ssh_test_keeps_iff (st : State L) (es : List SshEvent) :
    ((sshTests L).Along KeepsToHostkey ⟨st, []⟩ es ↔
        (sshTests L).Along CopyIsCurrent ⟨st, []⟩ es) ∧
      ((sshTests L).Along Undisturbed ⟨st, []⟩ es →
        (sshTests L).Along KeepsToHostkey ⟨st, []⟩ es) := by
  refine ⟨along_congr_of_invariant (I := fun _ => True) (fun _ _ _ => trivial)
    (fun w e _ => keepsToHostkey_iff w e) trivial es, ?_⟩
  intro h
  refine along_of_invariant (I := CopiesCurrent) copiesCurrent_step ?_ nofun h
  intro w e hw _
  rw [keepsToHostkey_iff]
  cases e with
  | request c => trivial
  | testDone i tr =>
    intro srv uuid hi hpins
    refine hw srv uuid (List.mem_of_getElem? hi) ?_
    rintro rfl
    simp [pins] at hpins

/-! ### A run that loses an update -/

/-- A stored SSH server. -/
def movingSsh (host : String) : SSHServer where
  uuid := "0a1b2c3d"
  name := "files"
  host := host
  port := 22
  username := "backup"
  keyfile := "/root/.ssh/id"
  keypass := ""
  hostkey := ""

/-- The test of the server is started; while it runs, an administrator enters the new
address of the server; the test of the old one succeeds. -/
def movingRun : List SshEvent :=
  [.request ⟨.sshTest, Reference.request (.obj [("uuid", .str "0a1b2c3d")]),
      Reference.moment "11111111"⟩,
    .request ⟨.putSsh "0a1b2c3d", Reference.request (.obj (JsonMap.sshServerToJson
      (movingSsh "new.example") false)), Reference.moment "22222222"⟩,
    .testDone 0 ⟨true, "SHA256:x", "ssh-ed25519 AAAA", ""⟩]

def movingState : State Reference.library := saveSsh Reference.initial (movingSsh "old.example")

/-- The world after the test was started, and after the address was entered. -/
def movingTested : SshWorld Reference.library := (sshTests _).run ⟨movingState, []⟩ (movingRun.take 1)
def movingEdited : SshWorld Reference.library := (sshTests _).run ⟨movingState, []⟩ (movingRun.take 2)

/-- The new address was accepted, and it is gone when the test is over. -/
theorem ssh_test_loses_address :
    Answered (putSsh "0a1b2c3d" (Reference.request (.obj (JsonMap.sshServerToJson
      (movingSsh "new.example") false))) (Reference.moment "22222222") movingTested.daemon) ∧
    (getSshByUuid movingEdited.daemon "0a1b2c3d").map SSHServer.host = some "new.example" ∧
    (getSshByUuid ((sshTests _).run ⟨movingState, []⟩ movingRun).daemon "0a1b2c3d").map
      SSHServer.host = some "old.example" ∧
    ¬(sshTests _).Along KeepsToHostkey ⟨movingState, []⟩ movingRun := by
  have hedited : (getSshByUuid movingEdited.daemon "0a1b2c3d").map SSHServer.host =
      some "new.example" := by decide +kernel
  have hlost : (getSshByUuid ((sshTests _).run ⟨movingState, []⟩ movingRun).daemon
      "0a1b2c3d").map SSHServer.host = some "old.example" := by decide +kernel
  have hrunning : movingEdited.running[0]? = some (movingSsh "old.example", "0a1b2c3d") := by
    decide +kernel
  refine ⟨by unfold Answered; decide +kernel, hedited, hlost, ?_⟩
  intro h
  obtain ⟨-, hostkey, hkept⟩ := h.2.2.1 _ _ hrunning
  have hhost : (getSshByUuid ((sshTests _).run ⟨movingState, []⟩ movingRun).daemon
      "0a1b2c3d").map SSHServer.host =
        (getSshByUuid movingEdited.daemon "0a1b2c3d").map SSHServer.host := by
    refine (congrArg (Option.map SSHServer.host) hkept).trans ?_
    rw [Option.map_map]
    rfl
  rw [hlost, hedited] at hhost
  exact absurd hhost (by decide)

end Api

end TiBackup
