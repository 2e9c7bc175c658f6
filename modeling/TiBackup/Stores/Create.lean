import TiBackup.Model.Reference
import TiBackup.Model.Router
import TiBackup.Stores.Writes

/-!
# TiBackup.Stores.Create

**Creating a record, and when it overwrites one.** The three create routes save what
they are given. POST /api/jobs looks first whether the name is taken. The server
routes do not look: they rely on the uuid being a fresh one, which it is unless the
body carries a uuid of its own.
-/

namespace TiBackup

open Lib

variable {L : Library}

namespace Api

/-- One record was added, to one of the three stores, under a name or uuid that was
not in use; all other records are as they were. -/
def CreatesOne (st st' : State L) : Prop :=
  (∃ job, L.jobs.Adds st.jobs st'.jobs job) ∧ st'.pbs = st.pbs ∧ st'.ssh = st.ssh ∨
  st'.jobs = st.jobs ∧ (∃ srv, L.pbs.Adds st.pbs st'.pbs srv) ∧ st'.ssh = st.ssh ∨
  st'.jobs = st.jobs ∧ st'.pbs = st.pbs ∧ ∃ srv, L.ssh.Adds st.ssh st'.ssh srv

/-- The uuid a body carries, empty when it carries none. -/
def bodyUuid (req : Request) : String := ((parseBody req).get "uuid").toString

/-- The request creates a server, and its body names one that is already stored. -/
def Overwrites : Route → State L → Request → Moment → Prop
  | .postPbs, st, req, m => (CsrfVerified st m.now req ∧ PbsAccepted m req) ∧ bodyUuid req ≠ "" ∧
      (getPbsByUuid st (bodyUuid req)).isSome = true
  | .postSsh, st, req, m => (CsrfVerified st m.now req ∧ SshAccepted m req) ∧ bodyUuid req ≠ "" ∧
      (getSshByUuid st (bodyUuid req)).isSome = true
  | _, _, _, _ => False

/-- A record that is built with a fresh uuid collides only by the uuid of the body. -/
theorem find_uuid_eq_none_iff {ρ : Type} {find : String → Option ρ} {fresh given : String}
    (hfresh : find fresh = none) :
    find (if given.isEmpty then fresh else given) = none ↔
      ¬(given ≠ "" ∧ (find given).isSome = true) := by
  by_cases hgiven : given = ""
  · simp [hgiven, hfresh]
  · simp [hgiven]

theorem postJob_creates (req : Request) (m : Moment) (st : State L)
    (h : Answered (postJob req m st)) : CreatesOne st (postJob req m st).1 := by
  rcases postJob_cases req m st with ⟨⟨-, -, -, hfree⟩, hrun⟩ | ⟨-, hno, -⟩
  · rw [hrun]
    exact .inl ⟨KeyedStore.exists_adds_save_iff.mpr hfree, rfl, rfl⟩
  · exact absurd h hno

/-- Saving a PBS server, behind the checks, creates it exactly when its uuid was free. -/
theorem createsOne_savePbs_iff (st : State L) (now : Int) (req : Request) (srv : PBServer) :
    CreatesOne st (savePbs (st.validated now req) srv) ↔ getPbsByUuid st srv.uuid = none := by
  refine Iff.trans ⟨?_, fun h => .inr (.inl ⟨rfl, h, rfl⟩)⟩
    (KeyedStore.exists_adds_save_iff (S := L.pbs) (s := st.pbs) (r := srv))
  intro h
  rcases h with ⟨⟨_, hself⟩, -⟩ | ⟨-, hadds, -⟩ | ⟨-, -, _, hself⟩
  · exact absurd hself KeyedStore.not_adds_self
  · exact hadds
  · exact absurd hself KeyedStore.not_adds_self

/-- Saving an SSH server, behind the checks, creates it exactly when its uuid was free. -/
theorem createsOne_saveSsh_iff (st : State L) (now : Int) (req : Request) (srv : SSHServer) :
    CreatesOne st (saveSsh (st.validated now req) srv) ↔ getSshByUuid st srv.uuid = none := by
  refine Iff.trans ⟨?_, fun h => .inr (.inr ⟨rfl, rfl, h⟩)⟩
    (KeyedStore.exists_adds_save_iff (S := L.ssh) (s := st.ssh) (r := srv))
  intro h
  rcases h with ⟨⟨_, hself⟩, -⟩ | ⟨-, ⟨_, hself⟩, -⟩ | ⟨-, -, hadds⟩
  · exact absurd hself KeyedStore.not_adds_self
  · exact absurd hself KeyedStore.not_adds_self
  · exact hadds

theorem postPbs_creates_iff (req : Request) (m : Moment) (st : State L)
    (hfresh : L.pbs.find st.pbs m.uuid = none) :
    (Answered (postPbs req m st) → CreatesOne st (postPbs req m st).1) ↔
      ¬Overwrites .postPbs st req m := by
  rcases postPbs_cases req m st with ⟨haccepted, hrun⟩ | ⟨hno, hrejected, -⟩
  · rw [hrun, createsOne_savePbs_iff]
    have hfree : getPbsByUuid st (JsonMap.pbServerFromJson m.uuid (parseBody req)).uuid = none ↔
        ¬(bodyUuid req ≠ "" ∧ (getPbsByUuid st (bodyUuid req)).isSome = true) :=
      find_uuid_eq_none_iff hfresh
    rw [hfree, Overwrites]
    exact ⟨fun h hover => h rfl hover.2, fun h _ hover => h ⟨haccepted, hover⟩⟩
  · exact ⟨fun _ hover => hno hover.1, fun _ h => absurd h hrejected⟩

theorem postSsh_creates_iff (req : Request) (m : Moment) (st : State L)
    (hfresh : L.ssh.find st.ssh m.uuid = none) :
    (Answered (postSsh req m st) → CreatesOne st (postSsh req m st).1) ↔
      ¬Overwrites .postSsh st req m := by
  rcases postSsh_cases req m st with ⟨haccepted, hrun⟩ | ⟨hno, hrejected, -⟩
  · rw [hrun, createsOne_saveSsh_iff]
    have hfree : getSshByUuid st (JsonMap.sshServerFromJson m.uuid (parseBody req)).uuid = none ↔
        ¬(bodyUuid req ≠ "" ∧ (getSshByUuid st (bodyUuid req)).isSome = true) :=
      find_uuid_eq_none_iff hfresh
    rw [hfree, Overwrites]
    exact ⟨fun h hover => h rfl hover.2, fun h _ hover => h ⟨haccepted, hover⟩⟩
  · exact ⟨fun _ hover => hno hover.1, fun _ h => absurd h hrejected⟩

/-- A stored PBS server with a password and a pinned certificate. -/
def pinnedPbs : PBServer where
  uuid := "0a1b2c3d"
  name := "offsite"
  host := "pbs.example"
  port := 8007
  username := "root@pam"
  password := "secret"
  fingerprint := "aa:bb"
  keyfile := ""
  keypass := ""

def pinnedPbsState : State Reference.library := savePbs Reference.initial pinnedPbs

/-- A create request that brings along the uuid of that server. -/
def takenUuidRequest : Request :=
  Reference.request (.obj
    [("uuid", .str "0a1b2c3d"), ("name", .str "other"), ("host", .str "other.example")])

/-- The server is replaced: its password and its fingerprint are gone. -/
theorem create_overwrites_pinnedPbs :
    getPbsByUuid pinnedPbsState "0a1b2c3d" = some pinnedPbs ∧
    getPbsByUuid pinnedPbsState (Reference.moment "11111111").uuid = none ∧
    Answered (handle .postPbs takenUuidRequest (Reference.moment "11111111") pinnedPbsState) ∧
    ¬CreatesOne pinnedPbsState
      (handle .postPbs takenUuidRequest (Reference.moment "11111111") pinnedPbsState).1 ∧
    ((getPbsByUuid (handle .postPbs takenUuidRequest (Reference.moment "11111111")
      pinnedPbsState).1 "0a1b2c3d").map fun srv => (srv.password, srv.fingerprint)) =
        some ("", "") := by
  have hverified : CsrfVerified pinnedPbsState 1 takenUuidRequest := Reference.csrfVerified rfl _
  have haccepted : PbsAccepted (Reference.moment "11111111") takenUuidRequest := by
    unfold PbsAccepted
    decide
  have hstored : getPbsByUuid pinnedPbsState "0a1b2c3d" = some pinnedPbs := by decide
  have hfresh : getPbsByUuid pinnedPbsState (Reference.moment "11111111").uuid = none := by decide
  have hover : Overwrites .postPbs pinnedPbsState takenUuidRequest (Reference.moment "11111111") :=
    ⟨⟨hverified, haccepted⟩, by decide, Option.isSome_iff_exists.mpr ⟨pinnedPbs, hstored⟩⟩
  have hiff :=
    postPbs_creates_iff takenUuidRequest (Reference.moment "11111111") pinnedPbsState hfresh
  rcases postPbs_cases takenUuidRequest (Reference.moment "11111111") pinnedPbsState
    with ⟨-, hrun⟩ | ⟨hno, -⟩
  · have hans : Answered (postPbs takenUuidRequest (Reference.moment "11111111") pinnedPbsState) := by
      rw [hrun]
      rfl
    refine ⟨hstored, hfresh, hans, ?_, ?_⟩
    · intro hcreates
      exact hiff.mp (fun _ => hcreates) hover
    · show ((getPbsByUuid (postPbs takenUuidRequest (Reference.moment "11111111")
        pinnedPbsState).1 "0a1b2c3d").map fun srv => (srv.password, srv.fingerprint)) = some ("", "")
      rw [hrun]
      decide
  · exact absurd ⟨hverified, haccepted⟩ hno

/-- **When creating creates.** For every state and every request to one of the three
create routes: if it is answered with ok then one record was added and nothing else
changed, exactly when the request does not bring along the uuid of a stored server. -/
theorem create_adds_iff {r : Route} (hr : r = .postJob ∨ r = .postPbs ∨ r = .postSsh)
    (req : Request) (m : Moment) (st : State L)
    (hpbs : L.pbs.find st.pbs m.uuid = none) (hssh : L.ssh.find st.ssh m.uuid = none) :
    (Answered (handle r req m st) → CreatesOne st (handle r req m st).1) ↔
      ¬Overwrites r st req m := by
  rcases hr with rfl | rfl | rfl
  · exact ⟨fun _ => id, fun _ => postJob_creates req m st⟩
  · exact postPbs_creates_iff req m st hpbs
  · exact postSsh_creates_iff req m st hssh

/-- The same request without a uuid of its own. -/
theorem create_adds_iff_pinnedPbs :
    getPbsByUuid pinnedPbsState "11111111" = none ∧
    getSshByUuid pinnedPbsState "11111111" = none ∧
    ((Answered (handle .postPbs
          (Reference.request (.obj [("name", .str "other"), ("host", .str "other.example")]))
          (Reference.moment "11111111") pinnedPbsState) →
        CreatesOne pinnedPbsState (handle .postPbs
          (Reference.request (.obj [("name", .str "other"), ("host", .str "other.example")]))
          (Reference.moment "11111111") pinnedPbsState).1) ↔
      ¬Overwrites .postPbs pinnedPbsState
        (Reference.request (.obj [("name", .str "other"), ("host", .str "other.example")]))
        (Reference.moment "11111111")) := by
  have hpbs : getPbsByUuid pinnedPbsState "11111111" = none := by decide
  have hssh : getSshByUuid pinnedPbsState "11111111" = none := by decide
  exact ⟨hpbs, hssh, create_adds_iff (.inr (.inl rfl)) _ (Reference.moment "11111111") _ hpbs hssh⟩

end Api

end TiBackup
