import TiBackup.Auth.Mediation
import TiBackup.Model.Router
import TiBackup.Stores.Writes

/-!
# TiBackup.Stores.Frame

**What a request leaves alone.** `Route.writes` is the table of the parts of the state
each route may change; the session table apart, which every route may change. It is
the frame of all results about runs of requests: a step by a route that does not
write a part keeps it, for every request (`handle_frame`).

The work a route leaves to a worker is not a part of its step.
-/

namespace TiBackup

open Lib

variable {L : Library}

/-- The parts of the state that are not the session table. -/
inductive Part
  | conf
  | jobs
  | pbs
  | ssh
  | manager
  | host
  | flags
  deriving Repr, DecidableEq

/-- The two states have this part in common. -/
def Part.Same : Part → State L → State L → Prop
  | .conf, st, st' => st'.conf = st.conf
  | .jobs, st, st' => st'.jobs = st.jobs
  | .pbs, st, st' => st'.pbs = st.pbs
  | .ssh, st, st' => st'.ssh = st.ssh
  | .manager, st, st' => st'.manager = st.manager
  | .host, st, st' => st'.host = st.host
  | .flags, st, st' => st'.debugLogging = st.debugLogging ∧ st'.secureCookies = st.secureCookies

theorem Part.Same.refl (p : Part) (st : State L) : p.Same st st := by
  cases p with
  | flags => exact ⟨rfl, rfl⟩
  | _ => rfl

section

variable {p : Part} (st : State L)

theorem Part.same_with_conf (hp : p ≠ .conf) (c : L.Conf) : p.Same st { st with conf := c } := by
  cases p with
  | conf => exact absurd rfl hp
  | flags => exact ⟨rfl, rfl⟩
  | _ => rfl

theorem Part.same_with_jobs (hp : p ≠ .jobs) (j : L.jobs.Carrier) :
    p.Same st { st with jobs := j } := by
  cases p with
  | jobs => exact absurd rfl hp
  | flags => exact ⟨rfl, rfl⟩
  | _ => rfl

theorem Part.same_with_pbs (hp : p ≠ .pbs) (s : L.pbs.Carrier) :
    p.Same st { st with pbs := s } := by
  cases p with
  | pbs => exact absurd rfl hp
  | flags => exact ⟨rfl, rfl⟩
  | _ => rfl

theorem Part.same_with_ssh (hp : p ≠ .ssh) (s : L.ssh.Carrier) :
    p.Same st { st with ssh := s } := by
  cases p with
  | ssh => exact absurd rfl hp
  | flags => exact ⟨rfl, rfl⟩
  | _ => rfl

theorem Part.same_with_host (hp : p ≠ .host) (h : L.system.Host) :
    p.Same st { st with host := h } := by
  cases p with
  | host => exact absurd rfl hp
  | flags => exact ⟨rfl, rfl⟩
  | _ => rfl

end

theorem Part.Same.trans {p : Part} {a b c : State L} (h : p.Same a b) (h' : p.Same b c) :
    p.Same a c := by
  cases p with
  | flags => exact ⟨h'.1.trans h.1, h'.2.trans h.2⟩
  | _ => exact Eq.trans h' h

theorem Part.Same.ite {p : Part} {st st' : State L} {c : Prop} [Decidable c] (h : p.Same st st') :
    p.Same st (if c then st' else st) := by
  split
  · exact h
  · exact .refl p st

theorem State.SameButSessions.part {st st' : State L} (h : State.SameButSessions st st') (p : Part) :
    p.Same st st' := by
  rw [h]
  cases p with
  | flags => exact ⟨rfl, rfl⟩
  | _ => rfl

/-- May a handler of this route change this part? -/
def Route.writes : Route → Part → Bool
  | .setup, .conf | .login, .conf | .putPrefs, .conf | .putPrefs, .flags => true
  | .postJob, .jobs | .putJob _, .jobs | .deleteJob _, .jobs => true
  | .postPbs, .pbs | .putPbs _, .pbs | .deletePbs _, .pbs => true
  | .postSsh, .ssh | .putSsh _, .ssh | .deleteSsh _, .ssh => true
  | .startJob _, .manager => true
  | .mkdir, .host | .putScript, .host | .mountPartition _, .host | .umountPartition _, .host => true
  | _, _ => false

namespace Api

/-- The handler body keeps the part. -/
def KeepsPart (p : Part) (k : Handler L) : Prop := ∀ req m st, p.Same st (k req m st).1

/-- Behind both checks a handler keeps what its body keeps. -/
theorem keepsPart_guarded {p : Part} {k : Handler L} (hk : KeepsPart p k) (d : Response → Reply) :
    KeepsPart p (withAuth d (withCsrf d k)) := by
  intro req m st
  have hvalidated : p.Same st (st.validated m.now req) :=
    (State.sameButSessions_validated st m.now req).part p
  rcases guarded_cases st req m d k with ⟨-, hrun⟩ | ⟨e, -, hrun⟩
  · rw [hrun]
    exact hvalidated.trans (hk req m (st.validated m.now req))
  · rw [hrun]
    exact hvalidated

/-- A handler that was rejected or changed the validated state in other parts only. -/
theorem keepsPart_of_cases {p : Part} {k : Handler L} (h : ∀ req m st,
    p.Same (st.validated m.now req) (k req m st).1 ∨ Rejected st (k req m st)) : KeepsPart p k := by
  intro req m st
  rcases h req m st with hother | ⟨-, hsame⟩
  · exact ((State.sameButSessions_validated st m.now req).part p).trans hother
  · exact hsame.part p

/-! ### One lemma a group of routes -/

section

variable {p : Part}

theorem setPassword_keeps (hp : p ≠ .conf) (pw : String)
    (rawSalt : { raw : Bytes // raw.length = 16 }) (st : State L) :
    p.Same st (setPassword pw rawSalt st) :=
  Part.same_with_conf st hp _

theorem setup_keeps (hp : p ≠ .conf) : KeepsPart p (setup (L := L)) := by
  intro req m st
  rcases setup_changes st req m with h | ⟨-, h⟩
  · exact h.part p
  · exact (setPassword_keeps hp _ _ st).trans (h.part p)

theorem login_keeps (hp : p ≠ .conf) : KeepsPart p (login (L := L)) := by
  intro req m st
  rcases login_changes st req m with h | ⟨-, h⟩
  · exact h.part p
  · exact (setPassword_keeps hp _ _ st).trans (h.part p)

theorem setIfPresent_keeps (hp : p ≠ .conf) (o : Json.Fields) (field key : String)
    (conv : Json → QVariant) (st : State L) : p.Same st (setIfPresent o field key conv st) := by
  rw [setIfPresent]
  split
  · exact Part.same_with_conf st hp _
  · exact .refl p st

theorem setPaths_keeps (hp : p ≠ .conf) (o : Json.Fields) (st : State L) :
    p.Same st (setPaths o st) := by
  simp only [setPaths, List.foldl_cons, List.foldl_nil]
  exact ((setIfPresent_keeps hp _ _ _ _ _).trans (setIfPresent_keeps hp _ _ _ _ _)).trans
    (setIfPresent_keeps hp _ _ _ _ _)

theorem setSmtp_keeps (hp : p ≠ .conf) (o : Json.Fields) (st : State L) :
    p.Same st (setSmtp o st) := by
  have hfields := (((((setIfPresent_keeps hp o "server" "smtp/server" (fun v => .str v.toString)
    st).trans (setIfPresent_keeps hp o "port" "smtp/port" (fun v => .int (v.toInt 0)) _)).trans
    (setIfPresent_keeps hp o "security" "smtp/security" (fun v => .str v.toString) _)).trans
    (setIfPresent_keeps hp o "auth" "smtp/auth" (fun v => .bool v.toBool) _)).trans
    (setIfPresent_keeps hp o "username" "smtp/username" (fun v => .str v.toString) _)).trans
    (setIfPresent_keeps hp o "from" "smtp/from" (fun v => .str v.toString) _)
  simp only [setSmtp]
  split
  · split
    · exact hfields
    · exact hfields.trans (Part.same_with_conf _ hp _)
  · exact hfields

theorem putPrefs_keeps (hp : p ≠ .conf) (hflags : p ≠ .flags) :
    KeepsPart p (putPrefs (L := L)) := by
  refine keepsPart_guarded ?_ _
  intro req m st
  have hdebug : p.Same st (if (parseBody req).contains "debug" then
      { st.setValue "main/debug" (.bool ((parseBody req).get "debug").toBool) with
        debugLogging := ((parseBody req).get "debug").toBool } else st) := by
    split
    · cases p with
      | conf => exact absurd rfl hp
      | flags => exact absurd rfl hflags
      | _ => rfl
    · exact .refl p st
  refine hdebug.trans (.trans (.ite ?_) (.ite ?_))
  · exact setPaths_keeps hp _ _
  · exact setSmtp_keeps hp _ _

theorem postJob_keeps (hp : p ≠ .jobs) : KeepsPart p (postJob (L := L)) := by
  refine keepsPart_of_cases fun req m st =>
    (postJob_cases req m st).imp ?_ And.right
  rintro ⟨_, hrun⟩
  rw [hrun]
  exact Part.same_with_jobs _ hp _

theorem putJob_keeps (hp : p ≠ .jobs) (name : String) : KeepsPart p (putJob (L := L) name) := by
  intro req m st
  rcases putJob_cases name req m st with ⟨-, -, -, hput⟩ | ⟨-, hsame⟩
  · rw [hput.others]
    have hsessions := State.sameButSessions_with st (putJob name req m st).1.sessions
    exact (hsessions.part p).trans
      (Part.same_with_jobs { st with sessions := (putJob name req m st).1.sessions } hp _)
  · exact hsame.part p

theorem deleteJob_keeps (hp : p ≠ .jobs) (name : String) :
    KeepsPart p (deleteJob (L := L) name) := by
  refine keepsPart_of_cases fun req m st =>
    (deleteJob_cases name req m st).imp ?_ And.right
  rintro ⟨_, hrun⟩
  rw [hrun]
  exact Part.same_with_jobs _ hp _

theorem startJob_keeps (hp : p ≠ .manager) (name : String) :
    KeepsPart p (startJob (L := L) name) := by
  refine keepsPart_guarded ?_ _
  intro req m st
  cases p with
  | manager => exact absurd rfl hp
  | flags => exact ⟨rfl, rfl⟩
  | _ => rfl

theorem postPbs_keeps (hp : p ≠ .pbs) : KeepsPart p (postPbs (L := L)) := by
  refine keepsPart_of_cases fun req m st =>
    (postPbs_cases req m st).imp ?_ And.right
  rintro ⟨_, hrun⟩
  rw [hrun]
  exact Part.same_with_pbs _ hp _

theorem putPbs_keeps (hp : p ≠ .pbs) (uuid : String) : KeepsPart p (putPbs (L := L) uuid) := by
  refine keepsPart_of_cases fun req m st =>
    (putPbs_cases uuid req m st).imp ?_ And.right
  rintro ⟨_, _, _, hrun⟩
  rw [hrun]
  exact Part.same_with_pbs _ hp _

theorem deletePbs_keeps (hp : p ≠ .pbs) (uuid : String) :
    KeepsPart p (deletePbs (L := L) uuid) := by
  refine keepsPart_of_cases fun req m st =>
    (deletePbs_cases uuid req m st).imp ?_ And.right
  rintro ⟨_, hrun⟩
  rw [hrun]
  exact Part.same_with_pbs _ hp _

theorem postSsh_keeps (hp : p ≠ .ssh) : KeepsPart p (postSsh (L := L)) := by
  refine keepsPart_of_cases fun req m st =>
    (postSsh_cases req m st).imp ?_ And.right
  rintro ⟨_, hrun⟩
  rw [hrun]
  exact Part.same_with_ssh _ hp _

theorem putSsh_keeps (hp : p ≠ .ssh) (uuid : String) : KeepsPart p (putSsh (L := L) uuid) := by
  refine keepsPart_of_cases fun req m st =>
    (putSsh_cases uuid req m st).imp ?_ And.right
  rintro ⟨_, _, _, hrun⟩
  rw [hrun]
  exact Part.same_with_ssh _ hp _

theorem deleteSsh_keeps (hp : p ≠ .ssh) (uuid : String) :
    KeepsPart p (deleteSsh (L := L) uuid) := by
  refine keepsPart_of_cases fun req m st =>
    (deleteSsh_cases uuid req m st).imp ?_ And.right
  rintro ⟨_, hrun⟩
  rw [hrun]
  exact Part.same_with_ssh _ hp _

theorem mkdir_keeps (hp : p ≠ .host) : KeepsPart p (mkdir (L := L)) := by
  refine keepsPart_guarded ?_ _
  intro req m st
  dsimp only
  split
  · exact .refl p st
  · split
    · exact .refl p st
    · split
      · exact .refl p st
      · split
        · exact Part.same_with_host _ hp _
        · exact Part.same_with_host _ hp _

theorem putScript_keeps (hp : p ≠ .host) : KeepsPart p (putScript (L := L)) := by
  have hsave : ∀ path content (st : State L), p.Same st (saveScriptConfined path content st).1 := by
    intro path content st
    simp only [saveScriptConfined]
    split
    · exact .refl p st
    · split
      · exact Part.same_with_host _ hp _
      · exact Part.same_with_host _ hp _
  refine keepsPart_guarded ?_ _
  intro req m st
  dsimp only
  split
  · exact hsave _ _ _
  · exact hsave _ _ _

theorem mountPartition_keeps (hp : p ≠ .host) (uuid : String) :
    KeepsPart p (mountPartition (L := L) uuid) := by
  refine keepsPart_guarded ?_ _
  intro req m st
  dsimp only
  split
  · exact .refl p st
  · split
    · exact Part.same_with_host _ hp _
    · exact Part.same_with_host _ hp _

theorem umountPartition_keeps (hp : p ≠ .host) (uuid : String) :
    KeepsPart p (umountPartition (L := L) uuid) := by
  refine keepsPart_guarded ?_ _
  intro req m st
  dsimp only
  split
  · exact Part.same_with_host _ hp _
  · exact Part.same_with_host _ hp _

/-- Handlers that leave everything to a worker, and the logout. -/
theorem keepsPart_defers {f : Request → State L → Reply} (d : Response → Reply) :
    KeepsPart p (withAuth d (withCsrf d (reads f))) :=
  keepsPart_guarded (fun _ _ st => .refl p st) d

theorem sshTest_keeps : KeepsPart p (sshTest (L := L)) := by
  refine keepsPart_guarded ?_ _
  intro req m st
  dsimp only
  split
  · split
    · exact .refl p st
    · exact .refl p st
  · exact .refl p st

theorem logout_keeps : KeepsPart p (logout (L := L)) :=
  keepsPart_guarded (fun _ _ st => (State.sameButSessions_with st _).part p) _

end

/-- **The frame.** A step by a route that does not write a part of the state keeps it. -/
theorem handle_frame {r : Route} {p : Part} (h : r.writes p = false) :
    KeepsPart p (handle (L := L) r) := by
  have hne : ∀ q, r.writes q = true → p ≠ q := by
    rintro q hq rfl
    rw [h] at hq
    cases hq
  cases hchanges : r.changes with
  | false => exact fun req m st => (reads_changes_nothing hchanges st req m).1.part p
  | true =>
    cases r with
    | setup => exact setup_keeps (hne .conf rfl)
    | login => exact login_keeps (hne .conf rfl)
    | logout => exact logout_keeps
    | putPrefs => exact putPrefs_keeps (hne .conf rfl) (hne .flags rfl)
    | testMail | pbsTest | sshMkdir => exact keepsPart_defers _
    | sshTest => exact sshTest_keeps
    | postJob => exact postJob_keeps (hne .jobs rfl)
    | putJob name => exact putJob_keeps (hne .jobs rfl) name
    | deleteJob name => exact deleteJob_keeps (hne .jobs rfl) name
    | startJob name => exact startJob_keeps (hne .manager rfl) name
    | postPbs => exact postPbs_keeps (hne .pbs rfl)
    | putPbs uuid => exact putPbs_keeps (hne .pbs rfl) uuid
    | deletePbs uuid => exact deletePbs_keeps (hne .pbs rfl) uuid
    | postSsh => exact postSsh_keeps (hne .ssh rfl)
    | putSsh uuid => exact putSsh_keeps (hne .ssh rfl) uuid
    | deleteSsh uuid => exact deleteSsh_keeps (hne .ssh rfl) uuid
    | mkdir => exact mkdir_keeps (hne .host rfl)
    | putScript => exact putScript_keeps (hne .host rfl)
    | mountPartition uuid => exact mountPartition_keeps (hne .host rfl) uuid
    | umountPartition uuid => exact umountPartition_keeps (hne .host rfl) uuid
    | _ => cases hchanges

end Api

end TiBackup
