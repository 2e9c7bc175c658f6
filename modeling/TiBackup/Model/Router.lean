import TiBackup.Model.Api.Auth
import TiBackup.Model.Api.Prefs
import TiBackup.Model.Api.Jobs
import TiBackup.Model.Api.Servers
import TiBackup.Model.Api.Files
import TiBackup.Model.Api.Logs

/-!
# TiBackup.Model.Router

`ApiRouter::registerRoutes`: every `/api` route, the method it is registered for and
its handler, and the workers that finish the answers of the routes that return a
future.
-/

namespace TiBackup

open Lib

/-- The methods routes are registered for. -/
inductive Method
  | Get
  | Post
  | Put
  | Delete
  deriving Repr, DecidableEq

/-- The registered routes, with the arguments their paths carry. -/
inductive Route
  -- registerAuthRoutes
  | health
  | authStatus
  | setup
  | login
  | logout
  -- registerReadRoutes
  | getPrefs
  | getJobs
  | getJob (name : String)
  | getDevices
  | getPartition (uuid : String)
  | getPbsList
  | getPbs (uuid : String)
  | getSshList
  | getSsh (uuid : String)
  | mainLog
  | runLogs
  | runLog (file : String)
  | rsyncLogs
  | rsyncLog (job file : String)
  | browse
  | getScript
  -- registerWriteRoutes
  | putPrefs
  | testMail
  | postJob
  | putJob (name : String)
  | deleteJob (name : String)
  | startJob (name : String)
  | postPbs
  | putPbs (uuid : String)
  | deletePbs (uuid : String)
  | pbsTest
  | getDatastores (uuid : String)
  | getDatastoreGroups (uuid datastore : String)
  | postSsh
  | putSsh (uuid : String)
  | deleteSsh (uuid : String)
  | sshTest
  | sshBrowse (uuid : String)
  | mkdir
  | sshMkdir (uuid : String)
  | putScript
  | mountPartition (uuid : String)
  | umountPartition (uuid : String)
  deriving Repr, DecidableEq

namespace Route

/-- The method a route is registered for; `none` when it answers to every method. -/
def method : Route → Option Method
  | health | authStatus | getDevices | mainLog | runLogs | rsyncLogs | browse => none
  | setup | login | logout | testMail | postJob | startJob _ | postPbs | pbsTest | postSsh
  | sshTest | mkdir | sshMkdir _ | mountPartition _ | umountPartition _ => some .Post
  | putPrefs | putJob _ | putPbs _ | putSsh _ | putScript => some .Put
  | deleteJob _ | deletePbs _ | deleteSsh _ => some .Delete
  | getPrefs | getJobs | getJob _ | getPartition _ | getPbsList | getPbs _ | getSshList
  | getSsh _ | runLog _ | rsyncLog _ _ | getScript | getDatastores _ | getDatastoreGroups _ _
  | sshBrowse _ => some .Get

/-- The path pattern of a route, arguments filled in. -/
def path : Route → String
  | health => "/api/health"
  | authStatus => "/api/auth/status"
  | setup => "/api/setup"
  | login => "/api/auth/login"
  | logout => "/api/auth/logout"
  | getPrefs | putPrefs => "/api/prefs"
  | testMail => "/api/prefs/test-mail"
  | getJobs | postJob => "/api/jobs"
  | getJob name | putJob name | deleteJob name => "/api/jobs/" ++ name
  | startJob name => "/api/jobs/" ++ name ++ "/start"
  | getDevices => "/api/devices"
  | getPartition uuid => "/api/devices/partition/" ++ uuid
  | mountPartition uuid => "/api/devices/partition/" ++ uuid ++ "/mount"
  | umountPartition uuid => "/api/devices/partition/" ++ uuid ++ "/umount"
  | getPbsList | postPbs => "/api/pbs"
  | getPbs uuid | putPbs uuid | deletePbs uuid => "/api/pbs/" ++ uuid
  | pbsTest => "/api/pbs/test"
  | getDatastores uuid => "/api/pbs/" ++ uuid ++ "/datastores"
  | getDatastoreGroups uuid datastore =>
    "/api/pbs/" ++ uuid ++ "/datastores/" ++ datastore ++ "/groups"
  | getSshList | postSsh => "/api/ssh"
  | getSsh uuid | putSsh uuid | deleteSsh uuid => "/api/ssh/" ++ uuid
  | sshTest => "/api/ssh/test"
  | sshBrowse uuid => "/api/ssh/" ++ uuid ++ "/browse"
  | sshMkdir uuid => "/api/ssh/" ++ uuid ++ "/mkdir"
  | mainLog => "/api/logs/main"
  | runLogs => "/api/logs/runs"
  | runLog file => "/api/logs/runs/" ++ file
  | rsyncLogs => "/api/logs/rsync"
  | rsyncLog job file => "/api/logs/rsync/" ++ job ++ "/" ++ file
  | browse => "/api/browse"
  | mkdir => "/api/mkdir"
  | getScript | putScript => "/api/scripts"

end Route

/-- A request to a route, and what its handler reads while it runs. -/
structure Call where
  route : Route
  req : Request
  moment : Moment

namespace Api

variable {L : Library}

/-- The handler of a route. -/
def handle : Route → Handler L
  | .health => health
  | .authStatus => authStatus
  | .setup => setup
  | .login => login
  | .logout => logout
  | .getPrefs => getPrefs
  | .getJobs => getJobs
  | .getJob name => getJob name
  | .getDevices => getDevices
  | .getPartition uuid => getPartition uuid
  | .getPbsList => getPbsList
  | .getPbs uuid => getPbs uuid
  | .getSshList => getSshList
  | .getSsh uuid => getSsh uuid
  | .mainLog => mainLog
  | .runLogs => runLogs
  | .runLog file => runLog file
  | .rsyncLogs => rsyncLogs
  | .rsyncLog job file => rsyncLog job file
  | .browse => browse
  | .getScript => getScript
  | .putPrefs => putPrefs
  | .testMail => testMail
  | .postJob => postJob
  | .putJob name => putJob name
  | .deleteJob name => deleteJob name
  | .startJob name => startJob name
  | .postPbs => postPbs
  | .putPbs uuid => putPbs uuid
  | .deletePbs uuid => deletePbs uuid
  | .pbsTest => pbsTest
  | .getDatastores uuid => getDatastores uuid
  | .getDatastoreGroups uuid datastore => getDatastoreGroups uuid datastore
  | .postSsh => postSsh
  | .putSsh uuid => putSsh uuid
  | .deleteSsh uuid => deleteSsh uuid
  | .sshTest => sshTest
  | .sshBrowse uuid => sshBrowse uuid
  | .mkdir => mkdir
  | .sshMkdir uuid => sshMkdir uuid
  | .putScript => putScript
  | .mountPartition uuid => mountPartition uuid
  | .umountPartition uuid => umountPartition uuid

/-- The main thread handles one request. -/
def serve (c : Call) (st : State L) : State L × Reply := handle c.route c.req c.moment st

/-- The answer of the test mail worker. -/
def testMailDone (r : CommandResult) : Response :=
  if !r.ok then errResp (if r.message.isEmpty then "send failed" else r.message) .badGateway
  else okResp

/-- Run the work a handler left behind, in the state at the time it runs. -/
def runWork : Work → State L → State L × Response
  | .respond r, st => (st, r)
  | .testMail p recipient, st => (st, testMailDone (L.system.sendMail st.host p recipient))
  | .pbsTest login, st =>
    let r := L.system.pbsAuth st.host login
    (st, pbsTestDone (L := L) login r.1 r.2)
  | .pbsDatastores pb, st =>
    (st, pbsQueryDone (L.system.pbsAuth st.host (pbLogin pb)).1
      (L.system.pbsDatastores st.host (pbLogin pb)))
  | .pbsGroups pb datastore, st =>
    (st, pbsQueryDone (L.system.pbsAuth st.host (pbLogin pb)).1
      (L.system.pbsDatastoreGroups st.host (pbLogin pb) datastore))
  | .sshTest srv uuid, st => sshTestDone srv uuid (L.system.sshTest st.host srv) st
  | .sshBrowse srv target, st => (st, sshBrowseDone target (L.system.sshListDir st.host srv target))
  | .sshMkdir srv full, st =>
    let r := L.system.sshMkdir st.host srv full
    ({ st with host := r.1 }, sshMkdirDone full r.2)

/-- The response a reply ends in, and the state after it, when the work it left behind
runs in the state `st`. -/
def finish : Reply → State L → State L × Response
  | .now r, st => (st, r)
  | .later w, st => runWork w st

end Api

end TiBackup
