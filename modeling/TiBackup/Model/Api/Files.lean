import TiBackup.Model.Api.Jobs
import TiBackup.Model.Api.Servers

/-!
# TiBackup.Model.Api.Files

Devices and mounts, the local folder browser, and the pre- and post-backup scripts.

`resolveBrowseTarget` is shared by GET /api/browse and POST /api/mkdir: it picks the
confinement root of the request and clamps the requested path to it.
-/

namespace TiBackup

open Lib

variable {L : Library}

namespace Api

/-! ### Devices -/

/-- GET /api/devices. -/
def getDevices : Handler L := withAuth .now <| reads fun _ st =>
  .now <| jsonResp <| .arr <| (L.system.attachedDisks st.host).map fun d =>
    .obj (JsonMap.diskToJson d)

/-- GET /api/devices/partition/<uuid>. -/
def getPartition (uuid : String) : Handler L := withAuth .now <| reads fun _ st =>
  let part := L.system.partitionByUuid st.host uuid
  if part.uuid.isEmpty then .now (errResp "partition not found" .notFound)
  else .now <| jsonResp <| .obj <| JsonMap.partitionToJson part ++
    [("mounted", .bool (L.system.isMounted st.host part)),
     ("mountDir", .str (L.system.mountDir st.host part))]

/-- POST /api/devices/partition/<uuid>/mount. -/
def mountPartition (uuid : String) : Handler L := withAuth .now <| withCsrf .now fun req _ st =>
  let part := L.system.partitionByUuid st.host uuid
  if part.uuid.isEmpty then (st, .now (errResp "partition not found" .notFound))
  else
    let b := parseBody req
    let r := L.system.mountPartition st.host part ⟨(b.get "luksType").toInt 0⟩
      (b.get "luksFilePath").toString
    let st := { st with host := r.1 }
    if r.2.isEmpty then (st, .now (errResp "mount failed" .internalServerError))
    else (st, .now (jsonResp (.obj [("ok", .bool true), ("mountDir", .str r.2)])))

/-- POST /api/devices/partition/<uuid>/umount. -/
def umountPartition (uuid : String) : Handler L := withAuth .now <| withCsrf .now fun _ _ st =>
  let r := L.system.umountPartition st.host (L.system.partitionByUuid st.host uuid)
  let st := { st with host := r.1 }
  if !r.2 then (st, .now (errResp "could not unmount (target busy?)" .conflict))
  else (st, .now okResp)

/-! ### Folders -/

/-- The prefix every path below a canonical folder has. -/
def baseSep (canonicalBase : String) : String :=
  if canonicalBase = "/" then canonicalBase else canonicalBase ++ "/"

/-- Is a path the base itself or spelled as something below it? -/
def insideBase (canonicalBase path : String) : Bool :=
  path = canonicalBase || (baseSep canonicalBase).toList.isPrefixOf path.toList

/-- The confinement root of a browse request, before it is resolved. -/
def browseBase (st : State L) (root uuid : String) : Except Response String :=
  if root = "script" then .ok (st.getValue "paths/scripts").toString
  else if root = "dest" then
    if uuid.isEmpty then .error (errResp "uuid required for dest browse" .badRequest)
    else
      let part := L.system.partitionByUuid st.host uuid
      if !L.system.isMounted st.host part then
        .error (errResp "partition not mounted" .conflict)
      else .ok (L.system.mountDir st.host part)
  -- Every other root is the whole file system.
  else .ok "/"

/-- `resolveBrowseTarget`: the canonical base and the canonical target, clamped to it. -/
def resolveBrowseTarget (st : State L) (root uuid path : String) :
    Except Response (String × String) :=
  match browseBase st root uuid with
  | .error e => .error e
  | .ok base =>
    if base.isEmpty then .error (errResp "invalid browse root" .badRequest)
    else
      let canonicalBase := L.system.canonicalPath st.host base
      if canonicalBase.isEmpty then .error (errResp "browse root unavailable" .notFound)
      else
        let canonicalTarget := L.system.canonicalPath st.host (if path.isEmpty then base else path)
        if !canonicalTarget.isEmpty && insideBase canonicalBase canonicalTarget then
          .ok (canonicalBase, canonicalTarget)
        -- A path that is not there or leads outside opens the base.
        else .ok (canonicalBase, canonicalBase)

/-- The parent folder a listing reports, clamped to the base. -/
def browseParent (L : Library) (canonicalBase canonicalTarget : String) : String :=
  let parent := if canonicalTarget = canonicalBase then canonicalBase
    else L.system.absolutePath canonicalTarget
  if insideBase canonicalBase parent then parent else canonicalBase

/-- GET /api/browse. -/
def browse : Handler L := withAuth .now <| reads fun req st =>
  match resolveBrowseTarget st (queryItemValue req "root") (queryItemValue req "uuid")
      (queryItemValue req "path") with
  | .error e => .now e
  | .ok (canonicalBase, canonicalTarget) =>
    let filter : EntryFilter := if queryItemValue req "files" = "1" then .dirsAndFiles else .dirs
    let list := L.system.entryInfoList st.host canonicalTarget filter
    .now <| jsonResp <| .obj
      [("base", .str canonicalBase), ("path", .str canonicalTarget),
       ("parent", .str (browseParent L canonicalBase canonicalTarget)),
       ("entries", .arr (list.map fun fi =>
         entryToJson { fi with size := if fi.isDir then 0 else fi.size }))]

/-- POST /api/mkdir. -/
def mkdir : Handler L := withAuth .now <| withCsrf .now fun req _ st =>
  let b := parseBody req
  let name := (b.get "name").toString
  if !validIdentifier name then (st, .now (errResp "invalid folder name" .badRequest))
  else
    match resolveBrowseTarget st (b.get "root").toString (b.get "uuid").toString
        (b.get "path").toString with
    | .error e => (st, .now e)
    | .ok (_, canonicalTarget) =>
      -- Only the folder was resolved; the name has no slash in it.
      if L.system.entryExists st.host canonicalTarget name then
        (st, .now (errResp "a file or folder with that name already exists" .conflict))
      else
        let r := L.system.makeDir st.host canonicalTarget name
        let st := { st with host := r.1 }
        if !r.2 then
          (st, .now (errResp "could not create folder (permission denied?)" .internalServerError))
        else
          (st, .now (jsonResp (.obj
            [("ok", .bool true), ("path", .str (canonicalTarget ++ "/" ++ name))])))

/-! ### Scripts -/

/-- Reading a file in text mode turns `\r\n` into `\n`. -/
def textMode : Bytes → Bytes
  | 13 :: 10 :: rest => 10 :: textMode rest
  | b :: rest => b :: textMode rest
  | [] => []

/-- GET /api/scripts. -/
def getScript : Handler L := withAuth .now <| reads fun req st =>
  let target := confineToScripts st (queryItemValue req "path")
  if target.isEmpty then .now (errResp "path outside scripts directory" .forbidden)
  else
    match L.system.readFile st.host target with
    | none => .now (errResp "script not found" .notFound)
    | some content => .now <| jsonResp <| .obj
        [("path", .str target), ("content", .str (fromUtf8 (textMode content)))]

/-- `saveScriptConfined`: opening truncates the file; how the write ends is not looked
at. -/
def saveScriptConfined (path content : String) (st : State L) : State L × Bool :=
  let target := confineToScripts st path
  if target.isEmpty then (st, false)
  else
    let r := L.system.openForWriting st.host target
    let st := { st with host := r.1 }
    if !r.2 then (st, false)
    -- The result of the write is not looked at.
    else ({ st with host := L.system.writeAndClose st.host target (toUtf8 content) }, true)

/-- PUT /api/scripts. -/
def putScript : Handler L := withAuth .now <| withCsrf .now fun req _ st =>
  let b := parseBody req
  let r := saveScriptConfined (b.get "path").toString (b.get "content").toString st
  if !r.2 then
    (r.1, .now (errResp "path must be under the configured scripts directory" .forbidden))
  else (r.1, .now okResp)

end Api

end TiBackup
