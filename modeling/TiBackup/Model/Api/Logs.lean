import TiBackup.Model.Api.Files

/-!
# TiBackup.Model.Api.Logs

`/api/logs`: the daemon log, the run logs in the detail folder, and the raw rsync
logs in one folder per job.

A log file is a byte string; `size`, `seek` and `readAll` of one request see the same
one. The views cut at a number of bytes and drop the partial first line.
-/

namespace TiBackup

open Lib

variable {L : Library}

namespace Api

/-- Daemon log. -/
def kMaxLogTailBytes : Nat := 256 * 1024

/-- First view of a run or rsync log. -/
def kMaxLogPreviewBytes : Nat := 2 * 1024 * 1024

/-- Ceiling of "Load full log". -/
def kMaxLogFullBytes : Nat := 64 * 1024 * 1024

/-- A log as the viewer gets it. -/
structure LogView where
  text : String
  truncated : Bool
  deriving Repr, DecidableEq

/-- `readLine`: drop everything up to and including the first line break. -/
def dropLine (bs : Bytes) : Bytes := (bs.dropWhile (· ≠ 10)).drop 1

/-- `readLogForView`, of a file opened in text mode. -/
def readLogForView (file : Bytes) (full : Bool) : LogView :=
  let cap := if full then kMaxLogFullBytes else kMaxLogPreviewBytes
  if file.length > cap then
    { text := fromUtf8 (textMode (dropLine (file.drop (file.length - cap)))), truncated := true }
  else { text := fromUtf8 (textMode file), truncated := false }

/-- GET /api/logs/main. -/
def mainLog : Handler L := withAuth .now <| reads fun req st =>
  let asked := ((parseInt32 (queryItemValue req "lines")).getD 0).toNat
  let lines := if asked = 0 then 200 else asked
  let path := (st.getValue "paths/logs").toString ++ "/tibackup.log"
  let content := match L.system.readFile st.host path with
    | some f => if f.length > kMaxLogTailBytes then f.drop (f.length - kMaxLogTailBytes) else f
    | none => []
  let all := content.splitOn 10
  let out := (all.drop (all.length - lines)).map fromUtf8
  .now (jsonResp (.obj [("text", .str ("\n".intercalate out))]))

/-- `completeBaseName`: the file name up to its last dot. -/
def completeBaseName (fileName : String) : String :=
  String.ofList ((fileName.toList.reverse.dropWhile (· ≠ '.')).drop 1).reverse

/-- Split a text at every `__`, from the left. -/
def splitDoubleUnderscore : List Char → List Char → List (List Char)
  | acc, '_' :: '_' :: rest => acc.reverse :: splitDoubleUnderscore [] rest
  | acc, c :: rest => splitDoubleUnderscore (c :: acc) rest
  | acc, [] => [acc.reverse]

/-- GET /api/logs/runs: files named `<date>__<name>.log`. -/
def runLogs : Handler L := withAuth .now <| reads fun _ st =>
  let list := L.system.entryInfoList st.host (L.getLogsDetailDir st.conf) .logFiles
  .now <| jsonResp <| .arr <| list.map fun fi =>
    let base := completeBaseName fi.fileName
    let parts := (splitDoubleUnderscore [] base.toList).map String.ofList
    .obj [("file", .str base), ("date", .str (parts.getD 0 "")), ("name", .str (parts.getD 1 ""))]

/-- A file name that stays in its folder. -/
def plainFileName (file : String) : Bool :=
  !(file.toList.contains '/') && !(file.toList.tails.any fun t => ['.', '.'].isPrefixOf t)

/-- GET /api/logs/runs/<file>: the tail of a log, or what was appended since an
offset. -/
def runLog (file : String) : Handler L := withAuth .now <| reads fun req st =>
  if !plainFileName file then .now (errResp "invalid file" .badRequest)
  else
    match L.system.readFile st.host (L.getLogsDetailDir st.conf ++ "/" ++ file ++ ".log") with
    | none => .now (errResp "log not found" .notFound)
    | some f =>
      let wantFull := queryItemValue req "full" = "1"
      let v : LogView := match parseInt64 (queryItemValue req "offset") with
        | some offset =>
          if 0 ≤ offset ∧ offset ≤ f.length then
            { text := fromUtf8 (textMode (f.drop offset.toNat)), truncated := false }
          -- The log was truncated or rotated since.
          else readLogForView f wantFull
        | none => readLogForView f wantFull
      .now <| jsonResp <| .obj
        [("text", .str v.text), ("truncated", .bool v.truncated), ("offset", .int f.length)]

/-- GET /api/logs/rsync: the logs of every job folder but the detail folder. -/
def rsyncLogs : Handler L := withAuth .now <| reads fun _ st =>
  let root := (st.getValue "paths/logs").toString
  let jobDirs := (L.system.entryInfoList st.host root .dirs).filter fun d =>
    d.fileName ≠ L.system.backupDetailFolder
  .now <| jsonResp <| .arr <| jobDirs.flatMap fun jobDir =>
    (L.system.entryInfoList st.host (root ++ "/" ++ jobDir.fileName) .logFiles).map fun fi =>
      let base := completeBaseName fi.fileName
      -- The name begins with the date; the file has one, should that be unreadable.
      let date := (L.system.runLogDate (String.ofList (base.toList.takeWhile (· ≠ '_')))).getD
        fi.lastModified
      .obj [("job", .str jobDir.fileName), ("file", .str base),
        ("date", .str (L.system.formatDate date))]

/-- GET /api/logs/rsync/<job>/<file>. -/
def rsyncLog (job file : String) : Handler L := withAuth .now <| reads fun req st =>
  if !validIdentifier job || job = L.system.backupDetailFolder then
    .now (errResp "invalid job" .badRequest)
  else if !plainFileName file then .now (errResp "invalid file" .badRequest)
  else
    let full := (st.getValue "paths/logs").toString ++ "/" ++ job ++ "/" ++ file ++ ".log"
    match L.system.readFile st.host full with
    | none => .now (errResp "log not found" .notFound)
    | some f =>
      let v := readLogForView f (queryItemValue req "full" = "1")
      .now (jsonResp (.obj [("text", .str v.text), ("truncated", .bool v.truncated)]))

end Api

end TiBackup
