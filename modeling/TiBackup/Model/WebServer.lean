import TiBackup.Model.Daemon

/-!
# TiBackup.Model.WebServer

`webserver/webserver.cpp`: the files of the web page. `serveStatic` answers every request
no API route is registered for: it resolves the path of the URL under the docroot and
sends what is in the file, unless the resolved path is outside.

Responses are those of Qt 6.7 and later; before 6.5 the same bodies go out without the
extra headers.
-/

namespace TiBackup

open Lib

/-- A response to a browser that loads the page. -/
structure StaticResponse where
  status : StatusCode
  mimeType : String
  headers : List (String × String)
  body : Bytes
  deriving Repr, DecidableEq

/-- File functions that only the page needs: `QDir::cleanPath` and `QFileInfo::isFile`. -/
structure StaticFiles (sys : HostSystem) where
  cleanPath : String → String
  isFile : sys.Host → String → Bool

/-- What the web server keeps of the configuration. -/
structure WebServer where
  docroot : String
  tls : Bool

variable {L : Library}

/-- The docroot and the TLS flag as the constructor sets them. `env` is the value of
`TIBACKUP_WEB_DOCROOT` if it is set, `pki` tells whether the self-signed pair is there. -/
def WebServer.ofConf (st : State L) (env : Option String) (pki : Bool) : WebServer :=
  let docroot := (st.getValue "web/docroot").toString
  let tlsCert := (st.getValue "web/tls_cert").toString
  let tlsKey := (st.getValue "web/tls_key").toString
  { docroot := env.getD (if docroot.isEmpty then "/var/lib/tibackup/www" else docroot)
    tls := if tlsCert.isEmpty && tlsKey.isEmpty then pki else !tlsCert.isEmpty && !tlsKey.isEmpty }

/-- File name endings and what is sent as the type, the first match counts. -/
def contentTypes : List (List String × String) :=
  [([".html", ".htm"], "text/html; charset=utf-8"),
    ([".js", ".mjs"], "text/javascript; charset=utf-8"),
    ([".css"], "text/css; charset=utf-8"),
    ([".json"], "application/json"),
    ([".svg"], "image/svg+xml"),
    ([".png"], "image/png"),
    ([".jpg", ".jpeg"], "image/jpeg"),
    ([".webp"], "image/webp"),
    ([".ico"], "image/x-icon"),
    ([".woff2"], "font/woff2"),
    ([".woff"], "font/woff"),
    ([".ttf"], "font/ttf"),
    ([".map"], "application/json"),
    ([".txt"], "text/plain; charset=utf-8")]

/-- `contentTypeFor`. -/
def contentTypeFor (path : String) : String :=
  let p := path.toList.map Char.toLower
  match contentTypes.find? fun t => t.1.any fun suffix => suffix.toList.isSuffixOf p with
  | some t => t.2
  | none => "application/octet-stream"

/-- The content security policy of the page. -/
def csp : String :=
  "default-src 'self'; script-src 'self' 'unsafe-eval'; style-src 'self' 'unsafe-inline'; " ++
    "img-src 'self' data:; font-src 'self'; connect-src 'self'; object-src 'none'; " ++
    "base-uri 'self'; form-action 'self'; frame-ancestors 'none'"

/-- `sendBody`. -/
def sendBody (mimeType : String) (body : Bytes) (secure : Bool) (status : StatusCode) :
    StaticResponse where
  status := status
  mimeType := mimeType
  headers := [("X-Content-Type-Options", "nosniff"), ("X-Frame-Options", "DENY"),
      ("Referrer-Policy", "no-referrer"), ("Content-Security-Policy", csp)] ++
    if secure then [("Strict-Transport-Security", "max-age=31536000")] else []
  body := body

/-- `sendStatus`. -/
def sendStatus (status : StatusCode) : StaticResponse where
  status := status
  mimeType := ""
  headers := []
  body := []

/-- `QFileInfo::canonicalFilePath`; an empty path is no file. -/
def canonicalFilePath (sys : HostSystem) (host : sys.Host) (path : String) : String :=
  if path.isEmpty then "" else sys.canonicalPath host path

/-- Answer to an API path no route is registered for. -/
def apiNotFound (ws : WebServer) : StaticResponse :=
  sendBody "application/json" (toUtf8 "\x7b\"error\":\"not found\"\x7d") ws.tls .notFound

/-- The path under the docroot that a URL path asks for. -/
def staticPath {sys : HostSystem} (ws : WebServer) (files : StaticFiles sys) (path : String) : String :=
  ws.docroot ++ files.cleanPath (if path.isEmpty || path = "/" then "/index.html" else path)

/-- `serveStatic`, on the path of the request's URL. -/
def serveStatic {sys : HostSystem} (ws : WebServer) (files : StaticFiles sys) (host : sys.Host)
    (path : String) : StaticResponse :=
  if "/api/".toList.isPrefixOf path.toList then apiNotFound ws
  else
    let full := staticPath ws files path
    -- Links are resolved on both sides before they are compared.
    let canonicalDoc := sys.canonicalPath host ws.docroot
    let canonicalFull := canonicalFilePath sys host full
    if canonicalDoc.isEmpty || canonicalFull.isEmpty ||
        !(canonicalFull = canonicalDoc ||
          (canonicalDoc ++ "/").toList.isPrefixOf canonicalFull.toList) ||
        !files.isFile host full then
      sendStatus .notFound
    else
      match sys.readFile host canonicalFull with
      | none => sendStatus .notFound
      | some content => sendBody (contentTypeFor canonicalFull) content ws.tls .ok

end TiBackup
