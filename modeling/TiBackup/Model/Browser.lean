import TiBackup.Model.Api.Auth
import TiBackup.Model.DiskMain
import TiBackup.Session.Expiry

/-!
# TiBackup.Model.Browser

**A browser that is logged in**, as far as its session cookie is concerned. It keeps the
cookie for the `Max-Age` it was given at login and sends it with every request in that
time. No response but that of a login sets the cookie anew.
-/

namespace TiBackup

open Lib Lib.Machine

/-- The session cookie in a browser. -/
structure SessionCookie where
  token : String
  /-- The last second in which the browser has it. -/
  expires : Int
  deriving Repr, DecidableEq

/-- What a browser keeps of a `Set-Cookie` header it gets at some time. -/
def receiveCookie (setCookie : String) (now : Int) : Option SessionCookie :=
  match (setCookie.toList.splitOn ';').map cookieItem with
  | some (name, token) :: attributes =>
    if name = "tibackup_sid" then
      (attributes.findSome? fun a =>
        a.bind fun kv => if kv.1 = "Max-Age" then parseInt kv.2 else none).map
          fun age => { token, expires := now + age }
    else none
  | _ => none

/-- The `Set-Cookie` header of an answer. -/
def setCookieOf : Reply → Option String
  | .now r => r.setCookie
  | .later _ => none

/-- A browser with its cookie, and the session table of the daemon. -/
structure SignedIn where
  cookie : SessionCookie
  sessions : SessionStore

inductive BrowserEvent
  /-- The browser asks for something that is behind the session check. -/
  | request (now : Int)
  /-- Somebody else uses the session table. -/
  | other (c : SessionStore.Call)

namespace BrowserEvent

/-- The first clock reading. -/
def start : BrowserEvent → Int
  | request now => now
  | other c => c.start

/-- The last clock reading. -/
def stop : BrowserEvent → Int
  | request now => now
  | other c => c.stop

end BrowserEvent

namespace SignedIn

/-- The browser has the cookie. -/
def Holds (s : SignedIn) (now : Int) : Prop := now ≤ s.cookie.expires

instance (s : SignedIn) (now : Int) : Decidable (s.Holds now) :=
  inferInstanceAs (Decidable (now ≤ s.cookie.expires))

/-- The daemon would accept the session. -/
def Accepts (s : SignedIn) (now : Int) : Prop :=
  (s.sessions.validate now s.cookie.token).2 = true

/-- One event; the output tells whether the session check let a request through. -/
def step (s : SignedIn) : BrowserEvent → SignedIn × Option Bool
  | .request now =>
    let v := s.sessions.validate now (if s.Holds now then s.cookie.token else "")
    ({ s with sessions := v.1 }, some v.2)
  | .other c => ({ s with sessions := SessionStore.machine.next s.sessions c }, none)

def machine : Machine SignedIn BrowserEvent (Option Bool) where
  step := step

end SignedIn

end TiBackup
