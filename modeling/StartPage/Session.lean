import StartPage.Settings

/-!
What is known of the running session and never stored: the host's window, and counters that
other parts of the page fill in. A Tor or Qwant window exists only in a private one. Consumers
see the settings and the session together.
-/
namespace StartPage

inductive TextDirection where
  | ltr
  | rtl
deriving DecidableEq, Repr, Inhabited

namespace TextDirection

def name : TextDirection → String
  | ltr => "ltr"
  | rtl => "rtl"

def all : List TextDirection := [ltr, rtl]

end TextDirection

structure Host where
  direction : TextDirection := .ltr
  incognito : Bool := false
  tor : Bool := false
  qwant : Bool := false
deriving DecidableEq, Repr, Inhabited

structure Counters where
  adsBlocked : UInt64 := 0
  javascriptBlocked : UInt64 := 0
  bandwidthSaved : UInt64 := 0
  fingerprintingBlocked : UInt64 := 0
deriving DecidableEq, Repr, Inhabited

structure Session where
  loaded : Bool := false
  direction : TextDirection := .ltr
  incognito : Bool := false
  alternativeSearch : Bool := false
  torCircuit : Bool := false
  torProgress : String := ""
  tor : Bool := false
  qwant : Bool := false
  counters : Counters := {}
deriving DecidableEq, Repr, Inhabited

def Session.ofHost (host : Host) : Session :=
  { direction := host.direction
    incognito := host.incognito
    tor := host.incognito && host.tor
    qwant := host.incognito && host.qwant }

structure Snapshot where
  settings : Settings
  session : Session
deriving DecidableEq, Inhabited

end StartPage
