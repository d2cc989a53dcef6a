-- URLs that name a host: their parts, and the text that they are written as.
import AdmissionGate.Url.Host

namespace AdmissionGate

/-- A URL with a host. Its parts are kept in the form in which they are written; a path is
given by its segments, so that `/a/` is `["a", ""]` and no path at all is `[]`. -/
structure Url where
  scheme : String
  username : String
  password : String
  host : Host
  /-- The port, unless it is the usual one of the scheme. -/
  port : Option Nat
  path : List String
  query : Option String
  fragment : Option String
  deriving DecidableEq

namespace Url

/-- The name and the password, if one of them is given. -/
def userinfoText (u : Url) : String :=
  if u.username == "" && u.password == "" then ""
  else u.username ++ (if u.password == "" then "" else ":" ++ u.password) ++ "@"

def pathText (path : List String) : String := String.join (path.map ("/" ++ ·))

def toText (u : Url) : String :=
  u.scheme ++ "://" ++ u.userinfoText ++ u.host.toText
    ++ ((u.port.map fun p => s!":{p}").getD "") ++ pathText u.path
    ++ ((u.query.map ("?" ++ ·)).getD "") ++ ((u.fragment.map ("#" ++ ·)).getD "")

/-- What is asked of the host: the path and the query. -/
def target (u : Url) : String := pathText u.path ++ ((u.query.map ("?" ++ ·)).getD "")

def isDirectory (u : Url) : Bool := u.path.getLast? == some ""

def asDirectory (u : Url) : Url := if u.isDirectory then u else { u with path := u.path ++ [""] }

end Url

end AdmissionGate
