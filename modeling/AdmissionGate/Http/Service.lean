-- The service: health checks, which pass by the firewall, and everything
-- else, which it guards.
import AdmissionGate.Firewall.Basic
import AdmissionGate.Http.Transfer
import AdmissionGate.Text.FormEncoding

namespace AdmissionGate.Http

structure Response where
  status : Nat
  contentType : Option String
  /-- The methods that the path has, told when the method was another one. -/
  allow : Option String
  body : String
  deriving DecidableEq

namespace Response

def bare (status : Nat) : Response := ⟨status, none, none, ""⟩

def plain (status : Nat) (body : String) : Response :=
  ⟨status, some "text/plain; charset=utf-8", none, body⟩

end Response

/-! ## Routes -/

inductive Route where
  | health
  | ping
  | nowhere
  deriving DecidableEq, Repr

namespace Route

def ofPath (path : String) : Route :=
  if path == "/health" then .health else if path == "/ping" then .ping else .nowhere

/-- The methods that a route has, `none` if it has all of them. -/
def methods : Route → Option (List String)
  | .health => some ["GET", "HEAD"]
  | .ping => some ["GET", "HEAD", "POST"]
  | .nowhere => none

/-- Whether the firewall stands before a route. -/
def isGuarded : Route → Bool
  | .health => false
  | .ping => true
  | .nowhere => true

def accepts (r : Route) (method : String) : Bool :=
  (r.methods.map (·.contains method)).getD true

/-- The answer of a route to a method that it has. -/
def answer : Route → Response
  | .health => ⟨200, some "application/json", none, "\x7b\"status\":\"ok\"\x7d"⟩
  | .ping => .plain 200 "pong"
  | .nowhere => .plain 404 "Not Found"

end Route

/-! ## Answers -/

structure Service where
  settings : Settings
  firewall : Firewall

namespace Service

/-- The service that has seen no request. -/
def start (settings : Settings) (now : Moment) : Service :=
  ⟨settings, Firewall.start settings.firewall KeywordFilter.standard now⟩

/-- What the firewall sees of a request with this body. -/
def visit (s : Service) (peer : Ip) (r : Request) (body : Bytes) : Visit where
  ip := clientAddress r.headers peer s.settings.listener.behindProxy
  rawQuery := r.target.query.getD ""
  body := body
  isUpload := isUpload r.headers
  query := Table.ofList (FormEncoding.read (r.target.query.getD ""))

/-- The response to a request, the firewall's decision if it came to one, and the service
afterwards. A request that cannot be finished in time gets 408, one with too large a body
413, one that the firewall rejects 406. -/
def respond (s : Service) (peer : Ip) (r : Request) (now : Moment) :
    Response × Option Verdict × Service :=
  let route := Route.ofPath r.target.path
  let reply := if route.accepts r.method then route.answer else .bare 405
  -- Only settings that were not validated have no time at all. There a server may still send an
  -- answer that is ready at once.
  if s.settings.timeouts.requestSecs = 0 then (.bare 408, none, s)
  else if !route.isGuarded then (reply, none, s)
  else match r.body with
    | none => (.bare 408, none, s)
    | some body =>
      if s.settings.listener.maxBodyBytes < body.length then (.bare 413, none, s)
      else
        let (verdict, firewall) := s.firewall.judge (s.visit peer r body) now
        let s := { s with firewall }
        match verdict with
        | .admitted => (reply, some verdict, s)
        | .rejected _ => (.bare 406, some verdict, s)

/-- Answers a request. Whatever the response is, it names the methods of the path if it has
not the one asked for, and its body is left out if the method is `HEAD`. -/
def handle (s : Service) (peer : Ip) (r : Request) (now : Moment) :
    Response × Option Verdict × Service :=
  let route := Route.ofPath r.target.path
  let (response, verdict, s) := s.respond peer r now
  let allow := if route.accepts r.method then none else route.methods.map (",".intercalate ·)
  ({ response with allow, body := if r.method == "HEAD" then "" else response.body }, verdict, s)

/-- Answers a request whose body is read within the room and the time that the settings give.
The clock is that of the decision. -/
def serve (s : Service) (peer : Ip) (sent : Sending) (now : Moment) :
    Response × Option Verdict × Service :=
  let room := s.settings.listener.maxBodyBytes
  let time := s.settings.timeouts.requestSecs * 1000
  s.handle peer (sent.request room time) now

/-- The service after its firewall was offered a record, unless it is none. -/
def applyRecord? (s : Service) (raw : Bytes) : Option Service :=
  (s.firewall.applyRecord? raw).map fun firewall => { s with firewall }

end Service

end AdmissionGate.Http
