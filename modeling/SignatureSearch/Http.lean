/-
# `Http` — requests, answers and redirects

A network is a list of routes; the first one with the method and the address of
a request answers it.  A request may follow redirects, up to a limit, and every
request that is sent is recorded.  Where an answer redirects to has to be an
address, also if the redirect is not followed, and the name of its host has to
be one that can be decoded.
-/
import SignatureSearch.Text.Ascii
import SignatureSearch.Url.Reference

namespace SignatureSearch.Http

inductive Method where
  | get
  | post
deriving DecidableEq, Repr

def Method.text : Method → String
  | .get => "GET"
  | .post => "POST"

structure Response where
  status : Nat
  body : List UInt8
  location : Option String
deriving DecidableEq, Repr

/-- A route: which requests it answers, and how; or the reason why it cannot be reached. -/
structure Route where
  method : String
  url : String
  answer : Except String Response

abbrev Network := List Route

/-- What can go wrong with a request. -/
inductive Error where
  /-- The other side cannot be reached. -/
  | connect (reason : String)
  | tooManyRedirects
  /-- The request has no address, or is redirected to none. -/
  | address (error : Url.Error)
  /-- The location in an answer is no address. -/
  | badLocation (error : Url.Error)
  /-- The host of the request, or the location in an answer, is not in ASCII. -/
  | foreignText (failure : Text.Ascii.Failure)
  /-- The name of a host cannot be decoded. -/
  | host (error : Url.LabelError)
  /-- An answer came, but the address of the request does not say of which type it is. -/
  | untyped (url : String)
  /-- The zone of a host is cut off, so that no host is left. -/
  | zone (text : String)
  /-- The answer has a status other than success. -/
  | status (url : String) (response : Response)
deriving DecidableEq, Repr

def reasonPhrases : List (Nat × String) :=
  [(100, "Continue"), (101, "Switching Protocols"), (102, "Processing"), (103, "Early Hints"),
   (200, "OK"), (201, "Created"), (202, "Accepted"), (203, "Non-Authoritative Information"),
   (204, "No Content"), (205, "Reset Content"), (206, "Partial Content"), (207, "Multi-Status"),
   (208, "Already Reported"), (226, "IM Used"),
   (300, "Multiple Choices"), (301, "Moved Permanently"), (302, "Found"), (303, "See Other"),
   (304, "Not Modified"), (305, "Use Proxy"), (307, "Temporary Redirect"),
   (308, "Permanent Redirect"),
   (400, "Bad Request"), (401, "Unauthorized"), (402, "Payment Required"), (403, "Forbidden"),
   (404, "Not Found"), (405, "Method Not Allowed"), (406, "Not Acceptable"),
   (407, "Proxy Authentication Required"), (408, "Request Timeout"), (409, "Conflict"),
   (410, "Gone"), (411, "Length Required"), (412, "Precondition Failed"),
   (413, "Request Entity Too Large"), (414, "Request-URI Too Long"),
   (415, "Unsupported Media Type"), (416, "Requested Range Not Satisfiable"),
   (417, "Expectation Failed"), (418, "I'm a teapot"), (421, "Misdirected Request"),
   (422, "Unprocessable Entity"), (423, "Locked"), (424, "Failed Dependency"),
   (425, "Too Early"), (426, "Upgrade Required"), (428, "Precondition Required"),
   (429, "Too Many Requests"), (431, "Request Header Fields Too Large"),
   (451, "Unavailable For Legal Reasons"),
   (500, "Internal Server Error"), (501, "Not Implemented"), (502, "Bad Gateway"),
   (503, "Service Unavailable"), (504, "Gateway Timeout"), (505, "HTTP Version Not Supported"),
   (506, "Variant Also Negotiates"), (507, "Insufficient Storage"), (508, "Loop Detected"),
   (510, "Not Extended"), (511, "Network Authentication Required")]

def statusClass (status : Nat) : String :=
  match status / 100 with
  | 1 => "Informational response"
  | 3 => "Redirect response"
  | 4 => "Client error"
  | 5 => "Server error"
  | _ => "Invalid status code"

def Response.isSuccess (r : Response) : Bool :=
  r.status / 100 = 2

def redirectStatuses : List Nat := [301, 302, 303, 307, 308]

def Response.redirect? (r : Response) : Option String :=
  if redirectStatuses.contains r.status then r.location else none

/-- Where statuses are explained. -/
def statusPages : String := "https://developer.mozilla.org/en-US/docs/Web/HTTP/Status/"

def Error.message : Error → String
  | .connect reason => reason
  | .tooManyRedirects => "Exceeded maximum allowed redirects."
  | .address error => error.message
  | .badLocation error => s!"Invalid URL in location header: {error.message}."
  | .foreignText failure => failure.message
  | .host error => error.message
  | .untyped url => s!"unknown url type: {Text.quoted url}"
  | .zone text => s!"{Text.quoted text} does not appear to be an IPv4 or IPv6 address"
  | .status url r =>
    let phrase := (reasonPhrases.lookup r.status).getD ""
    let redirect :=
      match r.redirect? with
      | some location => s!"Redirect location: '{location}'\n"
      | none => ""
    s!"{statusClass r.status} '{r.status} {phrase}' for url '{url}'\n{redirect}"
      ++ s!"For more information check: {statusPages}{r.status}"

def Network.answer (network : Network) (method : Method) (url : Url) : Except Error Response := do
  match network.find? fun r => r.method == method.text && r.url == url.text with
  | some route =>
    let response ← route.answer.mapError .connect
    (Text.Ascii.check (response.location.getD "").toList).mapError .foreignText
    return response
  | none => throw (.connect "no route")

/-- Where a location leads from the address of a request. -/
def target (url : Url) (location : String) : Except Error Url :=
  match url.redirect location with
  | .ok target => .ok target
  | .error (.location error) => .error (.badLocation error)
  | .error (.target error) => .error (.address error)
  | .error (.host error) => .error (.host error)
  | .error (.zone address) => .error (.zone address)

/-- One request: the answer and, if it redirects, where it leads. -/
def ask (network : Network) (method : Method) (url : Url) :
    Except Error (Response × Option Url) := do
  let response ← network.answer method url
  if !url.isTyped then throw (.untyped url.shownText)
  if let some address := url.cutZone? then throw (.zone address)
  match response.redirect? with
  | some location => return (response, some (← target url location))
  | none => return (response, none)

/-- What came of a request: the addresses that were asked, and the last answer with its address. -/
structure Exchange where
  asked : List String
  result : Except Error (String × Response)

/-- Sends a request to an address and follows at most so many redirects. -/
def follow (network : Network) (method : Method) (redirects : Nat) (url : Url) : Exchange :=
  match ask network method url with
  | .error e => ⟨[url.text], .error e⟩
  | .ok (response, none) => ⟨[url.text], .ok (url.text, response)⟩
  | .ok (_, some target) =>
    match redirects with
    | 0 => ⟨[url.text], .error .tooManyRedirects⟩
    | redirects + 1 =>
      let rest := follow network method redirects target
      { rest with asked := url.text :: rest.asked }

/-- Where a request that is made out to an address is sent. -/
def requestUrl (address : String) : Except Error Url := do
  let url ← (Url.ofRequest address).mapError .address
  (Text.Ascii.check url.hostAndPort).mapError .foreignText
  let _ ← url.plainHost.mapError .host
  return url

/-- Sends a request that is made out to an address, by a way of sending it. -/
def sendTo (address : String) (send : Url → Exchange) : Exchange :=
  match requestUrl address with
  | .error e => ⟨[], .error e⟩
  | .ok url => send url

/-- Sends a single request and follows no redirect. -/
def send (network : Network) (method : Method) (address : String) : Exchange :=
  sendTo address fun url =>
    ⟨[url.text], (ask network method url).map fun (response, _) => (url.text, response)⟩

/-- Sends a request and follows at most so many redirects. -/
def fetch (network : Network) (method : Method) (redirects : Nat) (address : String) : Exchange :=
  sendTo address (follow network method redirects)

/-- Takes the answer of an exchange, if it means success. -/
def Exchange.success (e : Exchange) : Except Error Response := do
  let (url, response) ← e.result
  if response.isSuccess then return response else throw (.status url response)

/-- The requests of an exchange, as they are recorded. -/
def Exchange.log (e : Exchange) (method : Method) : List String :=
  e.asked.map fun url => s!"{method.text} {url}"

end SignatureSearch.Http
