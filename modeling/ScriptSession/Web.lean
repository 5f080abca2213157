/-!
# The web

How a request to an address goes. Either an answer arrives, with a status and a body that can
itself fail to arrive whole, or the request ends in an error.
-/

namespace ScriptSession
namespace Web

/-- An error of a request: whether it took too long, whether no connection came about, and what
is said about it. -/
structure Fault where
  isTimeout : Bool
  isConnect : Bool
  text : String
deriving DecidableEq, Repr

/-- The status of an answer. -/
structure Status where
  code : Nat
deriving DecidableEq, Repr

namespace Status

/-- What the status says about a request for something that is not there. -/
def notFound : Status := ⟨404⟩

/-- Whether the request succeeded. -/
def isSuccess (s : Status) : Bool := 200 ≤ s.code && s.code < 300

/-- The phrase that goes with a status. -/
def phrase? (s : Status) : Option String :=
  match s.code with
  | 100 => some "Continue"
  | 101 => some "Switching Protocols"
  | 102 => some "Processing"
  | 200 => some "OK"
  | 201 => some "Created"
  | 202 => some "Accepted"
  | 203 => some "Non Authoritative Information"
  | 204 => some "No Content"
  | 205 => some "Reset Content"
  | 206 => some "Partial Content"
  | 207 => some "Multi-Status"
  | 208 => some "Already Reported"
  | 226 => some "IM Used"
  | 300 => some "Multiple Choices"
  | 301 => some "Moved Permanently"
  | 302 => some "Found"
  | 303 => some "See Other"
  | 304 => some "Not Modified"
  | 305 => some "Use Proxy"
  | 307 => some "Temporary Redirect"
  | 308 => some "Permanent Redirect"
  | 400 => some "Bad Request"
  | 401 => some "Unauthorized"
  | 402 => some "Payment Required"
  | 403 => some "Forbidden"
  | 404 => some "Not Found"
  | 405 => some "Method Not Allowed"
  | 406 => some "Not Acceptable"
  | 407 => some "Proxy Authentication Required"
  | 408 => some "Request Timeout"
  | 409 => some "Conflict"
  | 410 => some "Gone"
  | 411 => some "Length Required"
  | 412 => some "Precondition Failed"
  | 413 => some "Payload Too Large"
  | 414 => some "URI Too Long"
  | 415 => some "Unsupported Media Type"
  | 416 => some "Range Not Satisfiable"
  | 417 => some "Expectation Failed"
  | 418 => some "I'm a teapot"
  | 421 => some "Misdirected Request"
  | 422 => some "Unprocessable Entity"
  | 423 => some "Locked"
  | 424 => some "Failed Dependency"
  | 426 => some "Upgrade Required"
  | 428 => some "Precondition Required"
  | 429 => some "Too Many Requests"
  | 431 => some "Request Header Fields Too Large"
  | 451 => some "Unavailable For Legal Reasons"
  | 500 => some "Internal Server Error"
  | 501 => some "Not Implemented"
  | 502 => some "Bad Gateway"
  | 503 => some "Service Unavailable"
  | 504 => some "Gateway Timeout"
  | 505 => some "HTTP Version Not Supported"
  | 506 => some "Variant Also Negotiates"
  | 507 => some "Insufficient Storage"
  | 508 => some "Loop Detected"
  | 510 => some "Not Extended"
  | 511 => some "Network Authentication Required"
  | _ => none

/-- A status as it is written. -/
def text (s : Status) : String :=
  toString s.code ++ " " ++ s.phrase?.getD "<unknown status code>"

end Status

/-- An answer to a request. -/
structure Answer where
  status : Status
  body : Except Fault ByteArray

/-- How a request goes. -/
abbrev Exchange := Except Fault Answer

/-- Nobody takes a request for an address. -/
def unreachable (url : String) : Exchange :=
  .error ⟨false, true, "error sending request for url (" ++ url ++ ")"⟩

end Web
end ScriptSession
