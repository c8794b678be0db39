import Tether.Error

/-!
# The answer to a handshake

A peer answers the request for an upgrade with a status line and headers, up to an empty line. The
upgrade takes place only if the status says so and the headers confirm it. `run_link` reports what
is wrong with an answer.
-/

namespace Tether.Link

/-- The usual wording of a status. -/
def statusReason : Nat → String
  | 100 => "Continue"
  | 101 => "Switching Protocols"
  | 102 => "Processing"
  | 103 => "Early Hints"
  | 200 => "OK"
  | 201 => "Created"
  | 202 => "Accepted"
  | 203 => "Non Authoritative Information"
  | 204 => "No Content"
  | 205 => "Reset Content"
  | 206 => "Partial Content"
  | 207 => "Multi-Status"
  | 208 => "Already Reported"
  | 226 => "IM Used"
  | 300 => "Multiple Choices"
  | 301 => "Moved Permanently"
  | 302 => "Found"
  | 303 => "See Other"
  | 304 => "Not Modified"
  | 305 => "Use Proxy"
  | 307 => "Temporary Redirect"
  | 308 => "Permanent Redirect"
  | 400 => "Bad Request"
  | 401 => "Unauthorized"
  | 402 => "Payment Required"
  | 403 => "Forbidden"
  | 404 => "Not Found"
  | 405 => "Method Not Allowed"
  | 406 => "Not Acceptable"
  | 407 => "Proxy Authentication Required"
  | 408 => "Request Timeout"
  | 409 => "Conflict"
  | 410 => "Gone"
  | 411 => "Length Required"
  | 412 => "Precondition Failed"
  | 413 => "Payload Too Large"
  | 414 => "URI Too Long"
  | 415 => "Unsupported Media Type"
  | 416 => "Range Not Satisfiable"
  | 417 => "Expectation Failed"
  | 418 => "I'm a teapot"
  | 421 => "Misdirected Request"
  | 422 => "Unprocessable Entity"
  | 423 => "Locked"
  | 424 => "Failed Dependency"
  | 425 => "Too Early"
  | 426 => "Upgrade Required"
  | 428 => "Precondition Required"
  | 429 => "Too Many Requests"
  | 431 => "Request Header Fields Too Large"
  | 451 => "Unavailable For Legal Reasons"
  | 500 => "Internal Server Error"
  | 501 => "Not Implemented"
  | 502 => "Bad Gateway"
  | 503 => "Service Unavailable"
  | 504 => "Gateway Timeout"
  | 505 => "HTTP Version Not Supported"
  | 506 => "Variant Also Negotiates"
  | 507 => "Insufficient Storage"
  | 508 => "Loop Detected"
  | 510 => "Not Extended"
  | 511 => "Network Authentication Required"
  | _ => "<unknown status code>"

/-- The lines of an answer up to the empty line that ends it; `none` if there is no such line.
`line` holds the present line so far, last character first. -/
def headLines (line : List Char) : List Char → Option (List String)
  | [] => none
  | '\n' :: rest =>
    let text := String.ofList ((line.dropWhile (· == '\r')).reverse)
    if text.isEmpty then some [] else (headLines [] rest).map (text :: ·)
  | c :: rest => headLines (c :: line) rest

/-- The status code of a status line. -/
def statusCode? (line : String) : Option Nat :=
  let after := (line.toList.dropWhile (· != ' ')).drop 1
  let digits := after.takeWhile Char.isDigit
  if digits.length = 3 then some (digits.foldl (fun n c => 10 * n + (c.toNat - '0'.toNat)) 0)
  else none

/-- A text in lower case, without blanks around it. -/
def normal (cs : List Char) : String :=
  let trim (cs : List Char) : List Char := cs.dropWhile fun c => c == ' ' || c == '\t'
  String.ofList ((trim (trim cs).reverse).reverse.map Char.toLower)

/-- Whether a header of this name has this value; both in lower case. -/
def hasHeader (lines : List String) (name value : String) : Bool :=
  lines.any fun line =>
    normal (line.toList.takeWhile (· != ':')) == name &&
      normal ((line.toList.dropWhile (· != ':')).drop 1) == value

/-- What is wrong with an answer that was fixed before the request was known. Since it cannot
contain the proof that the request was understood, there is always something. -/
def answerFault (answer : String) : LinkFault :=
  match headLines [] answer.toList with
  | none | some [] => .handshakeIncomplete
  | some (first :: headers) =>
    match statusCode? first with
    | none => .handshakeIncomplete
    | some code =>
      if code != 101 then .status code (statusReason code)
      else if !hasHeader headers "upgrade" "websocket" then .noUpgradeHeader
      else if !hasHeader headers "connection" "upgrade" then .noConnectionHeader
      else .acceptMismatch

end Tether.Link
