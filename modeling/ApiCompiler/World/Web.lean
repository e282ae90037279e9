import ApiCompiler.Location.Url

/-!
Answers of web servers, and the ways in which fetching a document fails.
-/

namespace ApiCompiler

structure WebAnswer where
  status : Nat
  headers : List (String × String)
  text : String
  deriving DecidableEq

namespace WebAnswer

private def lower (text : String) : List Char :=
  text.toList.map Char.toLower

/-- A header by its name in any letter case. -/
def header? (name : String) (answer : WebAnswer) : Option String :=
  (answer.headers.find? fun (key, _) => lower key = lower name).map Prod.snd

def isSuccess (answer : WebAnswer) : Bool :=
  200 ≤ answer.status && answer.status ≤ 299

def redirection? (answer : WebAnswer) : Option String :=
  if [301, 302, 303, 307, 308].contains answer.status then answer.header? "location" else none

end WebAnswer

inductive WebFault
  | refused
  /-- No request can be made for what is no address. -/
  | address (text : String)
  | tooManyRedirects
  | status (code : Nat) (url : String) (redirection : Option String)
  deriving DecidableEq

namespace WebFault

private def reasons : List (Nat × String) :=
  [(100, "Continue"), (101, "Switching Protocols"), (102, "Processing"), (103, "Early Hints"),
    (200, "OK"), (201, "Created"), (202, "Accepted"), (203, "Non-Authoritative Information"),
    (204, "No Content"), (205, "Reset Content"), (206, "Partial Content"), (207, "Multi-Status"),
    (208, "Already Reported"), (226, "IM Used"), (300, "Multiple Choices"),
    (301, "Moved Permanently"), (302, "Found"), (303, "See Other"), (304, "Not Modified"),
    (305, "Use Proxy"), (307, "Temporary Redirect"), (308, "Permanent Redirect"),
    (400, "Bad Request"), (401, "Unauthorized"), (402, "Payment Required"), (403, "Forbidden"),
    (404, "Not Found"), (405, "Method Not Allowed"), (406, "Not Acceptable"),
    (407, "Proxy Authentication Required"), (408, "Request Timeout"), (409, "Conflict"),
    (410, "Gone"), (411, "Length Required"), (412, "Precondition Failed"),
    (413, "Request Entity Too Large"), (414, "Request-URI Too Long"),
    (415, "Unsupported Media Type"), (416, "Requested Range Not Satisfiable"),
    (417, "Expectation Failed"), (418, "I'm a teapot"), (421, "Misdirected Request"),
    (422, "Unprocessable Entity"), (423, "Locked"), (424, "Failed Dependency"),
    (425, "Too Early"), (426, "Upgrade Required"), (428, "Precondition Required"),
    (429, "Too Many Requests"), (431, "Request Header Fields Too Large"),
    (451, "Unavailable For Legal Reasons"), (500, "Internal Server Error"),
    (501, "Not Implemented"), (502, "Bad Gateway"), (503, "Service Unavailable"),
    (504, "Gateway Timeout"), (505, "HTTP Version Not Supported"),
    (506, "Variant Also Negotiates"), (507, "Insufficient Storage"), (508, "Loop Detected"),
    (510, "Not Extended"), (511, "Network Authentication Required")]

private def family (code : Nat) : String :=
  match code / 100 with
  | 1 => "Informational response"
  | 3 => "Redirect response"
  | 4 => "Client error"
  | 5 => "Server error"
  | _ => "Invalid status code"

def message : WebFault → String
  | .refused => "connection refused"
  | .address text => text
  | .tooManyRedirects => "Exceeded maximum allowed redirects."
  | .status code url redirection =>
      let reason := (reasons.lookup code).getD ""
      family code ++ " '" ++ toString code ++ " " ++ reason ++ "' for url '" ++ url ++ "'" ++
        (match redirection with
          | none => ""
          | some target => "\nRedirect location: '" ++ target ++ "'") ++
        "\nFor more information check: https://developer.mozilla.org/en-US/docs/Web/HTTP/Status/" ++
        toString code

end WebFault

abbrev Web := List (String × WebAnswer)

namespace Web

/-- The answer at an address in its one form. -/
def answer? (web : Web) (address : String) : Option WebAnswer :=
  (web.find? fun (other, _) => Url.canonical other = address).map Prod.snd

/-- More redirections in a row than this are not followed. -/
def redirectionLimit : Nat := 20

private def fetchWithin (web : Web) : (redirections : Nat) → (address : String) →
    Except WebFault WebAnswer
  | redirections, address =>
      match web.answer? address with
      | none => .error .refused
      | some answer =>
          match answer.redirection? with
          | none =>
              if answer.isSuccess then .ok answer else .error (.status answer.status address none)
          | some target =>
              match redirections with
              | 0 => .error .tooManyRedirects
              | redirections + 1 =>
                  match Url.join address target with
                  | .ok next => fetchWithin web redirections (Url.canonical next)
                  | .error _ => .error .refused

/-- The successful answer at an address, with redirections followed or refused. -/
def fetch (web : Web) (follow : Bool) (address : String) : Except WebFault WebAnswer :=
  let address := Url.canonical address
  if follow then fetchWithin web redirectionLimit address
  else
    match web.answer? address with
    | none => .error .refused
    | some answer =>
        if answer.isSuccess then .ok answer
        else .error (.status answer.status address answer.redirection?)

end Web

end ApiCompiler
