/-!
# Response statuses

A status is a number of three digits, from 100 to 999. Most of the assigned ones have a reason phrase.
-/

namespace Switchyard.Http

structure Status where
  code : Nat
  low : 100 ≤ code := by decide
  high : code ≤ 999 := by decide
  deriving DecidableEq

namespace Status

def ofCode? (code : Nat) : Option Status :=
  if h : 100 ≤ code ∧ code ≤ 999 then some ⟨code, h.1, h.2⟩ else none

def ok : Status := ⟨200, by decide, by decide⟩
def noContent : Status := ⟨204, by decide, by decide⟩
def movedPermanently : Status := ⟨301, by decide, by decide⟩
def found : Status := ⟨302, by decide, by decide⟩
def notModified : Status := ⟨304, by decide, by decide⟩
def forbidden : Status := ⟨403, by decide, by decide⟩
def notFound : Status := ⟨404, by decide, by decide⟩
def methodNotAllowed : Status := ⟨405, by decide, by decide⟩
def serverError : Status := ⟨500, by decide, by decide⟩

/-- The phrases of the statuses that have one. -/
def reasons : List (Nat × String) :=
  [(100, "Continue"), (101, "Switching Protocols"), (102, "Processing"), (103, "Early Hints"),
    (200, "OK"), (201, "Created"), (202, "Accepted"), (203, "Non Authoritative Information"), (204, "No Content"),
    (205, "Reset Content"), (206, "Partial Content"), (207, "Multi-Status"), (208, "Already Reported"),
    (226, "IM Used"), (300, "Multiple Choices"), (301, "Moved Permanently"), (302, "Found"), (303, "See Other"),
    (304, "Not Modified"), (305, "Use Proxy"), (307, "Temporary Redirect"), (308, "Permanent Redirect"),
    (400, "Bad Request"), (401, "Unauthorized"), (402, "Payment Required"), (403, "Forbidden"), (404, "Not Found"),
    (405, "Method Not Allowed"), (406, "Not Acceptable"), (407, "Proxy Authentication Required"),
    (408, "Request Timeout"), (409, "Conflict"), (410, "Gone"), (411, "Length Required"),
    (412, "Precondition Failed"), (413, "Payload Too Large"), (414, "URI Too Long"), (415, "Unsupported Media Type"),
    (416, "Range Not Satisfiable"), (417, "Expectation Failed"), (418, "I'm a teapot"), (421, "Misdirected Request"),
    (422, "Unprocessable Entity"), (423, "Locked"), (424, "Failed Dependency"), (425, "Too Early"),
    (426, "Upgrade Required"), (428, "Precondition Required"), (429, "Too Many Requests"),
    (431, "Request Header Fields Too Large"), (451, "Unavailable For Legal Reasons"), (500, "Internal Server Error"),
    (501, "Not Implemented"), (502, "Bad Gateway"), (503, "Service Unavailable"), (504, "Gateway Timeout"),
    (505, "HTTP Version Not Supported"), (506, "Variant Also Negotiates"), (507, "Insufficient Storage"),
    (508, "Loop Detected"), (510, "Not Extended"), (511, "Network Authentication Required")]

/-- The reason phrase of a status, if it has one. -/
def reason? (s : Status) : Option String :=
  reasons.lookup s.code

/-- From 300 to 399. -/
def isRedirection (s : Status) : Bool :=
  300 ≤ s.code && s.code < 400

/-- From 400 to 599. -/
def isError (s : Status) : Bool :=
  400 ≤ s.code && s.code < 600

/-- Below 400: nothing went wrong. -/
def isSuccess (s : Status) : Bool :=
  s.code < 400

end Status

end Switchyard.Http
