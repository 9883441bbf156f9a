import Switchyard.Http.Method
import Switchyard.Text.Utf8

/-!
# Header fields

Names are tokens in lower case. Values are bytes from 32 on, without 127, and tabs. One name may carry several
values, which keep the order in which they came.
-/

namespace Switchyard.Http

open Text (Utf8.encode)

/-- A field name in lower case. -/
structure HeaderName where
  text : String
  deriving DecidableEq

namespace HeaderName

/-- The most characters a name may have. -/
def maxLength : Nat := 65535

/-- Reads a name in any case. -/
def ofText? (s : String) : Option HeaderName :=
  if isToken s && s.length ≤ maxLength then some ⟨s.toLower⟩ else none

def contentType : HeaderName := ⟨"content-type"⟩
def location : HeaderName := ⟨"location"⟩
def allow : HeaderName := ⟨"allow"⟩
def origin : HeaderName := ⟨"origin"⟩
def vary : HeaderName := ⟨"vary"⟩
def userAgent : HeaderName := ⟨"user-agent"⟩
def realIp : HeaderName := ⟨"x-real-ip"⟩
def forwardedFor : HeaderName := ⟨"x-forwarded-for"⟩
def requestHeaders : HeaderName := ⟨"access-control-request-headers"⟩
def allowOrigin : HeaderName := ⟨"access-control-allow-origin"⟩
def allowMethods : HeaderName := ⟨"access-control-allow-methods"⟩
def allowHeaders : HeaderName := ⟨"access-control-allow-headers"⟩

end HeaderName

/-- A field value. -/
structure HeaderValue where
  bytes : List UInt8
  deriving DecidableEq

namespace HeaderValue

/-- A byte that may stand in a value. -/
def isValueByte (b : UInt8) : Bool :=
  (32 ≤ b && b != 127) || b == 9

def ofBytes? (bytes : List UInt8) : Option HeaderValue :=
  if bytes.all isValueByte then some ⟨bytes⟩ else none

def ofText? (s : String) : Option HeaderValue :=
  ofBytes? (Utf8.encode s.toList)

/-- The value as text, if it is printable ASCII and tabs. -/
def toText? (v : HeaderValue) : Option String :=
  if v.bytes.all fun b => (32 ≤ b && b < 127) || b == 9 then
    some (.ofList (v.bytes.map fun b => .ofNat b.toNat))
  else none

end HeaderValue

/-- Fields in the order in which they were added. -/
structure Headers where
  entries : List (HeaderName × HeaderValue) := []
  deriving DecidableEq

namespace Headers

/-- The first value of a name. -/
def get? (h : Headers) (name : HeaderName) : Option HeaderValue :=
  h.entries.lookup name

def contains (h : Headers) (name : HeaderName) : Bool :=
  h.entries.any (·.1 == name)

/-- Forgets every value of a name. -/
def erase (h : Headers) (name : HeaderName) : Headers :=
  ⟨h.entries.filter (·.1 != name)⟩

/-- Adds a value beside those the name has. -/
def append (h : Headers) (name : HeaderName) (value : HeaderValue) : Headers :=
  ⟨h.entries ++ [(name, value)]⟩

/-- Makes a value the only one of its name. -/
def insert (h : Headers) (name : HeaderName) (value : HeaderValue) : Headers :=
  (h.erase name).append name value

/-- The fields by name; the values of one name keep their order. -/
def sorted (h : Headers) : List (HeaderName × HeaderValue) :=
  h.entries.mergeSort fun a b => decide (a.1.text ≤ b.1.text)

end Headers

end Switchyard.Http
