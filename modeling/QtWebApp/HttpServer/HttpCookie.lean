import QtWebApp.Base.Number
import QtWebApp.Base.Containers

/-!
# QtWebApp.HttpServer.HttpCookie

HTTP cookies: the record, its text form, and the splitting of cookie texts at
semicolons (`splitCSV`), which request parsing shares.

Two of the constructors leave `httpOnly` unset; what such a cookie holds there is
whatever was in memory, so those constructors take the value as an argument.
-/

namespace QtWebApp

open Bytes

/-- `HttpCookie`. -/
structure HttpCookie where
  name : Bytes
  value : Bytes
  comment : Bytes
  domain : Bytes
  maxAge : Int
  path : Bytes
  secure : Bool
  httpOnly : Bool
  version : Int
  deriving DecidableEq, Repr

namespace HttpCookie

/-- The empty cookie; `httpOnly` is not set by this constructor. -/
def empty (httpOnly : Bool) : HttpCookie where
  name := []
  value := []
  comment := []
  domain := []
  maxAge := 0
  path := []
  secure := false
  httpOnly := httpOnly
  version := 1

/-- The constructor with all attributes. -/
def new (name value : Bytes) (maxAge : Int) (path comment domain : Bytes)
    (secure httpOnly : Bool) : HttpCookie where
  name := name
  value := value
  comment := comment
  domain := domain
  maxAge := maxAge
  path := path
  secure := secure
  httpOnly := httpOnly
  version := 1

/-- The loop of `splitCSV`: `inString` tells whether a quote is open, `buffer` holds the part
being read. -/
def splitCSVLoop : Bytes → Bool → Bytes → List Bytes → List Bytes
  | [], _, buffer, list => if trimmed buffer = [] then list else list ++ [trimmed buffer]
  | c :: cs, false, buffer, list =>
      if c = 34 then splitCSVLoop cs true buffer list
      else if c = 59 then
        splitCSVLoop cs false [] (if trimmed buffer = [] then list else list ++ [trimmed buffer])
      else splitCSVLoop cs false (buffer ++ [c]) list
  | c :: cs, true, buffer, list =>
      if c = 34 then splitCSVLoop cs false buffer list
      else splitCSVLoop cs true (buffer ++ [c]) list

/-- `HttpCookie::splitCSV`: the parts between the semicolons that stand outside double
quotes, trimmed, without the quotes and without empty parts. -/
def splitCSV (source : Bytes) : List Bytes := splitCSVLoop source false [] []

/-- A cookie part cut into name and value at the first `=`. The code asks `if (posi)`, which
is also true for the `-1` of a part without `=`: such a part is a value without a name. -/
def splitPair (part : Bytes) : Bytes × Bytes :=
  let posi := part.indexOf [61] 0
  if posi ≠ 0 then (trimmed (part.left posi), trimmed (part.mid (posi + 1)))
  else (trimmed part, [])

/-- Set the field that a part of a cookie text is about. -/
def setField (c : HttpCookie) (name value : Bytes) : HttpCookie :=
  if name = ascii "Comment" then { c with comment := value }
  else if name = ascii "Domain" then { c with domain := value }
  else if name = ascii "Max-Age" then { c with maxAge := toInt value }
  else if name = ascii "Path" then { c with path := value }
  else if name = ascii "Secure" then { c with secure := true }
  else if name = ascii "HttpOnly" then { c with httpOnly := true }
  else if name = ascii "Version" then { c with version := toInt value }
  -- the first part of any other name is the cookie itself, a further one is ignored
  else if c.name = [] then { c with name := name, value := value }
  else c

/-- The loop body of the constructor from a cookie text. -/
def readPart (c : HttpCookie) (part : Bytes) : HttpCookie :=
  c.setField (splitPair part).1 (splitPair part).2

/-- The constructor from a cookie text; `httpOnly` is what the new object holds there, which is
only overwritten by a part of that name. -/
def ofSource (httpOnly : Bool) (source : Bytes) : HttpCookie :=
  (splitCSV source).foldl readPart (empty httpOnly)

/-- `HttpCookie::toByteArray`, the text of a `Set-Cookie` header. -/
def toByteArray (c : HttpCookie) : Bytes :=
  c.name ++ ascii "=" ++ c.value
    ++ (if c.comment = [] then [] else ascii "; Comment=" ++ c.comment)
    ++ (if c.domain = [] then [] else ascii "; Domain=" ++ c.domain)
    ++ (if c.maxAge = 0 then [] else ascii "; Max-Age=" ++ number c.maxAge)
    ++ (if c.path = [] then [] else ascii "; Path=" ++ c.path)
    ++ (if c.secure then ascii "; Secure" else [])
    ++ (if c.httpOnly then ascii "; HttpOnly" else [])
    ++ ascii "; Version=" ++ number c.version

end HttpCookie

end QtWebApp
