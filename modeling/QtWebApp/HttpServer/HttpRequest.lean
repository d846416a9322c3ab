import QtWebApp.HttpServer.HttpCookie

/-!
# QtWebApp.HttpServer.HttpRequest

The incremental request parser.

An `HttpRequest` takes its bytes from the read buffer of the connection's socket in
small calls of `readFromSocket`, each of which does the work of one of three states:
a piece of the request line, a piece of a header line, a piece of the body. The socket
is here the list of the bytes waiting in that buffer; every reading function returns
what it left there.

The temporary files live in a small heap, `tempFiles`, and the map of uploaded files
holds positions in it (`none` is the null pointer), so that the identity of a file and
what happens to the files nobody refers to any more can be seen. Two fields are not in
the source and read by no function: `recounted` is the number of bytes that
`currentSize` has counted more than once, and `nullFile` records that the null pointer
was used as a file.
-/

namespace QtWebApp

open Bytes

/-- The settings of the server that requests depend on. They come from `toInt()`. -/
structure Settings where
  maxRequestSize : Int
  maxMultiPartSize : Int
  maxRequestSize_isInt : IsInt maxRequestSize
  maxMultiPartSize_isInt : IsInt maxMultiPartSize

theorem isInt_million : IsInt 1000000 := by decide

/-- The values that the settings have when the configuration does not give any. -/
def defaultSettings : Settings where
  maxRequestSize := 16000
  maxMultiPartSize := 1000000
  maxRequestSize_isInt := by decide
  maxMultiPartSize_isInt := isInt_million

/-- `HttpRequest::RequestStatus`. -/
inductive RequestStatus
  | waitForRequest | waitForHeader | waitForBody | complete | abort
  deriving DecidableEq, Repr

/-- `HttpRequest`. -/
structure HttpRequest where
  headers : QMultiMap
  parameters : QMultiMap
  uploadedFiles : QMap (Option Nat)
  cookies : QMap Bytes
  bodyData : Bytes
  method : Bytes
  path : Bytes
  version : Bytes
  status : RequestStatus
  maxSize : Int
  maxMultiPartSize : Int
  currentSize : Int
  expectedBodySize : Int
  currentHeader : Bytes
  boundary : Bytes
  /-- The content of the temp file of a multipart body. -/
  tempFile : Option Bytes
  lineBuffer : Bytes
  /-- The contents of the files created for uploads. -/
  tempFiles : List Bytes
  nullFile : Bool
  recounted : Nat

/-- What a request handler can read off a request. -/
structure RequestView where
  method : Bytes
  path : Bytes
  version : Bytes
  headers : QMultiMap
  parameters : QMultiMap
  cookies : QMap Bytes
  body : Bytes
  uploadedFiles : QMap (Option Nat)
  tempFiles : List Bytes

namespace HttpRequest

/-- The constructor. -/
def new (settings : Settings) : HttpRequest where
  headers := .empty
  parameters := .empty
  uploadedFiles := ∅
  cookies := ∅
  bodyData := []
  method := []
  path := []
  version := []
  status := .waitForRequest
  maxSize := settings.maxRequestSize
  maxMultiPartSize := settings.maxMultiPartSize
  currentSize := 0
  expectedBodySize := 0
  currentHeader := []
  boundary := []
  tempFile := none
  lineBuffer := []
  tempFiles := []
  nullFile := false
  recounted := 0

/-- The public getters. -/
def view (r : HttpRequest) : RequestView where
  method := r.method
  path := r.path
  version := r.version
  headers := r.headers
  parameters := r.parameters
  cookies := r.cookies
  body := r.bodyData
  uploadedFiles := r.uploadedFiles
  tempFiles := r.tempFiles

/-- `HttpRequest::getHeader`. -/
def getHeader (r : HttpRequest) (name : Bytes) : Bytes := r.headers.value (toLower name)

/-- `HttpRequest::getHeaders`. -/
def getHeaders (r : HttpRequest) (name : Bytes) : List Bytes := r.headers.values (toLower name)

/-- `HttpRequest::getHeaderMap`. -/
def getHeaderMap (r : HttpRequest) : QMultiMap := r.headers

/-- `HttpRequest::getParameter`. -/
def getParameter (r : HttpRequest) (name : Bytes) : Bytes := r.parameters.value name

/-- `HttpRequest::getParameters`. -/
def getParameters (r : HttpRequest) (name : Bytes) : List Bytes := r.parameters.values name

/-! ### Lines

A line may arrive in pieces, which are collected in `lineBuffer`. One call of `readLine` gets at
most one byte more than the limit leaves, and a line feed ends it. -/

/-- The number of bytes a line read may take: one more than is left, to detect overflow. -/
def toRead (r : HttpRequest) : Int := int32 (int32 (r.maxSize - r.currentSize) + 1)

/-- The common start of `readRequest` and `readHeader`: append what is there of a line to the
line buffer, and count the whole buffer. -/
def appendLine (r : HttpRequest) (socket : Bytes) : HttpRequest × Bytes :=
  let (data, rest) := readLine socket r.toRead
  ({ r with
      lineBuffer := r.lineBuffer ++ data
      -- what has waited in the buffer is counted once more with every piece of the line
      currentSize := int32 (r.currentSize + (r.lineBuffer ++ data).length)
      recounted := r.recounted + r.lineBuffer.length }, rest)

/-- The part of `readRequest` after the line was read: the request line. -/
def finishRequestLine (r : HttpRequest) : HttpRequest :=
  if CR ∉ r.lineBuffer ∧ LF ∉ r.lineBuffer then r
  -- otherwise a line is complete; the source asks for either of the two characters
  else
    let newData := trimmed r.lineBuffer
    let r := { r with lineBuffer := [] }
    if newData = [] then r
    else
      -- the parts of the request line; two blanks in a row make an empty part
      match newData.splitOn SP with
      | [method, path, version] =>
          if containsText version (ascii "HTTP") then
            { r with
                method := trimmed method
                path := path
                version := version
                status := .waitForHeader }
          else { r with status := .abort }
      | _ => { r with status := .abort }

/-- `HttpRequest::readRequest`. -/
def readRequest (r : HttpRequest) (socket : Bytes) : HttpRequest × Bytes :=
  let (r, rest) := r.appendLine socket
  (r.finishRequestLine, rest)

/-! ### Headers

A header is stored when its line is complete. The empty line decides what comes next: a body, or the
end. -/

/-- A line with a colon: a header. -/
def headerField (r : HttpRequest) (newData : Bytes) (colon : Int) : HttpRequest :=
  let name := toLower (newData.left colon)
  { r with
      currentHeader := name
      headers := r.headers.insert name (trimmed (newData.mid (colon + 1))) }

/-- A line without a colon: it continues the previous header. -/
def headerContinuation (r : HttpRequest) (newData : Bytes) : HttpRequest :=
  -- a second value under the same name: the value without the continuation stays in the map
  if r.headers.contains r.currentHeader then
    { r with
        headers := r.headers.insert r.currentHeader
          (r.headers.value r.currentHeader ++ ascii " " ++ newData) }
  else r

/-- The boundary that a content type announces. -/
def boundaryOf (contentType : Bytes) (boundary : Bytes) : Bytes :=
  if contentType.startsWith (ascii "multipart/form-data") then
    let posi := contentType.indexOf (ascii "boundary=") 0
    -- without `boundary=` an earlier boundary is kept
    if 0 ≤ posi then
      let b := contentType.mid (posi + 9)
      if b.startsWith (ascii "\"") && b.endsWith (ascii "\"") then b.midLen 1 (b.length - 2) else b
    else boundary
  else boundary

/-- The body is announced longer than a request without boundary may be. -/
def bodyTooLarge (r : HttpRequest) : Prop :=
  r.boundary = [] ∧ r.maxSize < int32 (r.expectedBodySize + r.currentSize)

/-- The body is announced longer than a multipart body may be. -/
def multiPartTooLarge (r : HttpRequest) : Prop :=
  r.boundary ≠ [] ∧ r.maxMultiPartSize < r.expectedBodySize

instance (r : HttpRequest) : Decidable r.bodyTooLarge := by unfold bodyTooLarge; infer_instance
instance (r : HttpRequest) : Decidable r.multiPartTooLarge := by
  unfold multiPartTooLarge; infer_instance

/-- The framing headers: the boundary of a multipart body and the length of the body. -/
def announceBody (r : HttpRequest) : HttpRequest :=
  let contentLength := r.headers.value (ascii "content-length")
  { r with
      boundary := boundaryOf (r.headers.value (ascii "content-type")) r.boundary
      expectedBodySize := if contentLength = [] then r.expectedBodySize else toInt contentLength }

/-- An empty line: all headers have been received. -/
def endOfHeaders (r : HttpRequest) : HttpRequest :=
  let r := r.announceBody
  -- a negative length is neither zero nor too large: the request waits for a body
  if r.expectedBodySize = 0 then { r with status := .complete }
  else if r.bodyTooLarge then { r with status := .abort }
  else if r.multiPartTooLarge then { r with status := .abort }
  else { r with status := .waitForBody }

/-- The part of `readHeader` after the line was read. -/
def finishHeaderLine (r : HttpRequest) : HttpRequest :=
  if CR ∉ r.lineBuffer ∧ LF ∉ r.lineBuffer then r
  else
    let newData := trimmed r.lineBuffer
    let r := { r with lineBuffer := [] }
    -- the colon of a header cannot be the first character of its line
    let colon := newData.indexOf [58] 0
    if 0 < colon then r.headerField newData colon
    else if newData ≠ [] then r.headerContinuation newData
    else r.endOfHeaders

/-- `HttpRequest::readHeader`. -/
def readHeader (r : HttpRequest) (socket : Bytes) : HttpRequest × Bytes :=
  let (r, rest) := r.appendLine socket
  (r.finishHeaderLine, rest)

/-! ### Multipart bodies

The body was written to a temporary file, which is read line by line. A part is its header lines, an
empty one, and the data up to the next line that begins with the boundary. -/

/-- The lines of a file as successive calls of `readLine(65536)` return them. -/
def fileLines : Nat → Bytes → List Bytes
  | 0, _ => []
  | _ + 1, [] => []
  | n + 1, c :: cs =>
      (lineUpTo 65536 (c :: cs)).1 :: fileLines n (lineUpTo 65536 (c :: cs)).2

/-- The two names a part may have, as the header loop collects them. -/
structure PartNames where
  fieldName : Bytes
  fileName : Bytes
  deriving DecidableEq, Repr

/-- The value after `key` up to the next quote, or `old` when there is none. -/
def quotedValue (line key old : Bytes) : Bytes :=
  let start := line.indexOf key 0
  let stop := line.indexOf (ascii "\"") (start + key.length)
  -- the search for the closing quote begins behind the key
  if 0 ≤ start ∧ start ≤ stop then line.midLen (start + key.length) (stop - start - key.length)
  else old

/-- A `Content-Disposition` line of a part. -/
def disposition (line : Bytes) (p : PartNames) : PartNames :=
  if line.containsText (ascii "form-data") then
    { fieldName := quotedValue line (ascii " name=\"") p.fieldName
      fileName := quotedValue line (ascii " filename=\"") p.fileName }
  else p

/-- The loop over the header lines of a part. -/
def readPartHeaders : List Bytes → PartNames → PartNames × List Bytes
  | [], p => (p, [])
  | l :: ls, p =>
      let line := trimmed l
      if line.startsWith (ascii "Content-Disposition:") then readPartHeaders ls (disposition line p)
      -- an empty line ends the headers of the part; a line of another kind is skipped
      else if line = [] then (p, ls)
      else readPartHeaders ls p

/-- Shorten a collected text by two bytes, as `remove(size-2, 2)` and `resize(size-2)` do:
when there are not so many, nothing happens. -/
def dropTwo (b : Bytes) : Bytes := if b.length < 2 then b else b.take (b.length - 2)

/-- A boundary line ends the part: the collected data becomes a parameter or an uploaded
file. -/
def finishPart (r : HttpRequest) (p : PartNames) (fieldValue : Bytes) (uploadedFile : Option Nat) :
    HttpRequest :=
  if p.fileName = [] ∧ p.fieldName ≠ [] then
    { r with parameters := r.parameters.insert p.fieldName (dropTwo fieldValue) }
  else if p.fileName ≠ [] ∧ p.fieldName ≠ [] then
    { r with
        -- a file without any data was never created: the source goes through a null pointer here
        nullFile := r.nullFile || uploadedFile.isNone
        tempFiles := match uploadedFile with
          | some i => r.tempFiles.modify i dropTwo
          | none => r.tempFiles
        parameters := r.parameters.insert p.fieldName p.fileName
        uploadedFiles := r.uploadedFiles.insert p.fieldName uploadedFile }
  else r

/-- Write a line to the file of the part, which is created when it is the first one. -/
def writeUpload (r : HttpRequest) (line : Bytes) : Option Nat → HttpRequest × Nat
  | some i => ({ r with tempFiles := r.tempFiles.modify i (· ++ line) }, i)
  | none => ({ r with tempFiles := r.tempFiles ++ [line] }, r.tempFiles.length)

/-- The loop over the data of a part; the flag tells that the closing boundary was found. -/
def readPartData (p : PartNames) :
    List Bytes → Bytes → Option Nat → HttpRequest → HttpRequest × Bool × List Bytes
  | [], _, _, r => (r, false, [])
  | line :: ls, fieldValue, uploadedFile, r =>
      if line.startsWith (ascii "--" ++ r.boundary) then
        (r.finishPart p fieldValue uploadedFile, line.containsText (r.boundary ++ ascii "--"), ls)
      -- only the data of form fields counts for the size, that of files does not
      else if p.fileName = [] ∧ p.fieldName ≠ [] then
        readPartData p ls (fieldValue ++ line) uploadedFile
          { r with currentSize := int32 (r.currentSize + line.length) }
      else if p.fileName ≠ [] ∧ p.fieldName ≠ [] then
        let (r, i) := r.writeUpload line uploadedFile
        readPartData p ls fieldValue (some i) r
      else readPartData p ls fieldValue uploadedFile r

/-- The loop over the parts. Each turn reads at least one line, so the number of lines is
enough fuel. -/
def readParts : Nat → List Bytes → HttpRequest → HttpRequest
  | 0, _, r => r
  | _ + 1, [], r => r
  | n + 1, l :: ls, r =>
      let (p, ls) := readPartHeaders (l :: ls) ⟨[], []⟩
      let (r, finished, ls) := readPartData p ls [] none r
      if finished then r else readParts n ls r

/-- `HttpRequest::parseMultiPartFile`. -/
def parseMultiPartFile (r : HttpRequest) : HttpRequest :=
  let file := r.tempFile.getD []
  let lines := fileLines file.length file
  readParts lines.length lines r

/-- The uploaded files that `HttpRequest::~HttpRequest` closes and deletes: those in the map. -/
def deletedFiles (r : HttpRequest) : List (Option Nat) :=
  r.uploadedFiles.keys.map fun key => (r.uploadedFiles[key]?).getD none

/-! ### Bodies

A body ends with the number of bytes that was announced. The two kinds of bodies have limits of
their own. -/

/-- The branch of `readBody` for a request without boundary. -/
def readPlainBody (r : HttpRequest) (socket : Bytes) : HttpRequest × Bytes :=
  let (newData, rest) := readData socket (int32 (r.expectedBodySize - r.bodyData.length))
  let r := { r with
    currentSize := int32 (r.currentSize + newData.length)
    bodyData := r.bodyData ++ newData }
  (if r.expectedBodySize ≤ (r.bodyData.length : Int)
    then { r with status := .complete } else r, rest)

/-- The branch of `readBody` for a multipart body, which goes to the temp file in blocks. -/
def readMultiPartBody (r : HttpRequest) (socket : Bytes) : HttpRequest × Bytes :=
  let file := r.tempFile.getD []
  let (newData, rest) := readData socket (min (int32 (r.expectedBodySize - file.length)) 65536)
  let file := file ++ newData
  let r := { r with tempFile := some file }
  -- reaching the limit aborts the request already, also when the body is complete with it
  if r.maxMultiPartSize ≤ (file.length : Int) then ({ r with status := .abort }, rest)
  else if r.expectedBodySize ≤ (file.length : Int) then
    ({ r.parseMultiPartFile with status := .complete }, rest)
  else (r, rest)

/-- `HttpRequest::readBody`. -/
def readBody (r : HttpRequest) (socket : Bytes) : HttpRequest × Bytes :=
  if r.boundary = [] then r.readPlainBody socket else r.readMultiPartBody socket

/-! ### Parameters and cookies

This is done once, when the request is complete. -/

/-- The loop of `urlDecode` over the positions of `%` in the buffer. -/
def urlDecodeLoop : Nat → Bytes → Int → Bytes
  | 0, buffer, _ => buffer
  | n + 1, buffer, percentChar =>
      if percentChar < 0 then buffer
      else
        let buffer : Bytes := match toIntOk 16 (buffer.midLen (percentChar + 1) 2) with
          -- the three characters become one, and the search goes on behind it
          | some byte => buffer.left percentChar ++ [UInt8.ofInt byte] ++
              buffer.mid (percentChar + 3)
          | none => buffer
        urlDecodeLoop n buffer (buffer.indexOf [37] (percentChar + 1))

/-- `HttpRequest::urlDecode`. The position of the search grows with every turn, so the length
of the text is enough fuel. -/
def urlDecode (source : Bytes) : Bytes :=
  let buffer : Bytes := source.map fun c => if c = 43 then SP else c
  urlDecodeLoop (buffer.length + 1) buffer (buffer.indexOf [37] 0)

/-- `HttpRequest::getPath`: the path is decoded when it is asked for. -/
def getPath (r : RequestView) : Bytes := urlDecode r.path

/-- One `name=value` part of the parameters. -/
def insertParameter (parameters : QMultiMap) (part : Bytes) : QMultiMap :=
  let equalsChar := part.indexOf [61] 0
  if 0 ≤ equalsChar then
    parameters.insert (urlDecode (trimmed (part.left equalsChar)))
      (urlDecode (trimmed (part.mid (equalsChar + 1))))
  else if part ≠ [] then parameters.insert (urlDecode part) []
  else parameters

/-- The part of the path after the question mark, and the path without it. -/
def splitQuery (path : Bytes) : Bytes × Bytes :=
  let questionMark := path.indexOf [63] 0
  if 0 ≤ questionMark then (path.mid (questionMark + 1), path.left questionMark) else ([], path)

/-- The parameters of the URL together with those of a form in the body. -/
def withBodyParameters (r : HttpRequest) (rawParameters : Bytes) : Bytes :=
  let contentType := r.headers.value (ascii "content-type")
  -- the body of any other content type is left to the application
  if r.bodyData ≠ [] ∧
      (contentType = [] ∨ contentType.startsWith (ascii "application/x-www-form-urlencoded")) then
    if rawParameters ≠ [] then rawParameters ++ [38] ++ r.bodyData else r.bodyData
  else rawParameters

/-- `HttpRequest::decodeRequestParams`. -/
def decodeRequestParams (r : HttpRequest) : HttpRequest :=
  let (rawParameters, path) := splitQuery r.path
  { r with
      path := path
      parameters := ((r.withBodyParameters rawParameters).splitOn 38).foldl insertParameter
        r.parameters }

/-- `HttpRequest::extractCookies`. -/
def extractCookies (r : HttpRequest) : HttpRequest :=
  let parts := (r.headers.values (ascii "cookie")).flatMap HttpCookie.splitCSV
  { r with
      cookies := parts.foldl
        (fun cookies part => cookies.insert (HttpCookie.splitPair part).1
          (HttpCookie.splitPair part).2)
        r.cookies
      headers := r.headers.remove (ascii "cookie") }

/-! ### The parser

One call of `readFromSocket` does one read, and the limits are checked behind it. -/

/-- More bytes were received than the limits allow. -/
def receivedTooMuch (r : HttpRequest) : Prop :=
  (r.boundary = [] ∧ r.maxSize < r.currentSize) ∨
    (r.boundary ≠ [] ∧ r.maxMultiPartSize < r.currentSize)

instance (r : HttpRequest) : Decidable r.receivedTooMuch := by
  unfold receivedTooMuch; infer_instance

/-- The reading done by `readFromSocket` in each status. -/
def readStep (r : HttpRequest) (socket : Bytes) : HttpRequest × Bytes :=
  match r.status with
  | .waitForRequest => r.readRequest socket
  | .waitForHeader => r.readHeader socket
  | .waitForBody => r.readBody socket
  | .complete | .abort => (r, socket)

/-- The checks `readFromSocket` makes after every read. -/
def afterRead (r : HttpRequest) : HttpRequest :=
  -- a request that was complete is aborted, too, and then not decoded
  let r := if r.receivedTooMuch then { r with status := .abort } else r
  if r.status = .complete then r.decodeRequestParams.extractCookies else r

/-- `HttpRequest::readFromSocket`. -/
def readFromSocket (r : HttpRequest) (socket : Bytes) : HttpRequest × Bytes :=
  let (r, rest) := r.readStep socket
  (r.afterRead, rest)

end HttpRequest

end QtWebApp
