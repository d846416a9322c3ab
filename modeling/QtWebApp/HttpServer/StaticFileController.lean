import QtWebApp.HttpServer.HttpRequest
import QtWebApp.HttpServer.HttpResponse

/-!
# QtWebApp.HttpServer.StaticFileController

The controller that delivers files from below a directory, with its cache.

A call of `service` looks into the cache under the mutex (`lookUp`), reads the file when
that misses (`fetch`), and stores what it has read under the mutex again (`store`). What the file
system answers is a parameter of a call, and so is which entries the cache gives up to make
room for a new one.
-/

namespace QtWebApp

open Bytes

/-- A `QFile` that has been opened for reading. -/
structure File where
  /-- What `size()` returns. -/
  size : Int
  /-- The content behind the position. -/
  rest : Bytes
  /-- Reading fails after this many more blocks. -/
  failsAfter : Option Nat
  error : Bool
  deriving DecidableEq, Repr

namespace File

/-- `QIODevice::read`. -/
def read (f : File) (maxSize : Nat) : Bytes × File :=
  match f.failsAfter with
  | some 0 => ([], { f with error := true })
  | some (n + 1) =>
      (f.rest.take maxSize, { f with rest := f.rest.drop maxSize, failsAfter := some n })
  | none => (f.rest.take maxSize, { f with rest := f.rest.drop maxSize })

/-- The loop that reads the file, with the buffers it reads. -/
def readLoop : Nat → File → List Bytes
  | 0, _ => []
  | n + 1, f =>
      -- `atEnd` and `error` are asked before every block, so a failed read is delivered, too
      if f.rest ≠ [] ∧ f.error = false then
        let (buffer, f) := f.read 65536
        buffer :: readLoop n f
      else []

/-- The buffers that are read of a file. Every turn of the loop takes a byte or is the last but
one, so the length of the content and one more are enough fuel. -/
def buffers (f : File) : List Bytes := f.readLoop (f.rest.length + 1)

end File

/-- The file system, as far as the controller asks it. -/
structure FileSystem where
  isDir : Bytes → Bool
  openFile : Bytes → Option File
  fileExists : Bytes → Bool

/-- `StaticFileController::CacheEntry`. -/
structure CacheEntry where
  document : Bytes
  created : Int
  filename : Bytes
  deriving DecidableEq, Repr

/-- The settings of the controller. -/
structure FileSettings where
  path : Bytes
  encoding : Bytes
  maxAge : Int
  maxCachedFileSize : Int
  cacheTime : Int
  /-- A relative path made absolute, based on the directory of the config file. -/
  absoluteFilePath : Bytes → Bytes

/-- What a call of `service` has done. -/
structure Delivery where
  /-- The names of the files it has asked the file system about. -/
  touched : List Bytes
  /-- The name of the file whose content it has answered with. -/
  source : Option Bytes
  calls : List ResponseCall
  deriving DecidableEq, Repr

/-- `StaticFileController`. -/
structure StaticFileController where
  encoding : Bytes
  docroot : Bytes
  maxAge : Int
  cacheTimeout : Int
  maxCachedFileSize : Int
  cache : QMap CacheEntry

namespace StaticFileController

/-- The docroot: a resource, an absolute path, or one relative to the config file. -/
def docrootOf (settings : FileSettings) : Bytes :=
  if settings.path.startsWith (ascii ":/") || settings.path.startsWith (ascii "qrc://") then
    settings.path
  -- what `QDir::isRelativePath` asks
  else if settings.path.startsWith (ascii "/") then settings.path
  else settings.absoluteFilePath settings.path

/-- The constructor. -/
def new (settings : FileSettings) : StaticFileController where
  encoding := settings.encoding
  docroot := docrootOf settings
  maxAge := settings.maxAge
  cacheTimeout := settings.cacheTime
  maxCachedFileSize := settings.maxCachedFileSize
  cache := ∅

/-- The endings that have a content type, in the order in which they are tried. -/
def contentTypes (c : StaticFileController) : List (Bytes × Bytes) :=
  [(ascii ".png", ascii "image/png"),
   (ascii ".jpg", ascii "image/jpeg"),
   (ascii ".gif", ascii "image/gif"),
   (ascii ".pdf", ascii "application/pdf"),
   (ascii ".txt", ascii "text/plain; charset=" ++ c.encoding),
   (ascii ".html", ascii "text/html; charset=" ++ c.encoding),
   (ascii ".htm", ascii "text/html; charset=" ++ c.encoding),
   (ascii ".css", ascii "text/css"),
   (ascii ".js", ascii "text/javascript"),
   (ascii ".svg", ascii "image/svg+xml"),
   (ascii ".woff", ascii "font/woff"),
   (ascii ".woff2", ascii "font/woff2"),
   (ascii ".ttf", ascii "application/x-font-ttf"),
   (ascii ".eot", ascii "application/vnd.ms-fontobject"),
   (ascii ".otf", ascii "application/font-otf")]

/-- `StaticFileController::setContentType`. -/
def setContentType (c : StaticFileController) (fileName : Bytes) : List ResponseCall :=
  match c.contentTypes.find? fun t => fileName.endsWith t.1 with
  | some t => [.setHeader (ascii "Content-Type") t.2]
  | none => []

/-- The headers of a file that is delivered. -/
def fileHeaders (c : StaticFileController) (fileName : Bytes) : List ResponseCall :=
  c.setContentType fileName
    ++ [.setHeader (ascii "Cache-Control") (ascii "max-age=" ++ number (c.maxAge.tdiv 1000))]

/-- The answer to a request that is not allowed. -/
def forbidden : List ResponseCall :=
  [.setStatus 403 (ascii "forbidden"), .write (ascii "403 forbidden") true]

/-- The answer when there is no such file. -/
def notFound : List ResponseCall :=
  [.setStatus 404 (ascii "not found"), .write (ascii "404 not found") true]

/-- The entry of the cache that is used for a path: it is there, and not too old. -/
def lookUp (c : StaticFileController) (now : Int) (path : Bytes) : Option CacheEntry :=
  -- with a timeout of zero no entry ever gets too old
  c.cache[path]?.filter fun entry => c.cacheTimeout = 0 ∨ entry.created > now - c.cacheTimeout

/-- The answer from the cache. -/
def deliverEntry (c : StaticFileController) (entry : CacheEntry) : Delivery where
  touched := []
  source := some (c.docroot ++ entry.filename)
  calls := c.fileHeaders entry.filename ++ [.write entry.document false]

/-- The paths that are refused. -/
def isForbidden (path : Bytes) : Bool := path.containsText (ascii "/..")

/-- The answer to a path that is refused. -/
def refuse : Delivery where
  touched := []
  source := none
  calls := forbidden

/-- The file for a path: of a directory it is its `index.html`. -/
def locate (c : StaticFileController) (files : FileSystem) (path : Bytes) : Bytes :=
  if files.isDir (c.docroot ++ path) then path ++ ascii "/index.html" else path

/-- Open the file for a path and send it; small files are to be stored in the cache. -/
def fetch (c : StaticFileController) (now : Int) (files : FileSystem) (path : Bytes) :
    Delivery × Option CacheEntry :=
  let filename := c.locate files path
  let touched := [c.docroot ++ path, c.docroot ++ filename]
  match files.openFile (c.docroot ++ filename) with
  | some file =>
      (⟨touched, some (c.docroot ++ filename),
        c.fileHeaders filename ++ file.buffers.map fun buffer => .write buffer false⟩,
       -- the entry is as old as the call, not as the read
       if file.size ≤ c.maxCachedFileSize then some ⟨file.buffers.flatten, now, filename⟩ else none)
  | none =>
      (⟨touched, none, if files.fileExists (c.docroot ++ filename) then forbidden else notFound⟩,
       none)

/-- Store an entry; the cache keeps what it has room for. -/
def store (c : StaticFileController) (keeps : Bytes → Bool) (path : Bytes) (entry : CacheEntry) :
    StaticFileController :=
  { c with cache := (c.cache.insert path entry).filter fun key _ => keeps key }

/-- What a byte array is as a `QString`, for a text in UTF-8 without a zero byte: a byte order mark
at its beginning is dropped. -/
def fromUtf8 (b : Bytes) : Bytes := if b.startsWith [0xEF, 0xBB, 0xBF] then b.drop 3 else b

/-- The path of a request. It becomes a `QString` wherever it is used, as the key of the cache and
behind the docroot; only the test for `/..` looks at the bytes, and does not see the difference
(`isForbidden_fromUtf8`). -/
def requestedPath (request : RequestView) : Bytes := fromUtf8 (HttpRequest.getPath request)

/-- `StaticFileController::service`. -/
def service (c : StaticFileController) (now : Int) (files : FileSystem) (keeps : Bytes → Bool)
    (request : RequestView) : Delivery × StaticFileController :=
  let path := requestedPath request
  match c.lookUp now path with
  | some entry => (c.deliverEntry entry, c)
  | none =>
      -- only a path that misses the cache is tested
      if isForbidden path then (refuse, c)
      else
        match c.fetch now files path with
        | (delivery, some entry) => (delivery, c.store keeps path entry)
        | (delivery, none) => (delivery, c)

end StaticFileController

end QtWebApp
