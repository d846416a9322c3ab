import QtWebApp.Parsing.Acceptance
import QtWebApp.Parsing.BodyLimits
import QtWebApp.Parsing.Cookies
import QtWebApp.Parsing.Folding
import QtWebApp.Parsing.Multipart
import QtWebApp.Parsing.Parameters
import QtWebApp.Parsing.ReadLoops
import QtWebApp.Parsing.Uploads
import QtWebApp.Parsing.Segmentation
import QtWebApp.Responding.Declared
import QtWebApp.Responding.RoundTrip
import QtWebApp.Connection.Detection
import QtWebApp.Connection.Quiet
import QtWebApp.Pool.Slots
import QtWebApp.Sessions.Counting
import QtWebApp.Sessions.Expiry
import QtWebApp.Sessions.Threads
import QtWebApp.StaticFiles.Confinement
import QtWebApp.StaticFiles.ReadErrors
import QtWebApp.Logging.FileErrors
import QtWebApp.Logging.Locks
import QtWebApp.Logging.Resizing
import QtWebApp.Logging.Rotation
import QtWebApp.TemplateEngine.Commute
import QtWebApp.TemplateEngine.Termination
import QtWebApp.TemplateEngine.TemplateLoader
import QtWebApp.TemplateEngine.TemplateCache
import QtWebApp.Base.Base64
import QtWebApp.Base.Sha1
import QtWebApp.Connection.Upgrading
import QtWebApp.WebSockets.Replies
import QtWebApp.WebSockets.ClientSocket
