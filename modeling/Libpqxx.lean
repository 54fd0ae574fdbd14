import Libpqxx.HandlerMap
import Libpqxx.Notice
import Libpqxx.CheckCast
import Libpqxx.Connection
import Libpqxx.Dispatch
import Libpqxx.Listen
import Libpqxx.Registration
import Libpqxx.Close
import Libpqxx.Ownership
import Libpqxx.Lifecycle
import Libpqxx.Handles
import Libpqxx.Moves
import Libpqxx.Establish
import Libpqxx.AdornName
import Libpqxx.Session
import Libpqxx.Composite
import Libpqxx.CopyChars
import Libpqxx.EscLike
import Libpqxx.ConnectionString
import Libpqxx.Copy
import Libpqxx.Connecting
import Libpqxx.Settings
