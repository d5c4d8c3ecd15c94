import SnapYak.Camera.Switching
import SnapYak.Store.Upload
import SnapYak.Screens.Tabs
import SnapYak.Devices.Turnout
import SnapYak.Devices.Replies
import SnapYak.Devices.Coherence
import SnapYak.Devices.Session
import SnapYak.Devices.Failure
import SnapYak.Camera.Capture
import SnapYak.Screens.TextOverlays
import SnapYak.Screens.ListScreen
import SnapYak.Machine.Calls
import SnapYak.Screens.Fetches
import SnapYak.Numerals.Binary64
import SnapYak.Numerals.Decimal
import SnapYak.Screens.Settings
import SnapYak.Screens.Refreshing
import SnapYak.Screens.Sorting
import SnapYak.Screens.Drawing
import SnapYak.Devices.Agreement
import SnapYak.Devices.Photos
import SnapYak.Store.Atomic
import SnapYak.Machine.Variant
import SnapYak.Machine.Queue
import SnapYak.Screens.Callouts
import SnapYak.Screens.MessageScreen
import SnapYak.Screens.UploadSync
import SnapYak.Camera.Startup
import SnapYak.Screens.Sending
