import Libweave.Base.Values
import Libweave.Base.UtfStringConversion
import Libweave.Commands.Definition
import Libweave.Commands.Instance
import Libweave.Commands.Json
import Libweave.Commands.Semantics
import Libweave.Commands.Conditions
import Libweave.Commands.Lifecycle
import Libweave.Commands.Removal
import Libweave.Commands.Announcements
import Libweave.Commands.Refusals
import Libweave.Commands.Postconditions
import Libweave.Commands.Documents
import Libweave.Commands.Replies
import Libweave.Commands.Effects
import Libweave.Commands.Integrity
import Libweave.Daemon.Lock
import Libweave.Device.Manager
