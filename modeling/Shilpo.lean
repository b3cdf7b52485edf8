import Shilpo.Idle.Inhibits
import Shilpo.Idle.Notifier
import Shilpo.Idle.Grace
import Shilpo.Idle.Mailbox
import Shilpo.Versions
import Shilpo.Auth.Prompt
import Shilpo.Polkit.Identity
import Shilpo.Polkit.Dialog
import Shilpo.Polkit.Completion
import Shilpo.Locks
import Shilpo.Domain.Supervision
import Shilpo.Compositor.Generations
import Shilpo.Extensions.Eager
import Shilpo.Config.Grouping
import Shilpo.Config.Prewrite
import Shilpo.Extensions.StateQuotas
import Shilpo.Extensions.Permits
import Shilpo.Extensions.Gate
import Shilpo.Extensions.Continuity
import Shilpo.Extensions.Transaction
import Shilpo.Cards.Removal
import Shilpo.Theme.Commands
import Shilpo.Theme.Client
import Shilpo.Theme.Wallpaper
import Shilpo.Theme.Persistence
import Shilpo.Theme.Projection
import Shilpo.Theme.ConfigFile
import Shilpo.Device.Connection
import Shilpo.Device.Client
import Shilpo.Device.Versions
import Shilpo.Notifications.Signals
import Shilpo.Clipboard.Agreement
import Shilpo.Brightness.Shown
import Shilpo.ExtensionHost.Protocol
import Shilpo.ExtensionHost.Supervisor
import Shilpo.ExtensionHost.Restarts
import Shilpo.ExtensionHost.Fence
import Shilpo.ExtensionHost.Updates
import Shilpo.Worker.Framing
import Shilpo.Engine.Events
import Shilpo.Engine.Preflight
import Shilpo.Engine.Effects
import Shilpo.Engine.Staleness
import Shilpo.Compositor.Refreshes
import Shilpo.Shell.WallpaperRequests
import Shilpo.Clipboard.Retention
import Shilpo.Session.SearchLearning
import Shilpo.Config.Suggestions
import Shilpo.Extensions.Wildcards
import Shilpo.Extensions.StateRecords
import Shilpo.Config.OverrideLaws
import Shilpo.Config.OverrideBatch
import Shilpo.Search.FuzzyMatch
import Shilpo.Search.Ranker
import Shilpo.Search.ExtensionProvider
import Shilpo.Search.Learning
import Shilpo.Config.KeyPaths
import Shilpo.Config.Ancestors
import Shilpo.Config.Sanitized
import Shilpo.Theme.WallpaperCache
import Shilpo.Applications.DragDrop
import Shilpo.Clipboard.BoundedRead
import Shilpo.Compositor.Snapshots
import Shilpo.Cards.Placement
import Shilpo.Cards.Bands
import Shilpo.Device.Coalescing
import Shilpo.Engine.Instances
import Shilpo.Script.Pacing
import Shilpo.Extensions.Publishers
