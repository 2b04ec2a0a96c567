import CybexOS.Displays.Decide
import CybexOS.Displays.LayoutRuns
import CybexOS.Notes.AtRest
import CybexOS.Notes.ToggleLines
import CybexOS.Displays.TrialSafety
import CybexOS.Displays.SavedEntries
import CybexOS.Displays.LuaUtf8
import CybexOS.Displays.Identities
import CybexOS.T3.HistoryRows
import CybexOS.T3.HistoryRuns
import CybexOS.T3.Traits
import CybexOS.T3.AgentCount
import CybexOS.T3.Threads
import CybexOS.T3.ShellItems
import CybexOS.T3.BatchRuns
import CybexOS.T3.DraftRuns
import CybexOS.Network.AllOrNothing
import CybexOS.Network.DnsAgree
import CybexOS.Hermes.Delivery
import CybexOS.Hermes.SessionsKept
import CybexOS.Hermes.Readers
import CybexOS.Hermes.TurnFinal
import CybexOS.Hermes.Sse
import CybexOS.Hermes.Calm
import CybexOS.Hermes.FollowOnce
import CybexOS.Hermes.SignIn
import CybexOS.Hermes.Exchanges
import CybexOS.T3.LinkOpenly
import CybexOS.Settings.WriteGuard
import CybexOS.Snapshot.RestoreSafety
import CybexOS.Plugins.CloneRuns
import CybexOS.Plugins.OthersKept
import CybexOS.GitHub.Baselines
import CybexOS.Installer.OneInstall
import CybexOS.T3.SignOut
import CybexOS.T3.SignOutRuns
import CybexOS.Settings.ModsKept
import CybexOS.Shell.Fetches
import CybexOS.Shell.FetchRuns
import CybexOS.Shell.SysInfo
import CybexOS.Shell.SysInfoRuns
import CybexOS.Theme.ApplyRuns
import CybexOS.Bluetooth.ConsentRuns
import CybexOS.Login.Prepare
import CybexOS.Login.PrepareRuns
import CybexOS.Login.Root
import CybexOS.Login.RootSound
import CybexOS.Release.Precedence
import CybexOS.Bar.FitLanes
import CybexOS.Plugins.Fingerprint
import CybexOS.Snapshot.RecoveryArguments
import CybexOS.Retention
import CybexOS.Snapshot.Create
import CybexOS.Snapshot.CreateKeeps
import CybexOS.Snapshot.ReconcileBoot
import CybexOS.Snapshot.Layout
import CybexOS.Snapshot.MountedRoot
import CybexOS.Plugins.MoveWidget
import CybexOS.Plugins.Sited
import CybexOS.Plugins.Moves
import CybexOS.Hermes.ListSync
import CybexOS.Partition
import CybexOS.Keybinds.Columns
import CybexOS.Updates.PendingRows
import CybexOS.Updates.PendingLookup
import CybexOS.PyLines
import CybexOS.Network.Nmcli
import CybexOS.Network.NmcliLines
import CybexOS.Network.NmcliLossless
import CybexOS.Network.Reread
import CybexOS.Network.DnsInherited
import CybexOS.Bar.WidgetEditor
import CybexOS.Bar.DropPlan
import CybexOS.GitHub.Repos
import CybexOS.GitHub.Poll
import CybexOS.GitHub.PollQueue
import CybexOS.GitHub.PollComplete
import CybexOS.Settings.IndicatorOrder
import CybexOS.Hermes.RemoteEdit
import CybexOS.Hermes.EditsWhole
import CybexOS.T3.KeyBound
import CybexOS.T3.KeyRuns
import CybexOS.Wallpaper.Online
import CybexOS.Wallpaper.Online
import CybexOS.Wallpaper.LatestPick
import CybexOS.Wallpaper.Palette
import CybexOS.Wallpaper.PaletteRuns
import CybexOS.Updates.Checks
import CybexOS.Updates.CheckRuns
import CybexOS.Updates.Recount
import CybexOS.Reconcile.ManagedFile
import CybexOS.Reconcile.ManagedRuns
import CybexOS.Reconcile.Reconcile
import CybexOS.Reconcile.ReconcileRuns
