import RemoteControl.Host.LoginAttempts
import RemoteControl.Host.Snapshots
import RemoteControl.Host.Authorization
import RemoteControl.Host.Subscriptions
import RemoteControl.Host.SubscriptionSync
import RemoteControl.Host.Withdrawal
import RemoteControl.Transfer.Resuming
import RemoteControl.Transfer.Skipping
import RemoteControl.Clipboard.FuseRead
import RemoteControl.Transfer.Completion
import RemoteControl.Fleet.Rounds
import RemoteControl.Config.PeerPath
import RemoteControl.Terminal.Reconnect
import RemoteControl.PortForward.Transparent
import RemoteControl.Portable.Package
import RemoteControl.Terminal.HelperInput
import RemoteControl.Video.Queue
import RemoteControl.Video.RecordUpload
import RemoteControl.Stream.Handshake
import RemoteControl.Update.Downloader
import RemoteControl.Keyboard.KeysReleased
import RemoteControl.Client.UiSessions
import RemoteControl.Stream.WebRtc
import RemoteControl.Video.FramePacing
import RemoteControl.Clipboard.PasteOthers
import RemoteControl.Clipboard.PasteAnswers
import RemoteControl.Privacy.Owner
import RemoteControl.Client.SignIn
import RemoteControl.Host.Whiteboard
import RemoteControl.Video.Recorder
import RemoteControl.Keyboard.Uinput
import RemoteControl.Clipboard.CmRead
import RemoteControl.Tls.Attempts
import RemoteControl.Transfer.DelegatedReads
import RemoteControl.Branding.Rerun
import RemoteControl.Host.AddrMangle
import RemoteControl.Terminal.Accounting
import RemoteControl.Terminal.Replay
import RemoteControl.Clipboard.Descriptors
import RemoteControl.Clipboard.Neighbours
import RemoteControl.Terminal.SessionSync
import RemoteControl.Clipboard.WalkListing
import RemoteControl.Clipboard.ReadAhead
import RemoteControl.Clipboard.FuseServer
import RemoteControl.Config.Overlay
import RemoteControl.Video.FrameRate
import RemoteControl.Transfer.Confirming
import RemoteControl.Transfer.RecursiveFiles
import RemoteControl.Transfer.EmptyDirs
import RemoteControl.Config.HostAgreement
import RemoteControl.Transfer.Targets
import RemoteControl.Host.Resolutions
import RemoteControl.Host.VirtualDisplays
import RemoteControl.Portable.Counters
import RemoteControl.Client.LanDiscovery
import RemoteControl.Config.Caches
import RemoteControl.Config.ProxyAddress
import RemoteControl.Video.RoundTrip
import RemoteControl.Client.AudioBuffer
import RemoteControl.Host.RemoveLog
import RemoteControl.Host.WhiteboardCursor
import RemoteControl.Host.CapturedDisplays
import RemoteControl.Host.InputThread
import RemoteControl.Update.CheckUpdate
import RemoteControl.Keyboard.LocalReleases
