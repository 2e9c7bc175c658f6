import TiBackup.Auth.Admission
import TiBackup.Auth.Credential
import TiBackup.Auth.FrontDoor
import TiBackup.Auth.Mediation
import TiBackup.Auth.Verification
import TiBackup.Files.BackupIds
import TiBackup.Files.Confinement
import TiBackup.Files.Generic
import TiBackup.Files.Grammar
import TiBackup.Files.NewFolder
import TiBackup.Files.PickerHosts
import TiBackup.Files.RemotePaths
import TiBackup.Files.Scripts
import TiBackup.Jobs.Editor
import TiBackup.Jobs.FolderEditing
import TiBackup.Jobs.Hotplug
import TiBackup.Jobs.Running
import TiBackup.Jobs.Slots
import TiBackup.Live.Dashboard
import TiBackup.Live.Fallback
import TiBackup.Live.LogTail
import TiBackup.Live.Reload
import TiBackup.Live.Revocation
import TiBackup.Logs.Decoding
import TiBackup.Logs.Grouping
import TiBackup.Logs.LastLines
import TiBackup.Logs.Levels
import TiBackup.Logs.Listing
import TiBackup.Logs.LiveEnd
import TiBackup.Logs.Names
import TiBackup.Logs.Preview
import TiBackup.Logs.SameFile
import TiBackup.Logs.Tail
import TiBackup.Logs.View
import TiBackup.Session.Cookie
import TiBackup.Session.CookieHeader
import TiBackup.Session.Csrf
import TiBackup.Session.History
import TiBackup.Session.PageTokens
import TiBackup.Session.SetCookie
import TiBackup.Session.Throttle
import TiBackup.Stores.CapturedKeys
import TiBackup.Stores.Create
import TiBackup.Stores.FolderPairs
import TiBackup.Stores.HostKeys
import TiBackup.Stores.Invariants
import TiBackup.Stores.Ledger
import TiBackup.Stores.OpenSave
import TiBackup.Stores.PinnedFingerprint
import TiBackup.Stores.Protected
import TiBackup.Stores.Secrecy
import TiBackup.Stores.SshTest
import TiBackup.Stores.TestMail
