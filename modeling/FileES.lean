import FileES.Activation.Lifecycle
import FileES.Activity.Journal
import FileES.Archive.Frozen
import FileES.Authority.FailedOperation
import FileES.Authority.LeastPrivilege
import FileES.Authority.Mobile
import FileES.Authority.PublishedData
import FileES.Client.Detachment
import FileES.Client.Lifecycle
import FileES.Client.Version
import FileES.Commit.Finishing
import FileES.Commit.HeadOfLine
import FileES.Commit.IntentResolution
import FileES.Commit.Parents
import FileES.Commit.PortableGate
import FileES.Commit.Removals
import FileES.Commit.UpdateGate
import FileES.Naming.Policy
import FileES.Passports.AtMostOnce
import FileES.PathOwnership.Ownership
import FileES.RepoWorker.ClosedUnlocked
import FileES.RepoWorker.LockRelease
import FileES.RepoWorker.Preparations
import FileES.RepoWorker.RemovalMail
import FileES.Reservation.Batch
import FileES.Rotation.HookKept
import FileES.Shares.Addresses
import FileES.Shout.NoMissed
import FileES.Storage.WriteHold
import FileES.Watcher.Acknowledgement
import FileES.Watcher.Digest
import FileES.Watcher.Fence
import FileES.Whale.PathQueue
import FileES.Whale.Publication
import FileES.Whale.Upload
import FileES.WhaleCache.Exclusion
