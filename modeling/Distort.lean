import Distort.Lib.Machine
import Distort.Lib.Store
import Distort.Lib.Feed
import Distort.Identity
import Distort.Api.Calls
import Distort.Csi.Capability
import Distort.Agent.Attachment
import Distort.Agent.HostAccess
import Distort.Csi.Attach
import Distort.Fencing.World
import Distort.Fencing.Invariant
import Distort.Fencing.Requests
import Distort.Fencing.Callers
import Distort.Fencing.Pass
import Distort.Capacity
import Distort.Fencing.Main
import Distort.Options
import Distort.Agent.BackendSpdk
import Distort.Agent.SpdkLvol
import Distort.Fencing.Revocation
import Distort.Csi.Delete
import Distort.Deletion
import Distort.Api.Admission
import Distort.Health
import Distort.Manager.Placement
import Distort.Manager.Authorization
import Distort.Manager.Commitment
import Distort.Agent.PartitionManager
import Distort.Lifecycle.Invariant
import Distort.Lifecycle.Requests
import Distort.Lifecycle.Pass
import Distort.Lifecycle.Spdk
import Distort.Lifecycle.Main
import Distort.Agent.Verification
import Distort.Lib.Slot
import Distort.Teardown.World
import Distort.Teardown.Invariant
import Distort.Teardown.Main
import Distort.Lib.Owner
import Distort.Manager.Claim
import Distort.Manager.Ownership
import Distort.Manager.Dependents
import Distort.Agent.Reporter
import Distort.DeviceState
import Distort.Agent.BackendKernel
import Distort.Agent.BackendLock
import Distort.Csi.Create
import Distort.Creation
import Distort.Agent.Observation
import Distort.Target.Access
import Distort.Go.Text
import Distort.Lib.Server
import Distort.Target.Nvmet
import Distort.Target.Port
import Distort.Target.Export
import Distort.Agent.Parted
import Distort.Lib.Extent
import Distort.Volumes.Disk
import Distort.Volumes.Allocator
import Distort.Volumes.Parted
import Distort.Agent.Discovery
import Distort.Volumes.Space
import Distort.Volumes.Lvol
import Distort.Volumes.Renaming
import Distort.Manager.Agreement
import Distort.Csi.Negotiation
import Distort.Csi.Requests
import Distort.Csi.Validate
import Distort.Csi.MountInfo
import Distort.Manager.Alone
import Distort.Manager.Roomiest
import Distort.Manager.Binding
import Distort.Agent.Inventory
import Distort.Target.Spdk
import Distort.Target.Repair
import Distort.Target.Converge
import Distort.Csi.Node
import Distort.Csi.Stage
import Distort.Naming
import Distort.Csi.Legacy
import Distort.Csi.Order
import Distort.Csi.Unmount
import Distort.Csi.Format
