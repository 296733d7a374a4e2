import QotStack.Sync.Factory
import QotStack.Binding.Demand
import QotStack.Binding.Store
import QotStack.Scheduler.Armed
import QotStack.Scheduler.Wait
import QotStack.Scheduler.EventTree
import QotStack.Scheduler.NextEvent
import QotStack.Scheduler.Complete
import QotStack.Scheduler.Create
import QotStack.Scheduler.Firing
import QotStack.Registry.Creation
import QotStack.Registry.Iterate
import QotStack.Registry.Names
import QotStack.User.NotifyLoop
import QotStack.User.Pins
import QotStack.Am335x.Registers
import QotStack.Am335x.Core
import QotStack.X86.Pvclock
import QotStack.Coordinator.Domain
import QotStack.Coordinator.Timeout
import QotStack.Coordinator.Metric
import QotStack.Broker.Standby
import QotStack.Broker.Mirror
import QotStack.Broker.Paths
import QotStack.Service.Notifier
import QotStack.Cluster.Callback
import QotStack.Cluster.Messenger
import QotStack.Virt.Shmem
import QotStack.Virt.Demand
import QotStack.Virt.Channel
import QotStack.Virt.Params
import QotStack.Ntp.Select
import QotStack.Ntp.Survivors
import QotStack.Ntp.Adjust
import QotStack.Ntp.Timestamp
