import DynamicTorque.Concurrency.ProvisioningFlag
import DynamicTorque.LifeCycle.StaticWorkers
import DynamicTorque.Scheduler.Capacity
import DynamicTorque.Concurrency.StaleVms
import DynamicTorque.Scheduler.Isolation
import DynamicTorque.Scheduler.BestFlavor
import DynamicTorque.Scheduler.Overrun
import DynamicTorque.Queue.PriorityJoin
import DynamicTorque.Cloud.Zones
import DynamicTorque.Cloud.ServerNames
import DynamicTorque.LifeCycle.IdleWorkers
import DynamicTorque.LifeCycle.PersistentFile
import DynamicTorque.LifeCycle.NeverUp
import DynamicTorque.LifeCycle.CleanupCases
import DynamicTorque.LifeCycle.FailedStarts
import DynamicTorque.LifeCycle.Forceoff
import DynamicTorque.LifeCycle.HostsFile
import DynamicTorque.LifeCycle.ProvisioningHook
import DynamicTorque.Configuration.Sections
import DynamicTorque.Configuration.FlavorNames
import DynamicTorque.Queue.Requirements
import DynamicTorque.Queue.JobSelection
import DynamicTorque.LifeCycle.NodesFile
import DynamicTorque.LifeCycle.Orphans
import DynamicTorque.LifeCycle.StaticStartUp
import DynamicTorque.Cloud.SecurityGroups
import DynamicTorque.Submission.Accounts
import DynamicTorque.Submission.Memory
import DynamicTorque.Language.Schedules
import DynamicTorque.Model.InfoServer
import DynamicTorque.Model.Service
import DynamicTorque.Service.Cadence
import DynamicTorque.Service.Refinement
import DynamicTorque.Service.Disciplines
import DynamicTorque.Service.Identity
import DynamicTorque.Service.Termination
import DynamicTorque.Service.Removals
import DynamicTorque.Commands.Arguments
import DynamicTorque.Commands.Outcomes
import DynamicTorque.Scheduler.WorkConservation
import DynamicTorque.LifeCycle.Restart
import DynamicTorque.Language.ConfigParser
import DynamicTorque.Model.Setup
import DynamicTorque.Configuration.Setup
import DynamicTorque.Configuration.RoundTrip
import DynamicTorque.Service.Tenants
import DynamicTorque.Scheduler.NodeQuota
