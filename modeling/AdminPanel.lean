import AdminPanel.Access.Tracking
import AdminPanel.Access.WgSync
import AdminPanel.Unlock.Accounting
import AdminPanel.Unlock.Extension
import AdminPanel.Expiry.Cascade
import AdminPanel.Expiry.PermanentBan
import AdminPanel.Access.Awg3Agreement
import AdminPanel.NodeSync.PolicyEnforcement
import AdminPanel.NodeSync.GroupTasks
import AdminPanel.NodeSync.AutoHeal
import AdminPanel.Access.Cooldown
import AdminPanel.Access.RuntimeFailure
import AdminPanel.Guard.TempBan
import AdminPanel.Guard.Interventions
import AdminPanel.Guard.BanHook
import AdminPanel.Firewall.WhitelistRuns
import AdminPanel.Auth.SecretsRotation
import AdminPanel.Nodes.KeyRotation
import AdminPanel.Auth.BackupCodes
import AdminPanel.Tasks.BackgroundTasks
import AdminPanel.Webhooks.Deliveries
import AdminPanel.Panel.LinkRuns
import AdminPanel.Portal.UserPortal
import AdminPanel.Portal.ClientLinks
import AdminPanel.Portal.PortalStatus
import AdminPanel.Backup.Restore
import AdminPanel.Backup.Archives
import AdminPanel.Setup.WarpGeo
import AdminPanel.Nodes.SshTunnelPool
import AdminPanel.Backup.BackgroundGate
import AdminPanel.Backup.Awg3State
import AdminPanel.Failover.FrontRuns
import AdminPanel.Failover.Identity
import AdminPanel.Failover.Profiles
import AdminPanel.Auth.EndedSessions
import AdminPanel.Awg3.ClientIsolation
import AdminPanel.Awg3.Coupling
import AdminPanel.Awg3.Interleaved
import AdminPanel.Cidr.Antifilter
import AdminPanel.Cidr.MetaCounts
import AdminPanel.Failover.PlanRollback
import AdminPanel.Failover.FreeAddresses
import AdminPanel.Unlock.ExtendedOnce
import AdminPanel.Cidr.MergedItems
import AdminPanel.RateLimit.Interchangeable
import AdminPanel.Cidr.OverlapIndex
import AdminPanel.Cidr.TotalLimit
import AdminPanel.Cidr.GeoScopes
import AdminPanel.Traffic.Rebuild
import AdminPanel.Firewall.ScannerBans
import AdminPanel.NodeSync.Fingerprints
import AdminPanel.Panel.EnvFile
import AdminPanel.Access.BatchRemoval
import AdminPanel.Panel.RemoteHosts
import AdminPanel.Setup.AaaaBlock
import AdminPanel.Awg3.TransportKeys
import AdminPanel.Traffic.LimitPeriods
import AdminPanel.Alerts.RuleTicks
import AdminPanel.Panel.ConfigQuota
