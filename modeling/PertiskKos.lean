import PertiskKos.Library.Runs
import PertiskKos.Library.Fallible
import PertiskKos.Update.Disk
import PertiskKos.Update.Meta
import PertiskKos.Update.Bundle
import PertiskKos.Update.Bootloader
import PertiskKos.Update.Apply
import PertiskKos.Update.Boot
import PertiskKos.Update.Book
import PertiskKos.Update.Machine
import PertiskKos.Update.Trial
import PertiskKos.Update.Rollback
import PertiskKos.Update.Loader
import PertiskKos.Update.Version
import PertiskKos.Update.Atomicity
import PertiskKos.Etcd.InitialCluster
import PertiskKos.Etcd.Manifest
import PertiskKos.Etcd.Heal
import PertiskKos.Etcd.SplitBrain
import PertiskKos.Etcd.Join
import PertiskKos.Etcd.Restore
import PertiskKos.Api.Logs
import PertiskKos.Api.Loki
import PertiskKos.Net.Lease
import PertiskKos.Net.LeaseEnd
import PertiskKos.Net.ProviderRecord
import PertiskKos.Net.Maintain
import PertiskKos.Net.StaticNetcfg
import PertiskKos.Net.PertiskNet
import PertiskKos.Net.SyntheticUla
import PertiskKos.Net.Link
import PertiskKos.Net.ProviderNet
import PertiskKos.Config.Merging
import PertiskKos.Config.Machine
import PertiskKos.Config.Duplicates
import PertiskKos.Config.MgmtUrl
import PertiskKos.Config.Document
import PertiskKos.Config.Partial
import PertiskKos.Config.Cluster
import PertiskKos.Supervise.Reload
import PertiskKos.Supervise.DualStack
import PertiskKos.Supervise.Reaper
import PertiskKos.Kubelet.Pinning
import PertiskKos.Kubelet.Credentials
import PertiskKos.Etcd.Address
import PertiskKos.Etcd.ForceNew
import PertiskKos.Etcd.ListenAll
import PertiskKos.Etcd.CommandFlags
import PertiskKos.Etcd.TokenScan
import PertiskKos.Etcd.Rewriting
import PertiskKos.Etcd.Recovery
import PertiskKos.Etcd.RewrittenFields
import PertiskKos.Etcd.MemberList
import PertiskKos.Etcd.Membership
import PertiskKos.Tpm.PcrSelection
import PertiskKos.Tpm.Command
import PertiskKos.Tpm.PcrBinding
import PertiskKos.Tpm.Wire
import PertiskKos.Tpm.NvRead
import PertiskKos.Tpm.Base64
import PertiskKos.Tpm.Pem
import PertiskKos.Tpm.Ek
import PertiskKos.Tpm.EkChain
import PertiskKos.Tpm.Verify
import PertiskKos.Tpm.Hostile
import PertiskKos.Tpm.Cursor
import PertiskKos.Kernel.BootModules
import PertiskKos.Kernel.ModInfo
import PertiskKos.Mgmt.ResetTokens
import PertiskKos.Mgmt.NodeSync
import PertiskKos.Mgmt.Worker
import PertiskKos.Mgmt.Purge
import PertiskKos.Mgmt.Replay
import PertiskKos.Mgmt.OsUpgrade
import PertiskKos.Mgmt.Scheduling
import PertiskKos.Mgmt.KubeletServing
import PertiskKos.Mgmt.Attestation
import PertiskKos.Mgmt.Vips
import PertiskKos.Mgmt.Steps
import PertiskKos.Mgmt.TrustKey
import PertiskKos.Mgmt.Quorum
import PertiskKos.Mgmt.NodeRows
import PertiskKos.Mgmt.Jobs
import PertiskKos.Mgmt.Cancel
import PertiskKos.Mgmt.AddressScan
import PertiskKos.Mgmt.Packages
import PertiskKos.Mgmt.LanIp
import PertiskKos.Mgmt.Admins
import PertiskKos.Mgmt.OsBundle
import PertiskKos.Mgmt.K8sUpgrade
import PertiskKos.Mgmt.Deleting
import PertiskKos.Mgmt.Ready
import PertiskKos.Mgmt.NodeCounters
import PertiskKos.Bootstrap.Export
import PertiskKos.Bootstrap.Kubeconfig
import PertiskKos.Bootstrap.KubeVip
import PertiskKos.Bootstrap.Responses
import PertiskKos.Bootstrap.Endpoint
import PertiskKos.Bootstrap.Rename
import PertiskKos.Bootstrap.Chunked
import PertiskKos.Bootstrap.ImageTags
import PertiskKos.Bootstrap.Announcing
import PertiskKos.Bootstrap.Rebase
import PertiskKos.Bootstrap.ServiceIp
import PertiskKos.Library.Terminal
import PertiskKos.Library.Utf8
import PertiskKos.Library.Visits
import PertiskKos.Library.Margins
import PertiskKos.Library.Json
import PertiskKos.Library.Search
import PertiskKos.Library.Strings
import PertiskKos.Library.Yaml
import PertiskKos.Library.Columns
import PertiskKos.Library.Hex
import PertiskKos.Library.AddressText
import PertiskKos.Library.Records
import PertiskKos.Library.Lossy
import PertiskKos.Library.Ip
import PertiskKos.Library.Ipv6
import PertiskKos.Library.Tables
import PertiskKos.Library.Lines
import PertiskKos.Disk.Plan
import PertiskKos.Disk.Grow
import PertiskKos.Disk.Gpt
import PertiskKos.Disk.Ephemeral
import PertiskKos.Console.FrameWriter
import PertiskKos.Console.Repaint
import PertiskKos.Console.LogRing
