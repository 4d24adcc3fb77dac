import NacPlatform.Framework.Proc
import NacPlatform.Framework.Run
import NacPlatform.Enforcement.Footprint
import NacPlatform.Enforcement.Loops
import NacPlatform.Enforcement.AllowIsFinal
import NacPlatform.Enforcement.IpRules
import NacPlatform.Enforcement.Reinforce
import NacPlatform.Enforcement.Releases
import NacPlatform.Enforcement.Backends
import NacPlatform.Enforcement.Restores
import NacPlatform.Aaa.LoginTargets
import NacPlatform.Aaa.PortalPages
import NacPlatform.AgentGateway.AgentService
import NacPlatform.Dhcp.Acks
import NacPlatform.Dhcp.Allocations
import NacPlatform.PolicyEngine.Evaluator
import NacPlatform.PolicyManager.Agreement
import NacPlatform.PolicyManager.Announced
import NacPlatform.PolicyManager.Exempt
import NacPlatform.PolicyManager.Faults
import NacPlatform.PolicyManager.Login
import NacPlatform.PolicyManager.LoginRace
import NacPlatform.Aaa.RadiusServer
import NacPlatform.AgentGateway.Registration
import NacPlatform.AgentGateway.Reporting
import NacPlatform.Framework.StableSort
import NacPlatform.PolicyEngine.FirstMatch
import NacPlatform.PolicyManager.Gateways
import NacPlatform.PolicyManager.LastObserved
import NacPlatform.AgentGateway.Tokens
import NacPlatform.PolicyManager.Assigned
import NacPlatform.PolicyManager.PolicyRace
import NacPlatform.PolicyManager.Sessions
import NacPlatform.PolicyManager.ArpTable
import NacPlatform.PolicyManager.RouteTables
import NacPlatform.PolicyManager.IpRuleApi
import NacPlatform.ApiGateway.Auth
import NacPlatform.ApiGateway.Proxy
import NacPlatform.Aaa.PapPassword
import NacPlatform.NetProto.NdpOptions
import NacPlatform.Enforcement.MacNotations
import NacPlatform.PolicyManager.MacLists
import NacPlatform.PolicyManager.BlindLeaves
import NacPlatform.PolicyManager.Repeated
import NacPlatform.Aaa.Tunnels
import NacPlatform.Enforcement.NftChains
import NacPlatform.Enforcement.Repairs
import NacPlatform.Enforcement.SharedIps
import NacPlatform.PolicyManager.Network
import NacPlatform.Store.Upserts
import NacPlatform.Store.Posture
import NacPlatform.AgentGateway.LegacyMacs
import NacPlatform.AgentGateway.SystemInfo
import NacPlatform.Sensor.Fingerprint
import NacPlatform.EndpointAgent.Software
import NacPlatform.NacAuth.GroupNames
import NacPlatform.NacAuth.SearchFilter
import NacPlatform.PolicyManager.Jobs
import NacPlatform.PolicyManager.UserNames
import NacPlatform.PolicyManager.Reported
import NacPlatform.EndpointAgent.Postures
import NacPlatform.Aaa.LocalLogins
import NacPlatform.PolicyManager.Accounts
import NacPlatform.Enforcement.NftPath
import NacPlatform.Deployment.Overheard
import NacPlatform.Deployment.Decisions
import NacPlatform.PolicyManager.EndpointLists
import NacPlatform.PolicyManager.Hosts
import NacPlatform.AdminConsole.BlacklistRuns
