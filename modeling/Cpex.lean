import Cpex.Infra.Assoc
import Cpex.Infra.Datalog
import Cpex.Infra.Except
import Cpex.Infra.HashMap
import Cpex.Infra.Heap
import Cpex.Infra.Json
import Cpex.Infra.JsonPath
import Cpex.Infra.JsonShape
import Cpex.Infra.JsonSyntax
import Cpex.Infra.Lock
import Cpex.Infra.Machine
import Cpex.Infra.Mealy
import Cpex.Infra.Msgpack
import Cpex.Infra.RwLock
import Cpex.Infra.Serde
import Cpex.Infra.Simulation
import Cpex.Infra.StableSort
import Cpex.Infra.Text
import Cpex.Infra.Traced
import Cpex.Infra.Utf8
import Cpex.Host.CmfShim
import Cpex.Host.Conversion
import Cpex.Host.CredentialPayloads
import Cpex.Host.Credentials
import Cpex.Host.Deployment
import Cpex.Host.Ensure
import Cpex.Host.Error
import Cpex.Host.Extensions
import Cpex.Host.Framing
import Cpex.Host.Invoke
import Cpex.Host.Legacy
import Cpex.Host.Lifecycle
import Cpex.Host.Plugin
import Cpex.Host.Ppe
import Cpex.Host.Venv
import Cpex.Host.Wire
import Cpex.Host.Worker
import Cpex.Properties.BiscuitBlock
import Cpex.Properties.BiscuitExpiry
import Cpex.Properties.CmfStructs
import Cpex.Properties.ContentParts
import Cpex.Properties.ContextDeltas
import Cpex.Properties.CredentialOrder
import Cpex.Properties.Delegated
import Cpex.Properties.Deny
import Cpex.Properties.Deployment
import Cpex.Properties.EngineLock
import Cpex.Properties.Entering
import Cpex.Properties.Extensions
import Cpex.Properties.FirstDropped
import Cpex.Properties.Framing
import Cpex.Properties.Handles
import Cpex.Properties.Handshake
import Cpex.Properties.InboundOrder
import Cpex.Properties.Install
import Cpex.Properties.LegacyPayloads
import Cpex.Properties.Lengths
import Cpex.Properties.LifecycleSteps
import Cpex.Properties.Manager
import Cpex.Properties.Modifications
import Cpex.Properties.Noninterference
import Cpex.Properties.OkResults
import Cpex.Properties.Oversized
import Cpex.Properties.Ownership
import Cpex.Properties.Pending
import Cpex.Properties.PlainFfi
import Cpex.Properties.PlainMsgpack
import Cpex.Properties.PlainPpe
import Cpex.Properties.PythonValues
import Cpex.Properties.RequestId
import Cpex.Properties.ResolvedInvoke
import Cpex.Properties.Respawn
import Cpex.Properties.RespawnBudget
import Cpex.Properties.RespawnStorm
import Cpex.Properties.Shim
import Cpex.Properties.ShimCompleteness
import Cpex.Properties.ShimEcho
import Cpex.Properties.ShimFrame
import Cpex.Properties.ShimVisibility
import Cpex.Properties.Task
import Cpex.Properties.Teardown
import Cpex.Properties.Venv
import Cpex.Properties.VenvOwners
import Cpex.Properties.Wire
import Cpex.Properties.Worker
import Cpex.Properties.WriteBack
import Cpex.Bindings.Conversions
import Cpex.Bindings.Manager
import Cpex.Bindings.Result
import Cpex.Builtins.DelegatorBiscuit
import Cpex.Ffi.Dispatch
import Cpex.Ffi.Install
import Cpex.Ffi.Invoke
import Cpex.Ffi.Library
import Cpex.Ffi.Reports
import Cpex.Go.Cmf
import Cpex.Go.Engine
import Cpex.Go.EngineLock
