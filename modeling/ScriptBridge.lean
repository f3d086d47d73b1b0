import ScriptBridge.Config.Environment
import ScriptBridge.Session.Hosting
import ScriptBridge.Session.Rehearsing
import ScriptBridge.Session.Scripting
import ScriptBridge.Value.Json
import ScriptBridge.Proofs.Contract.Collection
import ScriptBridge.Proofs.Engine.Mapping
import ScriptBridge.Proofs.Engine.Refusal
import ScriptBridge.Proofs.Host.Tenancy
import ScriptBridge.Proofs.Registry.Graph
import ScriptBridge.Proofs.Registry.Indexes
import ScriptBridge.Proofs.Script.Handles
import ScriptBridge.Proofs.Start.Initializers
import ScriptBridge.Proofs.Start.Lifecycle
import ScriptBridge.Proofs.Engine.Driving
import ScriptBridge.Proofs.Script.Closing
import ScriptBridge.Proofs.Contract.Rewrapping
import ScriptBridge.Proofs.Engine.Executing
import ScriptBridge.Proofs.Script.Belonging
import ScriptBridge.Proofs.Script.Overlooking
import ScriptBridge.Proofs.Engine.Linking
import ScriptBridge.Proofs.Engine.Resuming
import ScriptBridge.Proofs.Engine.Parentage
import ScriptBridge.Proofs.Engine.Finalizers
import ScriptBridge.Proofs.Engine.Sourcing
import ScriptBridge.Proofs.Script.Locating
import ScriptBridge.Proofs.Contract.Rooting
import ScriptBridge.Proofs.Engine.Attending
import ScriptBridge.Proofs.Script.Reporting
import ScriptBridge.Proofs.Config.Environment
import ScriptBridge.Proofs.Config.Document
import ScriptBridge.Proofs.Json.Writing
import ScriptBridge.Proofs.Script.Storing
