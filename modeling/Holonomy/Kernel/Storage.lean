import Holonomy.Kernel.Validation

/-!
# Storage policy and storage constraints

A storage policy holds namespaces under common limits. The bounds on key prefixes and database names
are limits of the policy itself, and the serialized namespaces have a bound of their own.
-/

namespace Holonomy.Kernel

open Foundation

/-! ## Names of the capability language

The enumerations that capability constraints and policies are written in, each with the spelling the
source gives its values.
-/

/-- Rights of a filesystem root. -/
inductive FilesystemRight
  | chmod | create | delete | list | move | read | watch | write
  deriving DecidableEq

instance : Literal FilesystemRight where
  values := [.chmod, .create, .delete, .list, .move, .read, .watch, .write]
  spell
    | .chmod => "chmod"
    | .create => "create"
    | .delete => "delete"
    | .list => "list"
    | .move => "move"
    | .read => "read"
    | .watch => "watch"
    | .write => "write"

/-- How a filesystem root treats symbolic links. -/
inductive SymlinkPolicy
  | deny | withinRoot
  deriving DecidableEq

instance : Literal SymlinkPolicy where
  values := [.deny, .withinRoot]
  spell
    | .deny => "deny"
    | .withinRoot => "withinRoot"

/-- Limits of filesystem access. -/
inductive FilesystemLimit
  | maxDirectoryEntries | maxOpenHandles | maxQueuedEvents | maxReadBytes | maxWatchers
  | maxWriteBytes
  deriving DecidableEq

instance : Literal FilesystemLimit where
  values := [.maxDirectoryEntries, .maxOpenHandles, .maxQueuedEvents, .maxReadBytes, .maxWatchers,
    .maxWriteBytes]
  spell
    | .maxDirectoryEntries => "maxDirectoryEntries"
    | .maxOpenHandles => "maxOpenHandles"
    | .maxQueuedEvents => "maxQueuedEvents"
    | .maxReadBytes => "maxReadBytes"
    | .maxWatchers => "maxWatchers"
    | .maxWriteBytes => "maxWriteBytes"

/-- The modes of network access. -/
inductive NetworkMode
  | mockOnly | restricted
  deriving DecidableEq

instance : Literal NetworkMode where
  values := [.mockOnly, .restricted]
  spell
    | .mockOnly => "mockOnly"
    | .restricted => "restricted"

/-- The schemes of network access. -/
inductive NetworkScheme
  | http | https
  deriving DecidableEq

instance : Literal NetworkScheme where
  values := [.http, .https]
  spell
    | .http => "http"
    | .https => "https"

/-- Limits of network access. -/
inductive NetworkLimit
  | maxChunkBytes | maxConcurrentConnections | maxHeaderBytes | maxHeaders | maxRedirects
  | maxRequestBodyBytes | maxResponseBodyBytes | maxUrlBytes | socketTimeoutMs
  deriving DecidableEq

instance : Literal NetworkLimit where
  values := [.maxChunkBytes, .maxConcurrentConnections, .maxHeaderBytes, .maxHeaders,
    .maxRedirects, .maxRequestBodyBytes, .maxResponseBodyBytes, .maxUrlBytes, .socketTimeoutMs]
  spell
    | .maxChunkBytes => "maxChunkBytes"
    | .maxConcurrentConnections => "maxConcurrentConnections"
    | .maxHeaderBytes => "maxHeaderBytes"
    | .maxHeaders => "maxHeaders"
    | .maxRedirects => "maxRedirects"
    | .maxRequestBodyBytes => "maxRequestBodyBytes"
    | .maxResponseBodyBytes => "maxResponseBodyBytes"
    | .maxUrlBytes => "maxUrlBytes"
    | .socketTimeoutMs => "socketTimeoutMs"

/-- Precisions of device readings. -/
inductive DevicePrecision
  | coarse | exact | standard
  deriving DecidableEq

instance : Literal DevicePrecision where
  values := [.coarse, .exact, .standard]
  spell
    | .coarse => "coarse"
    | .exact => "exact"
    | .standard => "standard"

/-- Device operations. -/
inductive DeviceOperation
  | connectivityCellularStateRead | connectivityRead | connectivityWifiIdentityRead
  | connectivityWifiStateRead | displayRead | eventsSubscribe | formFactorRead | inputRead
  | lifecycleRead | mediaCapabilitiesRead | powerRead | securityCapabilitiesRead
  | sensorCapabilitiesRead | summaryRead | thermalRead
  deriving DecidableEq

instance : Literal DeviceOperation where
  values := [.connectivityCellularStateRead, .connectivityRead, .connectivityWifiIdentityRead,
    .connectivityWifiStateRead, .displayRead, .eventsSubscribe, .formFactorRead, .inputRead,
    .lifecycleRead, .mediaCapabilitiesRead, .powerRead, .securityCapabilitiesRead,
    .sensorCapabilitiesRead, .summaryRead, .thermalRead]
  spell
    | .connectivityCellularStateRead => "device.connectivity.cellular.state.read"
    | .connectivityRead => "device.connectivity.read"
    | .connectivityWifiIdentityRead => "device.connectivity.wifi.identity.read"
    | .connectivityWifiStateRead => "device.connectivity.wifi.state.read"
    | .displayRead => "device.display.read"
    | .eventsSubscribe => "device.events.subscribe"
    | .formFactorRead => "device.form-factor.read"
    | .inputRead => "device.input.read"
    | .lifecycleRead => "device.lifecycle.read"
    | .mediaCapabilitiesRead => "device.media.capabilities.read"
    | .powerRead => "device.power.read"
    | .securityCapabilitiesRead => "device.security.capabilities.read"
    | .sensorCapabilitiesRead => "device.sensor.capabilities.read"
    | .summaryRead => "device.summary.read"
    | .thermalRead => "device.thermal.read"

inductive SystemPrecision
  | coarse | exact | redacted
  deriving DecidableEq

instance : Literal SystemPrecision where
  values := [.coarse, .exact, .redacted]
  spell
    | .coarse => "coarse"
    | .exact => "exact"
    | .redacted => "redacted"

/-- How system information is exposed. -/
inductive ProjectionMode
  | real | redacted | synthetic
  deriving DecidableEq

instance : Literal ProjectionMode where
  values := [.real, .redacted, .synthetic]
  spell
    | .real => "real"
    | .redacted => "redacted"
    | .synthetic => "synthetic"

/-- System information fields. -/
inductive SystemInformationField
  | osArch | osAvailableParallelism | osCpus | osFreemem | osHomedir | osHostname | osLoadavg
  | osMachine | osNetworkInterfaces | osPlatform | osRelease | osTmpdir | osTotalmem | osType
  | osUptime | osUserInfo | osVersion | processCwd | processEnv | processExecPath | processPid
  deriving DecidableEq

instance : Literal SystemInformationField where
  values := [.osArch, .osAvailableParallelism, .osCpus, .osFreemem, .osHomedir, .osHostname,
    .osLoadavg, .osMachine, .osNetworkInterfaces, .osPlatform, .osRelease, .osTmpdir, .osTotalmem,
    .osType, .osUptime, .osUserInfo, .osVersion, .processCwd, .processEnv, .processExecPath,
    .processPid]
  spell
    | .osArch => "os.arch"
    | .osAvailableParallelism => "os.availableParallelism"
    | .osCpus => "os.cpus"
    | .osFreemem => "os.freemem"
    | .osHomedir => "os.homedir"
    | .osHostname => "os.hostname"
    | .osLoadavg => "os.loadavg"
    | .osMachine => "os.machine"
    | .osNetworkInterfaces => "os.networkInterfaces"
    | .osPlatform => "os.platform"
    | .osRelease => "os.release"
    | .osTmpdir => "os.tmpdir"
    | .osTotalmem => "os.totalmem"
    | .osType => "os.type"
    | .osUptime => "os.uptime"
    | .osUserInfo => "os.userInfo"
    | .osVersion => "os.version"
    | .processCwd => "process.cwd"
    | .processEnv => "process.env"
    | .processExecPath => "process.execPath"
    | .processPid => "process.pid"

/-- Usages of a stored credential. -/
inductive CredentialUsage
  | gitHttp | httpAuthorization
  deriving DecidableEq

instance : Literal CredentialUsage where
  values := [.gitHttp, .httpAuthorization]
  spell
    | .gitHttp => "gitHttp"
    | .httpAuthorization => "httpAuthorization"

/-- Signals a process may be sent. -/
inductive ProcessSignal
  | sigint | sigkill | sigterm
  deriving DecidableEq

instance : Literal ProcessSignal where
  values := [.sigint, .sigkill, .sigterm]
  spell
    | .sigint => "SIGINT"
    | .sigkill => "SIGKILL"
    | .sigterm => "SIGTERM"

/-- Limits of process execution. -/
inductive ProcessLimit
  | maxConcurrentProcesses | maxExecutionTimeMs | maxOpenPipes | maxProcessTreeDepth
  | maxStderrBytes | maxStdinBytes | maxStdoutBytes | maxTotalProcesses | maxWritableRootfsBytes
  deriving DecidableEq

instance : Literal ProcessLimit where
  values := [.maxConcurrentProcesses, .maxExecutionTimeMs, .maxOpenPipes, .maxProcessTreeDepth,
    .maxStderrBytes, .maxStdinBytes, .maxStdoutBytes, .maxTotalProcesses, .maxWritableRootfsBytes]
  spell
    | .maxConcurrentProcesses => "maxConcurrentProcesses"
    | .maxExecutionTimeMs => "maxExecutionTimeMs"
    | .maxOpenPipes => "maxOpenPipes"
    | .maxProcessTreeDepth => "maxProcessTreeDepth"
    | .maxStderrBytes => "maxStderrBytes"
    | .maxStdinBytes => "maxStdinBytes"
    | .maxStdoutBytes => "maxStdoutBytes"
    | .maxTotalProcesses => "maxTotalProcesses"
    | .maxWritableRootfsBytes => "maxWritableRootfsBytes"

/-- Transports of a process network endpoint. -/
inductive Transport
  | tcp | tls | udp
  deriving DecidableEq

instance : Literal Transport where
  values := [.tcp, .tls, .udp]
  spell
    | .tcp => "tcp"
    | .tls => "tls"
    | .udp => "udp"

inductive PrivateNetwork
  | allow | deny
  deriving DecidableEq

instance : Literal PrivateNetwork where
  values := [.allow, .deny]
  spell
    | .allow => "allow"
    | .deny => "deny"

/-- Storage operations. -/
inductive StorageOperation
  | kvDelete | kvGet | kvList | kvSet | sqliteExecute | sqliteQuery | sqliteTransaction
  deriving DecidableEq

instance : Literal StorageOperation where
  values := [.kvDelete, .kvGet, .kvList, .kvSet, .sqliteExecute, .sqliteQuery, .sqliteTransaction]
  spell
    | .kvDelete => "storage.kv.delete"
    | .kvGet => "storage.kv.get"
    | .kvList => "storage.kv.list"
    | .kvSet => "storage.kv.set"
    | .sqliteExecute => "storage.sqlite.execute"
    | .sqliteQuery => "storage.sqlite.query"
    | .sqliteTransaction => "storage.sqlite.transaction"

/-- Limits of storage access. -/
inductive StorageLimit
  | maxDatabaseBytes | maxDatabaseNameBytes | maxDatabases | maxKeyBytes | maxKeysPerList
  | maxPendingOperations | maxRowsPerQuery | maxSqlBytes | maxSqlInstructions
  | maxTransactionStatements | maxValueBytes
  deriving DecidableEq

instance : Literal StorageLimit where
  values := [.maxDatabaseBytes, .maxDatabaseNameBytes, .maxDatabases, .maxKeyBytes,
    .maxKeysPerList, .maxPendingOperations, .maxRowsPerQuery, .maxSqlBytes, .maxSqlInstructions,
    .maxTransactionStatements, .maxValueBytes]
  spell
    | .maxDatabaseBytes => "maxDatabaseBytes"
    | .maxDatabaseNameBytes => "maxDatabaseNameBytes"
    | .maxDatabases => "maxDatabases"
    | .maxKeyBytes => "maxKeyBytes"
    | .maxKeysPerList => "maxKeysPerList"
    | .maxPendingOperations => "maxPendingOperations"
    | .maxRowsPerQuery => "maxRowsPerQuery"
    | .maxSqlBytes => "maxSqlBytes"
    | .maxSqlInstructions => "maxSqlInstructions"
    | .maxTransactionStatements => "maxTransactionStatements"
    | .maxValueBytes => "maxValueBytes"

/-- Whether a section of a policy grants access. -/
inductive SandboxAccess
  | none | sandboxed
  deriving DecidableEq

instance : Literal SandboxAccess where
  values := [.none, .sandboxed]
  spell
    | .none => "none"
    | .sandboxed => "sandboxed"

/-- Built-in capabilities. -/
inductive CapabilityName
  | deviceSensitive | deviceState | deviceSummary | diagnosticsSourceRead | fs | networkHttp
  | networkMock | networkRequestBodyRead | processExecute | processNetwork | processShell
  | processSignal | storage | storageCredential | systemBasic | systemCompute | systemIdentity
  | systemMemory | systemNetworkTopology | systemProcessIdentity | systemRuntime | systemVersion
  deriving DecidableEq

instance : Literal CapabilityName where
  values := [.deviceSensitive, .deviceState, .deviceSummary, .diagnosticsSourceRead, .fs,
    .networkHttp, .networkMock, .networkRequestBodyRead, .processExecute, .processNetwork,
    .processShell, .processSignal, .storage, .storageCredential, .systemBasic, .systemCompute,
    .systemIdentity, .systemMemory, .systemNetworkTopology, .systemProcessIdentity,
    .systemRuntime, .systemVersion]
  spell
    | .deviceSensitive => "host.device.sensitive"
    | .deviceState => "host.device.state"
    | .deviceSummary => "host.device.summary"
    | .diagnosticsSourceRead => "host.diagnostics.source.read"
    | .fs => "host.fs"
    | .networkHttp => "host.network.http"
    | .networkMock => "host.network.mock"
    | .networkRequestBodyRead => "host.network.request-body.read"
    | .processExecute => "host.process.execute"
    | .processNetwork => "host.process.network"
    | .processShell => "host.process.shell"
    | .processSignal => "host.process.signal"
    | .storage => "host.storage"
    | .storageCredential => "host.storage.credential"
    | .systemBasic => "host.system.basic"
    | .systemCompute => "host.system.compute"
    | .systemIdentity => "host.system.identity"
    | .systemMemory => "host.system.memory"
    | .systemNetworkTopology => "host.system.network-topology"
    | .systemProcessIdentity => "host.system.process-identity"
    | .systemRuntime => "host.system.runtime"
    | .systemVersion => "host.system.version"

def DevicePrecision.rank : DevicePrecision → ℕ
  | .coarse => 0
  | .standard => 1
  | .exact => 2

def SystemPrecision.rank : SystemPrecision → ℕ
  | .redacted => 0
  | .coarse => 1
  | .exact => 2

inductive ConstraintSchema
  | filesystem
  | network (mode : NetworkMode)
  | device
  | system
  | processExecution
  | processNetwork
  | processShell
  | processSignal
  | storage
  | credential
  | reader
  deriving DecidableEq

def CapabilityName.schema : CapabilityName → ConstraintSchema
  | .fs => .filesystem
  | .networkHttp => .network .restricted
  | .networkMock => .network .mockOnly
  | .deviceSensitive | .deviceState | .deviceSummary => .device
  | .systemBasic | .systemCompute | .systemIdentity | .systemMemory | .systemNetworkTopology
  | .systemProcessIdentity | .systemRuntime | .systemVersion => .system
  | .processExecute => .processExecution
  | .processNetwork => .processNetwork
  | .processShell => .processShell
  | .processSignal => .processSignal
  | .storage => .storage
  | .storageCredential => .credential
  | .diagnosticsSourceRead | .networkRequestBodyRead => .reader

def CapabilityName.providerModule : CapabilityName → Text
  | .deviceSensitive | .deviceState | .deviceSummary => js "host.device"
  | .diagnosticsSourceRead => js "host.diagnostics"
  | .fs => js "host.fs"
  | .networkHttp | .networkRequestBodyRead => js "host.network"
  | .networkMock => js "host.network.mock"
  | .processExecute | .processNetwork | .processShell | .processSignal => js "host.process"
  | .storage | .storageCredential => js "host.storage"
  | .systemBasic | .systemCompute | .systemIdentity | .systemMemory | .systemNetworkTopology
  | .systemProcessIdentity | .systemRuntime | .systemVersion => js "host.system"

def storageLimitMaximum : StorageLimit → ℕ
  | .maxDatabaseNameBytes => 128
  | .maxDatabaseBytes => 32 * 1024 * 1024
  | .maxDatabases => 16
  | .maxKeyBytes => 1024
  | .maxKeysPerList => 1024
  | .maxPendingOperations => 128
  | .maxRowsPerQuery => 1024
  | .maxSqlBytes => 64 * 1024
  | .maxSqlInstructions => 10000000
  | .maxTransactionStatements => 256
  | .maxValueBytes => 1024 * 1024

/-- The limits of storage access. -/
abbrev StorageLimits : Type := (name : StorageLimit) → Bounded 1 (storageLimitMaximum name)

/-- The operation works on keys and values. -/
def StorageOperation.isKv : StorageOperation → Bool
  | .kvDelete | .kvGet | .kvList | .kvSet => true
  | .sqliteExecute | .sqliteQuery | .sqliteTransaction => false

/-- The operation works on databases. -/
def StorageOperation.isSqlite (operation : StorageOperation) : Bool := !operation.isKv

/-- A text of whole characters and bounded size. -/
def IsScalarText (maximumBytes : ℕ) (allowEmpty : Bool) (text : Text) : Prop :=
  (allowEmpty = true ∨ text ≠ []) ∧ utf8ByteLength text ≤ maximumBytes ∧ WellFormed text

instance (maximumBytes : ℕ) (allowEmpty : Bool) :
    DecidablePred (IsScalarText maximumBytes allowEmpty) :=
  fun _ => inferInstanceAs (Decidable (_ ∧ _ ∧ _))

def scalarText (maximumBytes : ℕ) (allowEmpty : Bool) (value : JsonValue) :
    Js { text : Text // IsScalarText maximumBytes allowEmpty text } := do
  let text ← boundedText value maximumBytes allowEmpty
  if scalar : IsScalarText maximumBytes allowEmpty text then .ok ⟨text, scalar⟩ else invalidPolicy

def pointOrder : Precedence Text := (Precedence.ofLinear (List ℕ)).comap points

abbrev ScalarSet (maximumBytes : ℕ) (allowEmpty : Bool) : Type :=
  OrderedSet (pointOrder.comap
    fun text : { text : Text // IsScalarText maximumBytes allowEmpty text } => text.val) 0 64

/-- A list of texts of whole characters in code point order, none repeated. -/
def scalarSet (maximumBytes : ℕ) (allowEmpty : Bool) (value : JsonValue) :
    Js (ScalarSet maximumBytes allowEmpty) :=
  orderedArray _ id (scalarText maximumBytes allowEmpty) value 0 64

def ScalarSet.texts {maximumBytes : ℕ} {allowEmpty : Bool}
    (set : ScalarSet maximumBytes allowEmpty) : List Text :=
  set.values.map Subtype.val

def textsJson (texts : List Text) : JsonValue := .array (texts.map .string)

structure StorageNamespace (limits : StorageLimits) where
  databases : ScalarSet (limits .maxDatabaseNameBytes).val false
  keyPrefixes : ScalarSet (limits .maxKeyBytes).val true
  namespaceId : Identifier 128
  operations : LiteralSet StorageOperation 1 7
  keyed : (∃ operation ∈ operations.values, operation.isKv = true) → keyPrefixes.values ≠ []
  stored : (∃ operation ∈ operations.values, operation.isSqlite = true) → databases.values ≠ []

def storageLimitsJson (limits : StorageLimits) : JsonValue :=
  recordJson fun name => natJson (limits name).val

def StorageNamespace.toJson {limits : StorageLimits} (entry : StorageNamespace limits) :
    JsonValue :=
  objectJson [("databases", textsJson entry.databases.texts),
    ("keyPrefixes", textsJson entry.keyPrefixes.texts),
    ("namespaceId", .string entry.namespaceId.text), ("operations", literalsJson entry.operations)]

def namespacesSize (platform : Platform) {limits : StorageLimits}
    (namespaces : List (StorageNamespace limits)) : ℕ :=
  utf8ByteLength (JsonValue.stringify platform.numbers
    (.array (namespaces.map StorageNamespace.toJson)))

def maxNamespacesSize : ℕ := 256 * 1024

def namespaceOrder (limits : StorageLimits) : Precedence (StorageNamespace limits) :=
  pointOrder.comap fun entry => entry.namespaceId.text

/-- The storage section of a policy. -/
inductive StorageSandbox (platform : Platform)
  | none
  | sandboxed (limits : StorageLimits)
      (namespaces : KeyedSet (namespaceOrder limits) (fun entry => entry.namespaceId.text) 1 64)
      (small : namespacesSize platform namespaces.values ≤ maxNamespacesSize)

def StorageSandbox.toJson {platform : Platform} : StorageSandbox platform → JsonValue
  | none => objectJson [("access", literalJson SandboxAccess.none)]
  | sandboxed limits namespaces _ => objectJson [("access", literalJson SandboxAccess.sandboxed),
      ("limits", storageLimitsJson limits),
      ("namespaces", .array (namespaces.values.map StorageNamespace.toJson))]

def normalizeStorageLimitsV2 (value : JsonValue) : Js StorageLimits := do
  let input ← exact value ((Literal.values (T := StorageLimit)).map Literal.spell)
  eachKey fun name => do
    let limit ← required input (Literal.spell name)
    integer limit 1 (storageLimitMaximum name)

def normalizeStorageNamespace (limits : StorageLimits) (value : JsonValue) :
    Js (StorageNamespace limits) := do
  let entry ← exact value ["databases", "keyPrefixes", "namespaceId", "operations"]
  let operations ← stringSet StorageOperation (← required entry "operations") 1 7
  let keyPrefixes ← scalarSet (limits .maxKeyBytes).val true (← required entry "keyPrefixes")
  let databases ← scalarSet (limits .maxDatabaseNameBytes).val false (← required entry "databases")
  if keyed : (∃ operation ∈ operations.values, operation.isKv = true) → keyPrefixes.values ≠ [] then
    if stored : (∃ operation ∈ operations.values, operation.isSqlite = true) →
        databases.values ≠ [] then do
      let namespaceId ← identifier (← required entry "namespaceId") 128
      .ok { databases, keyPrefixes, namespaceId, operations, keyed, stored }
    else invalidPolicy
  else invalidPolicy

def normalizeStorageSandboxV2 (platform : Platform) (value : JsonValue) :
    Js (StorageSandbox platform) := do
  let input ← exact value ["access", "limits", "namespaces"]
  match ← literal SandboxAccess (← required input "access") with
  | .none => if input.length ≠ 1 then invalidPolicy else .ok .none
  | .sandboxed => do
    let limits ← normalizeStorageLimitsV2 (← required input "limits")
    let namespaces ← orderedArray (namespaceOrder limits) (fun entry => entry.namespaceId.text)
      (normalizeStorageNamespace limits) (← required input "namespaces") 1 64
    if small : namespacesSize platform namespaces.values ≤ maxNamespacesSize then
      .ok (.sandboxed limits namespaces small)
    else invalidPolicy

structure StorageConstraints (platform : Platform) where
  limits : StorageLimits
  entry : StorageNamespace limits
  small : namespacesSize platform [entry] ≤ maxNamespacesSize

def storageConstraintsJson (databases keyPrefixes : List Text) (limits : StorageLimits)
    (namespaceId : Text) (operations : List StorageOperation) : JsonValue :=
  objectJson [("databases", textsJson databases), ("keyPrefixes", textsJson keyPrefixes),
    ("limits", storageLimitsJson limits), ("namespaceId", .string namespaceId),
    ("operations", .array (operations.map literalJson))]

def StorageConstraints.toJson {platform : Platform} (constraints : StorageConstraints platform) :
    JsonValue :=
  storageConstraintsJson constraints.entry.databases.texts constraints.entry.keyPrefixes.texts
    constraints.limits constraints.entry.namespaceId.text constraints.entry.operations.values

def normalizeStorageCapabilityConstraintsV1 (platform : Platform) (value : JsonValue) :
    Js (StorageConstraints platform) := do
  let input ← exact value ["databases", "keyPrefixes", "limits", "namespaceId", "operations"]
  let normalized ← normalizeStorageSandboxV2 platform (objectJson [
    ("access", literalJson SandboxAccess.sandboxed), ("limits", ← required input "limits"),
    ("namespaces", .array [objectJson [("databases", ← required input "databases"),
      ("keyPrefixes", ← required input "keyPrefixes"),
      ("namespaceId", ← required input "namespaceId"),
      ("operations", ← required input "operations")]])])
  match normalized with
  | .none => invalidPolicy
  | .sandboxed limits namespaces small =>
    match listed : namespaces.values with
    | [entry] => .ok { limits, entry, small := listed ▸ small }
    | _ => invalidPolicy

section Forms

variable {platform : Platform}

variable {maximumBytes : ℕ} {allowEmpty : Bool} {limits : StorageLimits}

@[simp]
theorem scalarText_string (text : { text : Text // IsScalarText maximumBytes allowEmpty text }) :
    scalarText maximumBytes allowEmpty (.string text.val) = .ok text := by
  rw [scalarText, boundedText_string _ _ _ text.property.1 text.property.2.1, ok_bind]
  exact dif_pos text.property

@[simp]
theorem scalarSet_textsJson (set : ScalarSet maximumBytes allowEmpty) :
    scalarSet maximumBytes allowEmpty (textsJson set.texts) = .ok set := by
  rw [scalarSet, textsJson, ScalarSet.texts, List.map_map]
  exact orderedArray_map _ _ set fun text _ => scalarText_string text

@[simp]
theorem normalizeStorageLimitsV2_json (limits : StorageLimits) :
    normalizeStorageLimitsV2 (storageLimitsJson limits) = .ok limits := by
  simp only [normalizeStorageLimitsV2, storageLimitsJson]
  rw [exact_recordJson _ (by decide), ok_bind, eachKey_eq_ok]
  intro name
  rw [required_record, ok_bind, integer_natJson]

@[simp]
theorem normalizeStorageNamespace_toJson (entry : StorageNamespace limits) :
    normalizeStorageNamespace limits entry.toJson = .ok entry := by
  simp only [normalizeStorageNamespace, StorageNamespace.toJson]
  rw [exact_objectJson _ _ (by simp [maxContainerEntries]) (by simp)]
  simp only [List.map_cons, List.map_nil, required_cons, String.reduceEq, reduceIte, ok_bind,
    stringSet_literalsJson, scalarSet_textsJson, identifier_string]
  rw [dif_pos entry.keyed, dif_pos entry.stored]

theorem normalizeStorageSandboxV2_toJson (sandbox : StorageSandbox platform) :
    normalizeStorageSandboxV2 platform sandbox.toJson = .ok sandbox := by
  cases sandbox with
  | none =>
    simp only [normalizeStorageSandboxV2, StorageSandbox.toJson]
    rw [exact_objectJson _ _ (by simp [maxContainerEntries]) (by simp)]
    simp
  | sandboxed limits namespaces small =>
    simp only [normalizeStorageSandboxV2, StorageSandbox.toJson]
    rw [exact_objectJson _ _ (by simp [maxContainerEntries]) (by simp)]
    have listed := orderedArray_map (normalizeStorageNamespace limits) StorageNamespace.toJson
      namespaces fun entry _ => normalizeStorageNamespace_toJson entry
    simp [listed, small]

theorem normalizeStorageCapabilityConstraintsV1_toJson (constraints : StorageConstraints platform) :
    normalizeStorageCapabilityConstraintsV1 platform constraints.toJson = .ok constraints := by
  obtain ⟨limits, entry, small⟩ := constraints
  let namespaces : KeyedSet (namespaceOrder limits) (fun entry => entry.namespaceId.text) 1 64 :=
    { values := [entry], sorted := by simp, nodup := by simp, atLeast := by simp,
      atMost := by simp }
  have policy := normalizeStorageSandboxV2_toJson (.sandboxed limits namespaces small)
  simp only [StorageSandbox.toJson, StorageNamespace.toJson, literalsJson, namespaces,
    List.map_cons, List.map_nil] at policy
  simp only [normalizeStorageCapabilityConstraintsV1, StorageConstraints.toJson,
    storageConstraintsJson]
  rw [exact_objectJson _ _ (by simp [maxContainerEntries]) (by simp)]
  simp only [List.map_cons, List.map_nil, required_cons, String.reduceEq, reduceIte, ok_bind]
  rw [policy, ok_bind]

theorem val_of_scalarText {source : Text}
    {text : { text : Text // IsScalarText maximumBytes allowEmpty text }}
    (accepted : scalarText maximumBytes allowEmpty (.string source) = .ok text) :
    text.val = source := by
  simp only [scalarText, bind_eq_ok, boundedText_eq_ok, JsonValue.string.injEq] at accepted
  obtain ⟨_, ⟨rfl, -⟩, read⟩ := accepted
  split at read
  · rw [← Except.ok.inj read]
  · cases read

theorem texts_of_scalarSet {texts : List Text} {set : ScalarSet maximumBytes allowEmpty}
    (accepted : scalarSet maximumBytes allowEmpty (textsJson texts) = .ok set) :
    set.texts.Perm texts :=
  perm_of_orderedArray Subtype.val (fun _ _ => val_of_scalarText) accepted

theorem perm_of_stringSet {T : Type} [Literal T] [DecidableEq T] {minimum maximum : ℕ}
    {values : List T} {set : LiteralSet T minimum maximum}
    (accepted : stringSet T (.array (values.map literalJson)) minimum maximum = .ok set) :
    set.values.Perm values := by
  have listed : (set.values.map id).Perm values := by
    refine perm_of_orderedArray id (fun _ _ read => ?_) accepted
    rwa [literal_literalJson, Except.ok.injEq, eq_comm] at read
  rwa [List.map_id] at listed

theorem parts_of_normalizeStorage {databases keyPrefixes : List Text}
    {namespaceId : Text} {operations : List StorageOperation} {met : StorageConstraints platform}
    (accepted : normalizeStorageCapabilityConstraintsV1 platform
      (storageConstraintsJson databases keyPrefixes limits namespaceId operations) = .ok met) :
    met.limits = limits ∧ met.entry.namespaceId.text = namespaceId ∧
      met.entry.databases.texts.Perm databases ∧ met.entry.keyPrefixes.texts.Perm keyPrefixes ∧
      met.entry.operations.values.Perm operations := by
  simp only [normalizeStorageCapabilityConstraintsV1, storageConstraintsJson] at accepted
  rw [exact_objectJson _ _ (by simp [maxContainerEntries]) (by simp)] at accepted
  simp only [List.map_cons, List.map_nil, required_cons, String.reduceEq, reduceIte, ok_bind]
    at accepted
  rw [bind_eq_ok] at accepted
  obtain ⟨normalized, policy, read⟩ := accepted
  simp only [normalizeStorageSandboxV2] at policy
  rw [exact_objectJson _ _ (by simp [maxContainerEntries]) (by simp)] at policy
  simp only [List.map_cons, List.map_nil, required_cons, String.reduceEq, reduceIte, ok_bind,
    literal_literalJson, normalizeStorageLimitsV2_json, bind_eq_ok] at policy
  obtain ⟨namespaces, listed, fits⟩ := policy
  split at fits
  · cases fits
    dsimp only at read
    obtain ⟨items, values, same, returns, -, sorted⟩ := (orderedArray_eq_ok _ _ _).mp listed
    cases same
    obtain ⟨entry, rest, entryRead, nothing, rfl⟩ := List.forall₂_cons_left_iff.mp returns
    cases List.forall₂_nil_left_iff.mp nothing
    rw [Precedence.sort_singleton] at sorted
    simp only [normalizeStorageNamespace] at entryRead
    rw [exact_objectJson _ _ (by simp [maxContainerEntries]) (by simp)] at entryRead
    simp only [List.map_cons, List.map_nil, required_cons, String.reduceEq, reduceIte, ok_bind,
      bind_eq_ok] at entryRead
    obtain ⟨operationSet, operationsRead, prefixSet, prefixesRead, databaseSet, databasesRead,
      kept⟩ :=
      entryRead
    split at read
    · next only listedEntry =>
      cases Except.ok.inj read
      rw [sorted] at listedEntry
      cases listedEntry
      split at kept
      · split at kept
        · simp only [bind_eq_ok, identifier_eq_ok, JsonValue.string.injEq] at kept
          obtain ⟨name, rfl, same⟩ := kept
          cases Except.ok.inj same
          exact ⟨rfl, rfl, texts_of_scalarSet databasesRead, texts_of_scalarSet prefixesRead,
            perm_of_stringSet operationsRead⟩
        · cases kept
      · cases kept
    · cases read
  · cases fits

end Forms

/-- The longer one of every two prefixes of which one extends the other. -/
def commonPrefixes (left right : List Text) : List Text :=
  (Precedence.ofLinear Text).sort (left.flatMap fun a => right.flatMap fun b =>
    if b.isPrefixOf a then [a] else if a.isPrefixOf b then [b] else []).dedup

def meetStorageCapabilityConstraintsV1 (platform : Platform) (leftValue rightValue : JsonValue) :
    Js (Option (StorageConstraints platform)) := do
  let left ← normalizeStorageCapabilityConstraintsV1 platform leftValue
  let right ← normalizeStorageCapabilityConstraintsV1 platform rightValue
  if left.entry.namespaceId ≠ right.entry.namespaceId then return none
  let operations := left.entry.operations.values.filter (· ∈ right.entry.operations.values)
  if operations = [] then return none
  let keyPrefixes := commonPrefixes left.entry.keyPrefixes.texts right.entry.keyPrefixes.texts
  let databases := left.entry.databases.texts.filter (· ∈ right.entry.databases.texts)
  if (∃ operation ∈ operations, operation.isKv = true) ∧ keyPrefixes = [] then return none
  if (∃ operation ∈ operations, operation.isSqlite = true) ∧ databases = [] then return none
  let limits : StorageLimits := fun name => min (left.limits name) (right.limits name)
  let met ← normalizeStorageCapabilityConstraintsV1 platform
    (storageConstraintsJson databases keyPrefixes limits left.entry.namespaceId.text operations)
  return some met

def StorageConstraints.Covers {platform : Platform}
    (available required : StorageConstraints platform) :
    Prop :=
  available.entry.namespaceId = required.entry.namespaceId ∧
    (∀ operation ∈ required.entry.operations.values,
      operation ∈ available.entry.operations.values) ∧
    (∀ database ∈ required.entry.databases.texts, database ∈ available.entry.databases.texts) ∧
    (∀ text ∈ required.entry.keyPrefixes.texts,
      ∃ scope ∈ available.entry.keyPrefixes.texts, scope.isPrefixOf text = true) ∧
    ∀ name ∈ Literal.values (T := StorageLimit), required.limits name ≤ available.limits name

instance {platform : Platform} (available required : StorageConstraints platform) :
    Decidable (available.Covers required) :=
  inferInstanceAs (Decidable (_ ∧ _ ∧ _ ∧ _ ∧ _))

def storageCapabilitySatisfiesV1 (platform : Platform) (availableValue requiredValue : JsonValue) :
    Js Bool := do
  let available ← normalizeStorageCapabilityConstraintsV1 platform availableValue
  let required ← normalizeStorageCapabilityConstraintsV1 platform requiredValue
  return decide (available.Covers required)

end Holonomy.Kernel
