import Holonomy.Network.Authority

/-!
# The process network

The native network of the processes of one host: its profile, the resolutions that were asked for,
the sockets, and a table of jobs, each with a task that sends its result into one channel. The host
closes sockets, environments and whole generations under the jobs.
-/

namespace Holonomy.HostNetwork

open Foundation

/-! ## Requests of the process network

What the native process network reads out of a request: the values of its parser, the checks of
their members and the conversions of their numbers.
-/

inductive NetworkError where
  | argumentInvalid
  | byteLimit
  | handleLimit
  | stale
  | invalid
  | policyDenied
  | quota
  | protocolError
  | unavailable
  | timeout
  | connectionRefused
  | cancelled
deriving DecidableEq

/-- Why a start does not return a job: it refuses, or the host crashes. -/
inductive Fault where
  | refused (error : NetworkError)
  | panicked
deriving DecidableEq

/-- A number of a request. -/
inductive Number where
  | unsigned (value : UInt64)
  | negative (value : ℤ)
  | float (value : ℚ)
deriving DecidableEq

/-- A value of a request. -/
inductive Value where
  | null
  | boolean (value : Bool)
  | number (value : Number)
  | string (value : Text)
  | array (items : List Value)
  | object (members : List (Text × Value))

/-- The members of an object. -/
abbrev Members := List (Text × Value)

/-- An address of the internet. -/
inductive IpAddr where
  | v4 (octets : List UInt8)
  | v6 (segments : List UInt16)
deriving DecidableEq

/-- The parts of a URL that requests are checked for. -/
structure Url where
  scheme : Text
  hostStr : Option Text
  portOrKnownDefault : Option ℕ
  username : Text
  password : Option Text
  fragment : Option Text

structure Host where
  parse : Text → Option Value
  rounded : ℚ → ℚ
  parseAddress : Text → Option IpAddr
  addressText : IpAddr → Text
  decodeBase64 : Text → Option (List UInt8)
  encodeBase64 : List UInt8 → Text
  parseUrl : Text → Option Url
  isMethod : Text → Bool
  isHeaderName : Text → Bool
  isHeaderValue : Text → Bool

/-- The longest request in bytes. -/
def maxJson : ℕ := 128 * 1024

/-- The last number that is given away. -/
def maxSafeId : ℕ := 2 ^ 53 - 1

/-- The most bytes that one read or write moves. -/
def maxBytesOfOperation : ℕ := 64 * 1024

/-- The most bytes that one pull of a response returns. -/
def maxHttpPull : ℕ := 16 * 1024

/-- The longest operation in nanoseconds. -/
def maxOperation : ℕ := 30 * 10 ^ 9

/-- How long an answer of the resolver counts, in nanoseconds. -/
def dnsTtl : ℕ := 30 * 10 ^ 9

def orElse {ε α : Type} (value : Option α) (error : ε) : Except ε α :=
  match value with
  | some value => .ok value
  | none => .error error

/-- An error where something holds. -/
def refuseWhen (condition : Bool) (error : NetworkError) : Except NetworkError Unit :=
  if condition then .error error else .ok ()

/-- Parse a request that is not too long. -/
def parse (host : Host) (input : Text) : Except NetworkError Value :=
  if maxJson < utf8ByteLength input then .error .byteLimit
  else orElse (host.parse input) .argumentInvalid

def object : Value → Except NetworkError Members
  | .object members => .ok members
  | _ => .error .argumentInvalid

def memberOf (members : Members) (key : Text) : Option Value :=
  (members.find? fun member => member.1 = key).map Prod.snd

def required (members : Members) (key : Text) : Except NetworkError Value :=
  orElse (memberOf members key) .argumentInvalid

def only (members : Members) (keys : List Text) : Except NetworkError Unit :=
  refuseWhen (members.any fun member => member.1 ∉ keys) .argumentInvalid

def asText : Value → Option Text
  | .string text => some text
  | _ => none

def asUnsigned : Value → Option ℕ
  | .number (.unsigned value) => some value.toNat
  | _ => none

def asArray : Value → Option (List Value)
  | .array items => some items
  | _ => none

def floatOf (host : Host) : Number → ℚ
  | .unsigned value => host.rounded value.toNat
  | .negative value => host.rounded value
  | .float value => value

def asFloat (host : Host) : Value → Option ℚ
  | .number value => some (floatOf host value)
  | _ => none

def string (members : Members) (key : Text) : Except NetworkError Text := do
  let value ← required members key
  orElse (asText value) .argumentInvalid

/-- A text of some bytes, but not too many. -/
def bounded (value : Text) (maximum : ℕ) : Except NetworkError Text :=
  if value = [] ∨ maximum < utf8ByteLength value then .error .argumentInvalid else .ok value

/-- A hexadecimal digit in lower case. -/
def isDigestUnit (unit : UInt16) : Bool :=
  Network.isDigit unit || (0x61 ≤ unit.toNat && unit.toNat ≤ 0x66)

def digest (members : Members) (key : Text) : Except NetworkError Text := do
  let value ← string members key
  if utf8ByteLength value ≠ 64 ∨ !value.all isDigestUnit then .error .argumentInvalid
  else .ok value

def common (members : Members) : Except NetworkError ℕ := do
  let version ← required members (js "schemaVersion")
  refuseWhen (asUnsigned version ≠ some 1) .argumentInvalid
  let value ← required members (js "generation")
  let generation ← orElse (asUnsigned value) .argumentInvalid
  refuseWhen (generation = 0 ∨ maxSafeId < generation) .argumentInvalid
  pure generation

def port (members : Members) : Except NetworkError ℕ := do
  let value ← required members (js "port")
  let value ← orElse (asUnsigned value) .argumentInvalid
  refuseWhen (value = 0 ∨ 65535 < value) .argumentInvalid
  pure value

/-- The bound of a read. -/
def maxBytes (members : Members) (limit : ℕ) : Except NetworkError ℕ := do
  let value ← required members (js "maxBytes")
  let value ← orElse (asUnsigned value) .argumentInvalid
  refuseWhen (value = 0 ∨ limit < value) .argumentInvalid
  pure value

def bytes (host : Host) (members : Members) (key : Text) (limit : ℕ) :
    Except NetworkError (List UInt8) := do
  let encoded ← string members key
  refuseWhen ((limit + 2) / 3 * 4 < utf8ByteLength encoded) .byteLimit
  let value ← orElse (host.decodeBase64 encoded) .argumentInvalid
  refuseWhen (limit < value.length ∨ host.encodeBase64 value ≠ encoded) .argumentInvalid
  pure value

def asSeconds (host : Host) (nanoseconds : ℕ) : ℚ :=
  host.rounded (host.rounded (nanoseconds / 10 ^ 9 : ℕ) +
    host.rounded ((nanoseconds % 10 ^ 9 : ℕ) / 10 ^ 9))

def fitsDuration (seconds : ℚ) : Bool := 0 ≤ seconds && seconds < 2 ^ 64

def nanosecondsOf (seconds : ℚ) : ℕ :=
  let floor : ℕ := (seconds * 10 ^ 9).floor.toNat
  let rest := seconds * 10 ^ 9 - floor
  if rest < 1 / 2 ∨ rest = 1 / 2 ∧ floor % 2 = 0 then floor else floor + 1

/-- What a deadline leaves of the time, in seconds. -/
def remainingSeconds (host : Host) (value nowMs : ℚ) : ℚ :=
  host.rounded (host.rounded (value - nowMs) / 1000)

/-- The milliseconds since an epoch. -/
def elapsedMs (host : Host) (epoch now : ℕ) : ℚ :=
  host.rounded (asSeconds host (now - epoch) * 1000)

def deadline (host : Host) (members : Members) (epoch now : ℕ) : Except Fault ℕ :=
  match (required members (js "deadlineMs")).toOption.bind (asFloat host) with
  | none => .error (.refused .argumentInvalid)
  | some value =>
    if value ≤ elapsedMs host epoch now then .error (.refused .timeout)
    else
      let seconds := remainingSeconds host value (elapsedMs host epoch now)
      if fitsDuration seconds then .ok (now + min (nanosecondsOf seconds) maxOperation)
      else .error .panicked

/-- An address as evidence writes it. -/
def canonicalIp (host : Host) : IpAddr → Text
  | .v6 [0, 0, 0, 0, 0, 0xFFFF, high, low] =>
    js "::ffff:" ++ toHex high.toNat ++ js ":" ++ toHex low.toNat
  | address => host.addressText address

def fields (names : List Text) (strict : Bool) : Value → Option (List Value)
  | .object members =>
    if strict && members.any fun member => member.1 ∉ names then none
    else names.mapM (memberOf members)
  | .array items => if items.length = names.length then some items else none
  | _ => none

def asBoolean : Value → Option Bool
  | .boolean value => some value
  | _ => none

/-- A destination that processes may reach. -/
structure Endpoint where
  hostname : Text
  ports : List ℕ
  transport : Text
deriving DecidableEq

/-- The profile of a generation. -/
structure Profile where
  generation : ℕ
  endpoints : List Endpoint
  maxSockets : ℕ
  allowPrivate : Bool
deriving DecidableEq

structure Bound where
  invocationDigest : Text
  evidenceDigest : Text
deriving DecidableEq

/-- An answer of the resolver. -/
structure Resolution where
  token : Text
  generation : ℕ
  environmentId : Text
  hostname : Text
  port : ℕ
  transport : Text
  semanticDigest : Text
  addresses : List IpAddr
  expires : ℕ
  expiresAtMs : ℕ
  verified : Bool
  bound : Option Bound
deriving DecidableEq

/-- The kinds of sockets. -/
inductive SocketKind where
  | tcp
  | udp
  | http
deriving DecidableEq

/-- An open socket. -/
structure Socket where
  token : Text
  generation : ℕ
  environmentId : Text
  kind : SocketKind
  pendingRead : Bool
  pendingWrite : Bool
  queuedBytes : ℕ
deriving DecidableEq

/-- What a task found. -/
inductive Completion where
  | addresses (addresses : List IpAddr)
  | verified
  | opened (kind : SocketKind) (headIsObject : Bool)
  | value (eof : Bool)
deriving DecidableEq

/-- What a job is for. -/
inductive JobKind where
  | resolve (token : Text) (resolution : Resolution)
  | verify (token : Text)
  | opens (socketToken : Text)
  | other
deriving DecidableEq

/-- A request of the web, as it was checked. -/
structure HttpRequest where
  hostname : Text
  url : Text
  method : Text
  headers : List (Text × Text)
  body : List UInt8
deriving DecidableEq

/-- What the task of a job does. -/
inductive Work where
  | lookup (hostname : Text) (port : ℕ) (allowPrivate : Bool)
  | compare (resolution : Resolution) (allowPrivate : Bool)
  | connect (kind : SocketKind) (address : IpAddr) (port : ℕ) (expires : ℕ)
    (request : Option HttpRequest)
  | read (maximum : ℕ)
  | write (bytes : List UInt8)
  | shutdown
deriving DecidableEq

/-- A job in the table. -/
structure Job where
  id : ℕ
  generation : ℕ
  environmentId : Option Text
  socketToken : Option Text
  kind : JobKind
  lookup : Bool
  opening : Bool
  reservedBytes : ℕ
  read : Bool
  write : Bool
  deadline : ℕ
  cancelled : Bool
  work : Work
deriving DecidableEq

/-- What a task or a canceller sends. -/
abbrev Finished := ℕ × Except NetworkError Completion

structure NativeProcessNetwork where
  epoch : ℕ
  runtime : Bool
  profile : Option Profile
  next : ℕ
  /-- The messages that were not received, the oldest first. -/
  channel : List Finished
  jobs : List Job
  resolutions : List Resolution
  sockets : List Socket
  lookups : ℕ
  openings : ℕ
  queuedBytes : ℕ
  tasks : List ℕ
  started : List ℕ
  polled : List ℕ
  polling : Bool

/-- The most sockets at once. -/
def maxSockets : ℕ := 32

/-- The most lookups at once. -/
def maxLookups : ℕ := 32

/-- The most jobs in the table. -/
def maxJobs : ℕ := 128

def maxQueuedSocket : ℕ := 256 * 1024

/-- The most bytes that are queued. -/
def maxQueuedTotal : ℕ := 4 * 1024 * 1024

/-- A number of sixteen bits. -/
def asPort (value : Value) : Option ℕ :=
  (asUnsigned value).filter fun number => number < 2 ^ 16

def readEndpoint (value : Value) : Option Endpoint :=
  match fields [js "hostname", js "ports", js "transport"] true value with
  | some [hostname, ports, transport] => do
    let hostname ← asText hostname
    let ports ← (← asArray ports).mapM asPort
    let transport ← asText transport
    pure ⟨hostname, ports, transport⟩
  | _ => none

structure ProcessNetworkPolicy where
  access : Text
  endpoints : List Endpoint
  maxSockets : ℕ
  privateNetwork : Text

def readNetworkPolicy (value : Value) : Option ProcessNetworkPolicy :=
  match fields [js "access", js "endpoints", js "maxSockets", js "privateNetwork"] true value with
  | some [access, endpoints, maxSockets, privateNetwork] => do
    let access ← asText access
    let endpoints ← (← asArray endpoints).mapM readEndpoint
    let maxSockets ← asUnsigned maxSockets
    let privateNetwork ← asText privateNetwork
    pure ⟨access, endpoints, maxSockets, privateNetwork⟩
  | _ => none

def readPolicy (value : Value) : Option (Text × ProcessNetworkPolicy) :=
  match fields [js "access", js "network"] false value with
  | some [access, network] => do
    let access ← asText access
    let network ← readNetworkPolicy network
    pure (access, network)
  | _ => none

/-- An endpoint that a profile may have. -/
def Endpoint.isValid (endpoint : Endpoint) : Bool :=
  !(endpoint.hostname = [] || 253 < utf8ByteLength endpoint.hostname ||
    endpoint.hostname ≠ endpoint.hostname.map Kernel.lowerUnit || endpoint.ports = [] ||
    64 < endpoint.ports.length || 0 ∈ endpoint.ports ||
    endpoint.transport ∉ [js "tcp", js "tls", js "udp"])

def Profile.parse (value : Value) (generation : ℕ) : Except NetworkError Profile := do
  let (access, network) ← orElse (readPolicy value) .argumentInvalid
  refuseWhen (access ≠ js "sandboxed" || network.access ≠ js "restricted" ||
    network.endpoints = [] || 64 < network.endpoints.length || network.maxSockets = 0 ||
    128 < network.maxSockets || network.privateNetwork ∉ [js "allow", js "deny"])
    .argumentInvalid
  refuseWhen (network.endpoints.any fun endpoint => !endpoint.isValid) .argumentInvalid
  pure ⟨generation, network.endpoints, min network.maxSockets HostNetwork.maxSockets,
    network.privateNetwork = js "allow"⟩

/-- Processes may reach a destination. -/
def Profile.allows (profile : Profile) (hostname : Text) (port : ℕ) (transport : Text) : Bool :=
  profile.endpoints.any fun item =>
    item.hostname = hostname && item.transport = transport && port ∈ item.ports

def Job.cancel (job : Job) (dropped : Bool) : Job :=
  { job with cancelled := true, reservedBytes := if dropped then 0 else job.reservedBytes }

def Job.isHit (chosen : Job → Bool) (job : Job) : Bool := chosen job && !job.cancelled

def Job.strike (chosen : Job → Bool) (dropped : Bool) (job : Job) : Job :=
  if job.isHit chosen then job.cancel dropped else job

namespace NativeProcessNetwork

def start (epoch : ℕ) : NativeProcessNetwork where
  epoch := epoch
  runtime := false
  profile := none
  next := 0
  channel := []
  jobs := []
  resolutions := []
  sockets := []
  lookups := 0
  openings := 0
  queuedBytes := 0
  tasks := []
  started := []
  polled := []
  polling := false

def profileOf (network : NativeProcessNetwork) (generation : ℕ) : Except NetworkError Profile :=
  orElse (network.profile.filter fun profile => profile.generation = generation) .stale

def socketOf (network : NativeProcessNetwork) (token : Text) : Option Socket :=
  network.sockets.find? fun socket => socket.token = token

def resolutionOf (network : NativeProcessNetwork) (token : Text) : Option Resolution :=
  network.resolutions.find? fun resolution => resolution.token = token

def cancelJobs (network : NativeProcessNetwork) (chosen : Job → Bool) (dropped : Bool) :
    NativeProcessNetwork :=
  let hits := network.jobs.filter (Job.isHit chosen)
  { network with
    jobs := network.jobs.map (Job.strike chosen dropped)
    queuedBytes :=
      if dropped then hits.foldl (fun total job => total - job.reservedBytes) network.queuedBytes
      else network.queuedBytes
    channel := network.channel ++ hits.map fun job => (job.id, .error .cancelled) }

def closeSocket (network : NativeProcessNetwork) (token : Text) : NativeProcessNetwork :=
  { network with
    sockets := network.sockets.filter fun socket => socket.token ≠ token }.cancelJobs
      (fun job => job.socketToken = some token) true

def closeEnvironment (network : NativeProcessNetwork) (generation : ℕ) (environmentId : Text) :
    NativeProcessNetwork :=
  let kept := { network with
    resolutions := network.resolutions.filter fun resolution =>
      resolution.generation ≠ generation || resolution.environmentId ≠ environmentId }
  let tokens := (kept.sockets.filter fun socket =>
    socket.generation = generation && socket.environmentId = environmentId).map Socket.token
  (tokens.foldl closeSocket kept).cancelJobs
    (fun job => job.generation = generation && job.environmentId = some environmentId) true

def closeGeneration (network : NativeProcessNetwork) (generation : ℕ) : NativeProcessNetwork :=
  if network.profile.all fun profile => profile.generation ≠ generation then network
  else
    { network.cancelJobs (fun _ => true) false with
      resolutions := []
      sockets := []
      queuedBytes := 0
      profile := none }

def cancel (network : NativeProcessNetwork) (id : ℕ) : NativeProcessNetwork :=
  network.cancelJobs (fun job => job.id = id) false

def installProfile (network : NativeProcessNetwork) (members : Members) (generation : ℕ)
    (builds : Bool) : Except NetworkError NativeProcessNetwork := do
  only members [js "schemaVersion", js "kind", js "generation", js "policy"]
  refuseWhen network.profile.isSome .protocolError
  let policy ← required members (js "policy")
  let profile ← Profile.parse policy generation
  refuseWhen (!builds) .unavailable
  pure { network with runtime := true, profile := some profile }

def bindResolution (network : NativeProcessNetwork) (members : Members) (generation now : ℕ) :
    Except NetworkError NativeProcessNetwork := do
  only members [js "schemaVersion", js "kind", js "generation", js "resolutionToken",
    js "invocationBindingDigest", js "semanticResourceDigest", js "evidenceDigest"]
  let _ ← network.profileOf generation
  let token ← string members (js "resolutionToken")
  let invocation ← digest members (js "invocationBindingDigest")
  let semantic ← digest members (js "semanticResourceDigest")
  let evidence ← digest members (js "evidenceDigest")
  let entry ← orElse (network.resolutionOf token) .stale
  refuseWhen (entry.generation ≠ generation || entry.semanticDigest ≠ semantic ||
    !entry.verified || entry.bound.isSome || entry.expires ≤ now) .stale
  pure { network with
    resolutions := network.resolutions.map fun resolution =>
      if resolution.token = token then { resolution with bound := some ⟨invocation, evidence⟩ }
      else resolution }

def discardResolution (network : NativeProcessNetwork) (members : Members) (generation : ℕ) :
    Except NetworkError NativeProcessNetwork := do
  only members [js "schemaVersion", js "kind", js "generation", js "resolutionToken"]
  let token ← string members (js "resolutionToken")
  let forgotten :=
    if (network.resolutionOf token).any fun value => value.generation = generation then
      { network with
        resolutions := network.resolutions.filter fun resolution => resolution.token ≠ token }
    else network
  pure (forgotten.cancelJobs
    (fun job => job.generation = generation && job.kind = .verify token) false)

def closeRequest (network : NativeProcessNetwork) (members : Members) (generation : ℕ) :
    Except NetworkError NativeProcessNetwork := do
  only members [js "schemaVersion", js "kind", js "generation", js "socketToken"]
  let token ← string members (js "socketToken")
  pure (if (network.socketOf token).any fun value => value.generation = generation then
    network.closeSocket token else network)

/-- A request of the host that is answered at once. -/
def syncRequest (network : NativeProcessNetwork) (members : Members) (generation now : ℕ)
    (builds : Bool) : Except NetworkError NativeProcessNetwork := do
  let kind ← string members (js "kind")
  if kind = js "installProfile" then network.installProfile members generation builds
  else if kind = js "bindResolution" then network.bindResolution members generation now
  else if kind = js "discardResolution" then network.discardResolution members generation
  else if kind = js "close" then network.closeRequest members generation
  else if kind = js "closeEnvironment" then do
    only members [js "schemaVersion", js "kind", js "generation", js "environmentId"]
    let environment ← string members (js "environmentId")
    pure (network.closeEnvironment generation environment)
  else if kind = js "closeGeneration" then do
    only members [js "schemaVersion", js "kind", js "generation"]
    pure (network.closeGeneration generation)
  else .error .argumentInvalid

def syncParsed (host : Host) (network : NativeProcessNetwork) (input : Text) (now : ℕ)
    (builds : Bool) : Except NetworkError NativeProcessNetwork := do
  let value ← parse host input
  let members ← object value
  let generation ← common members
  network.syncRequest members generation now builds

/-- A request of the host, and its answer. -/
def sync (host : Host) (network : NativeProcessNetwork) (input : Text) (now : ℕ)
    (builds : Bool) : NativeProcessNetwork × Except NetworkError Unit :=
  match network.syncParsed host input now builds with
  | .ok next => (next, .ok ())
  | .error error => (network, .error error)

end NativeProcessNetwork

end Holonomy.HostNetwork
