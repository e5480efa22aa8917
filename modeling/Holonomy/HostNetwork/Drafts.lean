import Holonomy.HostNetwork.State
import Holonomy.Foundation.Fallible

/-!
# What a start drafts

Said once: a start that is refused took numbers at most, and a start that is done drafted a job of
one of three shapes. A job looks a name up, opens a socket with a resolution that is taken out of
the network, or moves bytes of a socket that is marked for it.
-/

namespace Holonomy.HostNetwork

open Foundation

/-! ## Starting jobs

A request is checked step by step while the network may already change: the number of the job is
taken early, and an open takes its resolution, and a write its reservation, before the task is
spawned.
-/

abbrev Starting := EStateM Fault NativeProcessNetwork

def check {α : Type} (result : Except NetworkError α) : Starting α :=
  match result with
  | .ok value => pure value
  | .error error => throw (.refused error)

/-- What may crash without changing the network. -/
def attempt {α : Type} (result : Except Fault α) : Starting α :=
  match result with
  | .ok value => pure value
  | .error fault => throw fault

/-- Take the next number, while there are numbers that every host can write. -/
def nextNumber : Starting ℕ := do
  let network ← get
  if 2 ^ 64 ≤ network.next + 1 then throw (.refused .quota)
  set { network with next := network.next + 1 }
  if maxSafeId < network.next + 1 then throw (.refused .quota)
  pure (network.next + 1)

def nextToken (kind : Text) : Starting Text := do
  let number ← nextNumber
  pure (kind ++ js "-" ++ Network.decimalText number)

/-- The evidence of a receipt. -/
structure ReceiptResolution where
  addresses : List Text
  evidenceDigest : Text
  expiresAtMonotonicMs : ℚ
  resolverGeneration : ℕ

/-- A receipt of the kernel. -/
structure Receipt where
  authorized : Bool
  generation : ℕ
  invocationBindingDigest : Text
  semanticResourceDigest : Text
  resolution : ReceiptResolution

def readReceiptResolution (host : Host) (value : Value) : Option ReceiptResolution :=
  match fields [js "addresses", js "evidenceDigest", js "expiresAtMonotonicMs",
    js "resolverGeneration"] true value with
  | some [addresses, evidenceDigest, expires, resolverGeneration] => do
    let addresses ← (← asArray addresses).mapM asText
    let evidenceDigest ← asText evidenceDigest
    let expires ← asFloat host expires
    let resolverGeneration ← asUnsigned resolverGeneration
    pure ⟨addresses, evidenceDigest, expires, resolverGeneration⟩
  | _ => none

def readReceipt (host : Host) (value : Value) : Option Receipt :=
  match fields [js "authorized", js "generation", js "invocationBindingDigest",
    js "semanticResourceDigest", js "resolution"] true value with
  | some [authorized, generation, invocation, semantic, resolution] => do
    let authorized ← asBoolean authorized
    let generation ← asUnsigned generation
    let invocation ← asText invocation
    let semantic ← asText semantic
    let resolution ← readReceiptResolution host resolution
    pure ⟨authorized, generation, invocation, semantic, resolution⟩
  | _ => none

def validReceipt (host : Host) (resolution : Resolution) (receipt : Receipt) : Bool :=
  resolution.bound.any fun bound =>
    receipt.authorized &&
    receipt.generation = resolution.generation &&
    receipt.invocationBindingDigest = bound.invocationDigest &&
    receipt.semanticResourceDigest = resolution.semanticDigest &&
    receipt.resolution.evidenceDigest = bound.evidenceDigest &&
    receipt.resolution.resolverGeneration = resolution.generation &&
    receipt.resolution.expiresAtMonotonicMs = host.rounded resolution.expiresAtMs &&
    receipt.resolution.addresses = resolution.addresses.map (canonicalIp host)

def hostHeaders : List Text :=
  [js "host", js "connection", js "content-length", js "transfer-encoding",
    js "proxy-authorization", js "proxy-connection"]

def checkHeader (host : Host) (selected : ℕ × List (Text × Text)) (entry : Value) :
    Except NetworkError (ℕ × List (Text × Text)) := do
  let pair ← orElse (asArray entry) .argumentInvalid
  match pair with
  | [name, value] =>
    let name ← orElse (asText name) .argumentInvalid
    let value ← orElse (asText value) .argumentInvalid
    let size := selected.1 + utf8ByteLength name + utf8ByteLength value + 4
    refuseWhen (16 * 1024 < size) .byteLimit
    refuseWhen (name.map Kernel.lowerUnit ∈ hostHeaders) .argumentInvalid
    refuseWhen (!host.isHeaderName name || !host.isHeaderValue value) .argumentInvalid
    pure (size, selected.2 ++ [(name, value)])
  | _ => .error .argumentInvalid

def httpInput (host : Host) (members : Members) (resolution : Resolution) :
    Except NetworkError HttpRequest := do
  let source ← bounded (← string members (js "url")) 2048
  let url ← orElse (host.parseUrl source) .argumentInvalid
  let scheme := if resolution.transport = js "tls" then js "https" else js "http"
  refuseWhen (url.scheme ≠ scheme || url.hostStr ≠ some resolution.hostname ||
    url.portOrKnownDefault ≠ some resolution.port || url.username ≠ [] ||
    url.password.isSome || url.fragment.isSome) .policyDenied
  let method ← string members (js "method")
  refuseWhen (!host.isMethod method) .argumentInvalid
  refuseWhen (method = js "CONNECT" || method = js "TRACE") .argumentInvalid
  let headers ← orElse (asArray (← required members (js "headers"))) .argumentInvalid
  refuseWhen (64 < headers.length) .byteLimit
  let selected ← headers.foldlM (checkHeader host) (0, [])
  let body ← bytes host members (js "bodyBase64") (32 * 1024)
  pure ⟨resolution.hostname, source, method, selected.2, body⟩

/-- A job that is not in the table yet. -/
def jobDraft (id generation deadline : ℕ) (work : Work) : Job where
  id := id
  generation := generation
  environmentId := none
  socketToken := none
  kind := .other
  lookup := false
  opening := false
  reservedBytes := 0
  read := false
  write := false
  deadline := deadline
  cancelled := false
  work := work

/-- Begin to resolve a destination. -/
def startResolve (members : Members) (profile : Profile)
    (generation id deadline now : ℕ) : Starting Job := do
  check (only members [js "schemaVersion", js "kind", js "generation", js "environmentId",
    js "hostname", js "port", js "transport", js "semanticResourceDigest", js "deadlineMs"])
  let network ← get
  check (refuseWhen (maxLookups ≤ network.lookups || 128 ≤ network.resolutions.length) .handleLimit)
  let environment ← check do bounded (← string members (js "environmentId")) 256
  let hostname ← check do bounded (← string members (js "hostname")) 253
  let port ← check (port members)
  let transport ← check (string members (js "transport"))
  check (refuseWhen (!profile.allows hostname port transport) .policyDenied)
  let semantic ← check (digest members (js "semanticResourceDigest"))
  let token ← nextToken (js "resolution")
  let resolution : Resolution :=
    { token := token, generation := generation, environmentId := environment,
      hostname := hostname, port := port, transport := transport, semanticDigest := semantic,
      addresses := [], expires := now + dnsTtl, expiresAtMs := 0, verified := false,
      bound := none }
  pure { jobDraft id generation deadline (.lookup hostname port profile.allowPrivate) with
    kind := .resolve token resolution
    environmentId := some environment
    lookup := true }

def startVerify (members : Members) (profile : Profile) (generation id deadline now : ℕ) :
    Starting Job := do
  check (only members [js "schemaVersion", js "kind", js "generation", js "resolutionToken",
    js "deadlineMs"])
  let network ← get
  check (refuseWhen (maxLookups ≤ network.lookups) .handleLimit)
  let token ← check (string members (js "resolutionToken"))
  let record ← check (orElse (network.resolutionOf token) .stale)
  check (refuseWhen (record.generation ≠ generation || record.expires ≤ now || record.verified ||
    record.bound.isSome) .stale)
  check (refuseWhen (network.jobs.any fun job => job.kind = .verify token) .protocolError)
  pure { jobDraft id generation deadline (.compare record profile.allowPrivate) with
    environmentId := some record.environmentId
    kind := .verify token
    lookup := true }

def kindMatches (kind expected : Text) : Bool :=
  if kind = js "openTcp" then expected = js "tcp"
  else if kind = js "openUdp" then expected = js "udp"
  else expected = js "tcp" || expected = js "tls"

def socketKindOf (kind : Text) : SocketKind :=
  if kind = js "httpRequest" then .http else if kind = js "openTcp" then .tcp else .udp

def openKeys (http : Bool) : List Text :=
  if http then
    [js "schemaVersion", js "kind", js "generation", js "environmentId", js "resolutionToken",
      js "receipt", js "address", js "url", js "method", js "headers", js "bodyBase64",
      js "deadlineMs"]
  else
    [js "schemaVersion", js "kind", js "generation", js "environmentId", js "resolutionToken",
      js "receipt", js "address", js "port", js "deadlineMs"]

def isOpenable (host : Host) (resolution : Resolution) (generation now : ℕ)
    (environment kind : Text) (address : IpAddr) (receipt : Receipt) : Bool :=
  resolution.generation = generation && resolution.environmentId = environment &&
    kindMatches kind resolution.transport && resolution.verified && now < resolution.expires &&
    address ∈ resolution.addresses && validReceipt host resolution receipt

/-- The port that an open goes to. -/
def selectedPort (members : Members) (http : Bool) (resolution : Resolution) :
    Except NetworkError ℕ :=
  if http then .ok resolution.port else port members

/-- The request of an open of the web. -/
def requestOf (host : Host) (members : Members) (http : Bool) (resolution : Resolution) :
    Except NetworkError (Option HttpRequest) :=
  if http then (httpInput host members resolution).map some else .ok none

def takeResolution (token : Text) : Starting Unit := do
  let network ← get
  match network.resolutionOf token with
  | none => throw (.refused .stale)
  | some _ =>
    set { network with
      resolutions := network.resolutions.filter fun (resolution : Resolution) =>
        resolution.token ≠ token }

def startOpen (host : Host) (kind : Text) (members : Members) (profile : Profile)
    (generation id deadline now : ℕ) : Starting Job := do
  let http : Bool := kind = js "httpRequest"
  check (only members (openKeys http))
  let network ← get
  check (refuseWhen (profile.maxSockets ≤ network.sockets.length + network.openings) .quota)
  let environment ← check do bounded (← string members (js "environmentId")) 256
  let token ← check (string members (js "resolutionToken"))
  let address ← check do
    orElse (host.parseAddress (← string members (js "address"))) .argumentInvalid
  let receipt ← check do
    orElse (readReceipt host (← required members (js "receipt"))) .argumentInvalid
  let resolution ← check (orElse (network.resolutionOf token) .stale)
  check (refuseWhen (!isOpenable host resolution generation now environment kind address receipt)
    .stale)
  let selected ← check (selectedPort members http resolution)
  check (refuseWhen (selected ≠ resolution.port ||
    !profile.allows resolution.hostname selected resolution.transport) .policyDenied)
  check (refuseWhen (http && resolution.transport ≠ js "tcp" && resolution.transport ≠ js "tls")
    .policyDenied)
  let request ← check (requestOf host members http resolution)
  let socketToken ← nextToken (js "socket")
  takeResolution token
  pure { jobDraft id generation deadline
      (.connect (socketKindOf kind) address selected resolution.expires request) with
    kind := .opens socketToken
    environmentId := some environment
    opening := true }

def reserveBytes (socket : Socket) (size : ℕ) : Starting Unit := do
  let network ← get
  if maxQueuedSocket < socket.queuedBytes + size ∨ maxQueuedTotal < network.queuedBytes + size then
    throw (.refused .byteLimit)
  set { network with
    sockets := network.sockets.map fun (other : Socket) =>
      if other.token = socket.token then { other with queuedBytes := other.queuedBytes + size }
      else other
    queuedBytes := network.queuedBytes + size }

def readKeys : List Text :=
  [js "schemaVersion", js "kind", js "generation", js "socketToken", js "maxBytes", js "deadlineMs"]

def writeKeys : List Text :=
  [js "schemaVersion", js "kind", js "generation", js "socketToken", js "base64", js "deadlineMs"]

/-- Begin a read of at most some bytes. -/
def startRead (members : Members) (limit : ℕ) : Starting (Work × ℕ) := do
  check (only members readKeys)
  let maximum ← check (maxBytes members limit)
  pure (.read maximum, 0)

def startWrite (host : Host) (members : Members) (socket : Socket) (limit : ℕ) :
    Starting (Work × ℕ) := do
  check (only members writeKeys)
  let bytes ← check (bytes host members (js "base64") limit)
  reserveBytes socket bytes.length
  pure (.write bytes, bytes.length)

/-- Begin to end a stream. -/
def startEnd (members : Members) : Starting (Work × ℕ) := do
  check (only members [js "schemaVersion", js "kind", js "generation", js "socketToken",
    js "deadlineMs"])
  pure (.shutdown, 0)

def startTransfer (host : Host) (kind : Text) (members : Members) (socket : Socket) :
    Starting (Work × ℕ) :=
  if socket.kind = .tcp ∧ kind = js "readTcp" then startRead members maxBytesOfOperation
  else if socket.kind = .tcp ∧ kind = js "writeTcp" then
    startWrite host members socket maxBytesOfOperation
  else if socket.kind = .tcp ∧ kind = js "endTcp" then startEnd members
  else if socket.kind = .udp ∧ kind = js "sendUdp" then startWrite host members socket 1472
  else if socket.kind = .udp ∧ kind = js "recvUdp" then startRead members 1472
  else if socket.kind = .http ∧ kind = js "httpPull" then startRead members maxHttpPull
  else throw (.refused .argumentInvalid)

def markPending (token : Text) (isRead : Bool) : Starting Unit :=
  modify fun network =>
    { network with
      sockets := network.sockets.map fun socket =>
        if socket.token = token then
          { socket with
            pendingRead := socket.pendingRead || isRead
            pendingWrite := socket.pendingWrite || !isRead }
        else socket }

def startSocket (host : Host) (kind : Text) (members : Members) (generation id deadline : ℕ) :
    Starting Job := do
  let token ← check (string members (js "socketToken"))
  let network ← get
  let socket ← check (orElse (network.socketOf token) .stale)
  check (refuseWhen (socket.generation ≠ generation) .stale)
  let isRead : Bool := kind ∈ [js "readTcp", js "recvUdp", js "httpPull"]
  check (refuseWhen (isRead && socket.pendingRead || !isRead && socket.pendingWrite) .protocolError)
  let (work, reserved) ← startTransfer host kind members socket
  markPending token isRead
  pure { jobDraft id generation deadline work with
    environmentId := some socket.environmentId
    socketToken := some token
    reservedBytes := reserved
    read := isRead
    write := !isRead }

/-- Begin what a request asks for. -/
def startKind (host : Host) (members : Members) (profile : Profile)
    (generation id deadline now : ℕ) : Starting Job := do
  let kind ← check (string members (js "kind"))
  if kind = js "resolve" then startResolve members profile generation id deadline now
  else if kind = js "verifyResolution" then startVerify members profile generation id deadline now
  else if kind ∈ [js "openTcp", js "openUdp", js "httpRequest"] then
    startOpen host kind members profile generation id deadline now
  else if kind ∈ [js "readTcp", js "writeTcp", js "endTcp", js "sendUdp", js "recvUdp",
      js "httpPull"] then
    startSocket host kind members generation id deadline
  else throw (.refused .argumentInvalid)

def spawn (job : Job) : Starting ℕ := do
  let network ← get
  if !network.runtime then throw (.refused .unavailable)
  set { network with
    lookups := network.lookups + job.lookup.toNat
    openings := network.openings + job.opening.toNat
    jobs := network.jobs ++ [job]
    tasks := network.tasks ++ [job.id]
    started := network.started ++ [job.id] }
  pure job.id

def start (host : Host) (input : Text) (began now : ℕ) : Starting ℕ := do
  let value ← check (parse host input)
  let members ← check (object value)
  let generation ← check (common members)
  let network ← get
  let profile ← check (network.profileOf generation)
  check (refuseWhen (maxJobs ≤ network.jobs.length) .quota)
  let deadline ← attempt (deadline host members network.epoch began)
  let id ← nextNumber
  let job ← startKind host members profile generation id deadline now
  spawn job

def numbered (kind : Text) (number : ℕ) : Text := kind ++ js "-" ++ Network.decimalText number

def Socket.charge (socket : Socket) (isRead : Bool) (size : ℕ) : Socket :=
  { socket with
    pendingRead := socket.pendingRead || isRead
    pendingWrite := socket.pendingWrite || !isRead
    queuedBytes := socket.queuedBytes + size }

/-- A transfer does not wait behind another of its direction. -/
def Socket.isFree (socket : Socket) (isRead : Bool) : Bool :=
  if isRead then !socket.pendingRead else !socket.pendingWrite

def Untouched (network : NativeProcessNetwork) (fault : Fault) (after : NativeProcessNetwork) :
    Prop :=
  (∃ error, fault = .refused error) ∧
    ∃ count, network.next ≤ count ∧ after = { network with next := count }

/-- The job that looks a name up. -/
def lookupJob (id generation deadline : ℕ) (work : Work) (kind : JobKind) (environment : Text) :
    Job :=
  { jobDraft id generation deadline work with
    kind := kind
    environmentId := some environment
    lookup := true }

def openJob (id generation deadline : ℕ) (work : Work) (token environment : Text) : Job :=
  { jobDraft id generation deadline work with
    kind := .opens token
    environmentId := some environment
    opening := true }

def transferJob (id generation deadline : ℕ) (work : Work) (socket : Socket) (isRead : Bool)
    (size : ℕ) : Job :=
  { jobDraft id generation deadline work with
    environmentId := some socket.environmentId
    socketToken := some socket.token
    reservedBytes := size
    read := isRead
    write := !isRead }

def NativeProcessNetwork.charge (network : NativeProcessNetwork) (token : Text) (isRead : Bool)
    (size : ℕ) : NativeProcessNetwork :=
  { network with
    sockets := network.sockets.map fun socket =>
      if socket.token = token then socket.charge isRead size else socket
    queuedBytes := network.queuedBytes + size }

def NativeProcessNetwork.consume (network : NativeProcessNetwork) (token : Text) :
    NativeProcessNetwork :=
  { network with
    resolutions := network.resolutions.filter fun resolution => resolution.token ≠ token }

def NativeProcessNetwork.counted (network : NativeProcessNetwork) (count : ℕ) :
    NativeProcessNetwork :=
  { network with next := count }

/-- What a start may draft, and the network before the task is spawned. -/
inductive Drafted (host : Host) (network : NativeProcessNetwork) (profile : Profile)
    (generation id deadline now : ℕ) : Job → NativeProcessNetwork → Prop where
  | looks {work : Work} {kind : JobKind} {environment : Text} {count : ℕ}
    (closed : ∀ token, kind ≠ .opens token) (later : network.next ≤ count) :
    Drafted host network profile generation id deadline now
      (lookupJob id generation deadline work kind environment) (network.counted count)
  | opens {kind environment : Text} {address : IpAddr} {receipt : Receipt}
    {resolution : Resolution} {request : Option HttpRequest}
    (found : resolution ∈ network.resolutions)
    (openable : isOpenable host resolution generation now environment kind address receipt = true)
    (room : network.sockets.length + network.openings < profile.maxSockets) :
    Drafted host network profile generation id deadline now
      (openJob id generation deadline
        (.connect (socketKindOf kind) address resolution.port resolution.expires request)
        (numbered (js "socket") (network.next + 1)) environment)
      ((network.counted (network.next + 1)).consume resolution.token)
  | moves {work : Work} {socket : Socket} {isRead : Bool} {size : ℕ}
    (found : socket ∈ network.sockets) (current : socket.generation = generation)
    (free : socket.isFree isRead = true)
    (bounded : size = 0 ∨ socket.queuedBytes + size ≤ maxQueuedSocket ∧
      network.queuedBytes + size ≤ maxQueuedTotal) :
    Drafted host network profile generation id deadline now
      (transferJob id generation deadline work socket isRead size)
      (network.charge socket.token isRead size)

section Rules

variable {α : Type} {network : NativeProcessNetwork} {done : α → NativeProcessNetwork → Prop}
  {failed : Fault → NativeProcessNetwork → Prop}

theorem untouched_refused (network : NativeProcessNetwork) (error : NetworkError) :
    Untouched network (.refused error) network :=
  ⟨⟨error, rfl⟩, network.next, Nat.le_refl _, rfl⟩

theorem ends_check {β : Type} {result : Except NetworkError β} {next : β → Starting α}
    (refused : ∀ error, failed (.refused error) network)
    (checked : ∀ value, result = .ok value → Ends (next value) network done failed) :
    Ends (check result >>= next) network done failed := by
  apply ends_bind.mpr
  cases same : result with
  | ok value => exact checked value same
  | error error => exact refused error

theorem of_refuseWhen {condition : Bool} {error : NetworkError}
    (passed : refuseWhen condition error = .ok ()) : condition = false := by
  cases condition with
  | false => rfl
  | true => cases passed

theorem of_orElse {ε β : Type} {value : Option β} {error : ε} {found : β}
    (passed : orElse value error = .ok found) : value = some found := by
  cases value with
  | none => cases passed
  | some _ =>
    cases passed
    rfl

theorem nextNumber_ends (network : NativeProcessNetwork) :
    Ends nextNumber network
      (fun number after => number = network.next + 1 ∧ after = network.counted number)
      (Untouched network) := by
  unfold nextNumber
  apply ends_bind.mpr
  apply ends_get.mpr
  apply ends_ite
  · intro _
    apply ends_bind.mpr
    exact untouched_refused network .quota
  · intro _
    apply ends_bind.mpr
    apply ends_set.mpr
    apply ends_ite
    · intro _
      apply ends_bind.mpr
      exact ⟨⟨.quota, rfl⟩, network.next + 1, Nat.le_succ _, rfl⟩
    · intro _
      exact ⟨rfl, rfl⟩

theorem nextToken_ends (network : NativeProcessNetwork) (kind : Text) :
    Ends (nextToken kind) network
      (fun token after =>
        token = numbered kind (network.next + 1) ∧ after = network.counted (network.next + 1))
      (Untouched network) := by
  unfold nextToken
  apply ends_bind.mpr
  apply (nextNumber_ends network).weaken
  · intro number after taken
    have same : number = network.next + 1 := taken.1
    have counted : after = network.counted number := taken.2
    rw [same] at counted
    rw [same]
    exact ⟨rfl, counted⟩
  · intro fault after untouched
    exact untouched

end Rules

/-- What begins to resolve a destination looks it up. -/
theorem startResolve_ends (host : Host) (network : NativeProcessNetwork) (members : Members)
    (profile : Profile) (generation id deadline now : ℕ) :
    Ends (startResolve members profile generation id deadline now) network
      (Drafted host network profile generation id deadline now) (Untouched network) := by
  have refused := untouched_refused network
  unfold startResolve
  apply ends_check refused
  intro _ _
  apply ends_bind.mpr
  apply ends_get.mpr
  apply ends_check refused
  intro _ _
  apply ends_check refused
  intro environment _
  apply ends_check refused
  intro hostname _
  apply ends_check refused
  intro port _
  apply ends_check refused
  intro transport _
  apply ends_check refused
  intro _ _
  apply ends_check refused
  intro semantic _
  apply ends_bind.mpr
  apply (nextToken_ends network (js "resolution")).weaken
  · intro token after taken
    have counted : after = network.counted (network.next + 1) := taken.2
    rw [counted]
    apply ends_pure.mpr
    exact .looks (fun _ same => by cases same) (Nat.le_succ _)
  · intro fault after untouched
    exact untouched

theorem startVerify_ends (host : Host) (network : NativeProcessNetwork) (members : Members)
    (profile : Profile) (generation id deadline now : ℕ) :
    Ends (startVerify members profile generation id deadline now) network
      (Drafted host network profile generation id deadline now) (Untouched network) := by
  have refused := untouched_refused network
  unfold startVerify
  apply ends_check refused
  intro _ _
  apply ends_bind.mpr
  apply ends_get.mpr
  apply ends_check refused
  intro _ _
  apply ends_check refused
  intro token _
  apply ends_check refused
  intro record _
  apply ends_check refused
  intro _ _
  apply ends_check refused
  intro _ _
  apply ends_pure.mpr
  have closed : ∀ opened, JobKind.verify token ≠ .opens opened := fun _ same => by cases same
  have looks : Drafted host network profile generation id deadline now
      (lookupJob id generation deadline (.compare record profile.allowPrivate) (.verify token)
        record.environmentId) (network.counted network.next) := .looks closed (Nat.le_refl _)
  exact looks

theorem takeResolution_ends {network : NativeProcessNetwork} {token : Text}
    {resolution : Resolution} (found : network.resolutionOf token = some resolution)
    {failed : Fault → NativeProcessNetwork → Prop} :
    Ends (takeResolution token) network (fun _ after => after = network.consume token) failed := by
  unfold takeResolution
  apply ends_bind.mpr
  apply ends_get.mpr
  rw [found]
  exact rfl

/-- What begins to open a socket consumes its resolution after everything was checked. -/
theorem startOpen_ends (host : Host) (network : NativeProcessNetwork) (kind : Text)
    (members : Members) (profile : Profile) (generation id deadline now : ℕ) :
    Ends (startOpen host kind members profile generation id deadline now) network
      (Drafted host network profile generation id deadline now) (Untouched network) := by
  have refused := untouched_refused network
  unfold startOpen
  apply ends_check refused
  intro _ _
  apply ends_bind.mpr
  apply ends_get.mpr
  apply ends_check refused
  intro _ checkedRoom
  apply ends_check refused
  intro environment _
  apply ends_check refused
  intro token _
  apply ends_check refused
  intro address _
  apply ends_check refused
  intro receipt _
  apply ends_check refused
  intro resolution checkedFound
  apply ends_check refused
  intro _ checkedOpenable
  apply ends_check refused
  intro selected _
  apply ends_check refused
  intro _ checkedPort
  apply ends_check refused
  intro _ _
  apply ends_check refused
  intro request _
  have room : network.sockets.length + network.openings < profile.maxSockets := by
    have passed := of_refuseWhen checkedRoom
    rw [decide_eq_false_iff_not] at passed
    omega
  have found : network.resolutionOf token = some resolution := of_orElse checkedFound
  have listed : resolution ∈ network.resolutions := List.mem_of_find?_eq_some found
  have named : resolution.token = token := by
    have holds := List.find?_some found
    exact of_decide_eq_true holds
  have openable : isOpenable host resolution generation now environment kind address receipt =
      true := by
    have passed := of_refuseWhen checkedOpenable
    rw [Bool.not_eq_false'] at passed
    exact passed
  have samePort : selected = resolution.port := by
    have passed := of_refuseWhen checkedPort
    rw [Bool.or_eq_false_iff] at passed
    have holds : ¬ selected ≠ resolution.port := of_decide_eq_false passed.1
    exact not_not.mp holds
  apply ends_bind.mpr
  apply (nextToken_ends network (js "socket")).weaken
  · intro socketToken after taken
    have name : socketToken = numbered (js "socket") (network.next + 1) := taken.1
    have counted : after = network.counted (network.next + 1) := taken.2
    have stillFound : after.resolutionOf token = some resolution := by
      rw [counted]
      exact found
    apply ends_bind.mpr
    apply (takeResolution_ends stillFound).weaken
    · intro _ last consumed
      apply ends_pure.mpr
      have same : last = (network.counted (network.next + 1)).consume resolution.token := by
        rw [consumed, counted, named]
      rw [same, name, samePort]
      exact .opens listed openable room
    · intro fault last untouched
      exact untouched
  · intro fault after untouched
    exact untouched

theorem charged_twice (network : NativeProcessNetwork) (socket : Socket) (isRead : Bool)
    (size : ℕ) (sockets : List Socket)
    (same : sockets = network.sockets.map fun other =>
      if other.token = socket.token then { other with queuedBytes := other.queuedBytes + size }
      else other) :
    (sockets.map fun other => if other.token = socket.token then { other with
          pendingRead := other.pendingRead || isRead
          pendingWrite := other.pendingWrite || !isRead }
      else other) = (network.charge socket.token isRead size).sockets := by
  rw [same, List.map_map]
  apply List.map_congr_left
  intro other _
  by_cases charged : other.token = socket.token
  · simp [charged, Socket.charge]
  · simp [charged]

def Reserved (network : NativeProcessNetwork) (socket : Socket) (result : Work × ℕ)
    (after : NativeProcessNetwork) : Prop :=
  (result.2 = 0 ∨ socket.queuedBytes + result.2 ≤ maxQueuedSocket ∧
    network.queuedBytes + result.2 ≤ maxQueuedTotal) ∧
  after = { network with
    sockets := network.sockets.map fun other =>
      if other.token = socket.token then { other with queuedBytes := other.queuedBytes + result.2 }
      else other
    queuedBytes := network.queuedBytes + result.2 }

theorem reserved_nothing (network : NativeProcessNetwork) (socket : Socket) (work : Work) :
    Reserved network socket (work, 0) network := by
  have same : (network.sockets.map fun other =>
      if other.token = socket.token then { other with queuedBytes := other.queuedBytes + 0 }
      else other) = network.sockets := by
    apply List.map_id''
    intro other
    exact ite_self other
  refine ⟨.inl rfl, ?_⟩
  change network = { network with
    sockets := network.sockets.map fun other =>
      if other.token = socket.token then { other with queuedBytes := other.queuedBytes + 0 }
      else other }
  rw [same]

theorem startRead_ends (network : NativeProcessNetwork) (socket : Socket) (members : Members)
    (limit : ℕ) :
    Ends (startRead members limit) network (Reserved network socket) (Untouched network) := by
  have refused := untouched_refused network
  unfold startRead
  apply ends_check refused
  intro _ _
  apply ends_check refused
  intro maximum _
  exact reserved_nothing network socket (.read maximum)

theorem startWrite_ends (host : Host) (network : NativeProcessNetwork) (socket : Socket)
    (members : Members) (limit : ℕ) :
    Ends (startWrite host members socket limit) network (Reserved network socket)
      (Untouched network) := by
  have refused := untouched_refused network
  unfold startWrite
  apply ends_check refused
  intro _ _
  apply ends_check refused
  intro bytes _
  apply ends_bind.mpr
  unfold reserveBytes
  apply ends_bind.mpr
  apply ends_get.mpr
  apply ends_ite
  · intro _
    apply ends_bind.mpr
    exact refused .byteLimit
  · intro fits
    have socketBound : socket.queuedBytes + bytes.length ≤ maxQueuedSocket := by
      by_contra more
      exact fits (.inl (Nat.lt_of_not_le more))
    have totalBound : network.queuedBytes + bytes.length ≤ maxQueuedTotal := by
      by_contra more
      exact fits (.inr (Nat.lt_of_not_le more))
    exact ⟨.inr ⟨socketBound, totalBound⟩, rfl⟩

theorem startEnd_ends (network : NativeProcessNetwork) (socket : Socket) (members : Members) :
    Ends (startEnd members) network (Reserved network socket) (Untouched network) := by
  unfold startEnd
  apply ends_check (untouched_refused network)
  intro _ _
  exact reserved_nothing network socket .shutdown

theorem startTransfer_ends (host : Host) (network : NativeProcessNetwork) (kind : Text)
    (members : Members) (socket : Socket) :
    Ends (startTransfer host kind members socket) network (Reserved network socket)
      (Untouched network) := by
  have reads := startRead_ends network socket members
  have writes := startWrite_ends host network socket members
  unfold startTransfer
  apply ends_ite (fun _ => reads maxBytesOfOperation)
  intro _
  apply ends_ite (fun _ => writes maxBytesOfOperation)
  intro _
  apply ends_ite (fun _ => startEnd_ends network socket members)
  intro _
  apply ends_ite (fun _ => writes 1472)
  intro _
  apply ends_ite (fun _ => reads 1472)
  intro _
  apply ends_ite (fun _ => reads maxHttpPull)
  intro _
  exact untouched_refused network .argumentInvalid

/-- What begins to read or write a socket charges it. -/
theorem startSocket_ends (host : Host) (network : NativeProcessNetwork) (kind : Text)
    (members : Members) (profile : Profile) (generation id deadline now : ℕ) :
    Ends (startSocket host kind members generation id deadline) network
      (Drafted host network profile generation id deadline now) (Untouched network) := by
  have refused := untouched_refused network
  unfold startSocket
  apply ends_check refused
  intro token _
  apply ends_bind.mpr
  apply ends_get.mpr
  apply ends_check refused
  intro socket checkedFound
  apply ends_check refused
  intro _ checkedGeneration
  apply ends_check refused
  intro _ checkedFree
  have found : network.socketOf token = some socket := of_orElse checkedFound
  have listed : socket ∈ network.sockets := List.mem_of_find?_eq_some found
  have named : socket.token = token := by
    have holds := List.find?_some found
    exact of_decide_eq_true holds
  have current : socket.generation = generation := by
    have passed := of_refuseWhen checkedGeneration
    exact not_not.mp (of_decide_eq_false passed)
  have free : socket.isFree (decide (kind ∈ [js "readTcp", js "recvUdp", js "httpPull"])) =
      true := by
    have passed := of_refuseWhen checkedFree
    unfold Socket.isFree
    revert passed
    cases decide (kind ∈ [js "readTcp", js "recvUdp", js "httpPull"]) with
    | true => simp
    | false => simp
  apply ends_bind.mpr
  apply (startTransfer_ends host network kind members socket).weaken
  · intro result after reserved
    apply ends_bind.mpr
    apply ends_modify.mpr
    apply ends_pure.mpr
    have bounded := reserved.1
    let isRead := decide (kind ∈ [js "readTcp", js "recvUdp", js "httpPull"])
    have moves : Drafted host network profile generation id deadline now
        (transferJob id generation deadline result.1 socket isRead result.2)
        (network.charge socket.token isRead result.2) := .moves listed current free bounded
    have sockets := charged_twice network socket isRead result.2 after.sockets
      (by rw [reserved.2])
    rw [reserved.2] at sockets ⊢
    rw [← named, sockets]
    exact moves
  · intro fault after untouched
    exact untouched

theorem startKind_ends (host : Host) (network : NativeProcessNetwork) (members : Members)
    (profile : Profile) (generation id deadline now : ℕ) :
    Ends (startKind host members profile generation id deadline now) network
      (Drafted host network profile generation id deadline now) (Untouched network) := by
  unfold startKind
  apply ends_check (untouched_refused network)
  intro kind _
  apply ends_ite
    (fun _ => startResolve_ends host network members profile generation id deadline now)
  intro _
  apply ends_ite
    (fun _ => startVerify_ends host network members profile generation id deadline now)
  intro _
  apply ends_ite
    (fun _ => startOpen_ends host network kind members profile generation id deadline now)
  intro _
  apply ends_ite
    (fun _ => startSocket_ends host network kind members profile generation id deadline now)
  intro _
  exact untouched_refused network .argumentInvalid

end Holonomy.HostNetwork
