import Holonomy.Network.RuleLifetimes

/-!
# The router of requests

The router answers requests by mock rules, or replays them to a provider behind it, the passthrough.
An operation that waits for the passthrough, or for a delay, is suspended as a task; whatever
happens in the meantime happens between two steps of the task. Requests that are malformed change
nothing and are left out, and so are the texts of the answers. The sinks of the host do not call the
router back.
-/

namespace Holonomy.Network

open Foundation

/-- The bytes of a chunk. -/
abbrev Bytes := List UInt8

/-- Where an exchange is. -/
inductive ExchangePhase where
  | accepted
  | uploading
  | response
  | reading
  | closed
  deriving DecidableEq

structure DownstreamResource where
  ownerCallToken : ℕ
  providerToken : ℕ
  deriving DecidableEq

/-- Who reads the body of a mock answer, and how far. -/
structure MockReader where
  callToken : ℕ
  index : ℕ
  deriving DecidableEq

/-- An exchange. -/
structure Exchange where
  body : List Bytes
  bodyBytes : ℕ
  capabilityBindingId : Option Text
  downstream : Option DownstreamResource
  headers : List (Text × Text)
  method : Text
  mockBody : List Bytes
  ownerCallToken : ℕ
  phase : ExchangePhase
  principal : Text
  reader : Option MockReader
  ruleSnapshot : NetworkMockRuleSetSnapshot
  ruleSnapshotId : ℕ
  url : Text

/-- A snapshot of the rules that a client holds, and the exchange that uses it. -/
structure LogicalRuleSnapshot where
  activeProviderToken : Option ℕ
  principal : Text
  snapshot : NetworkMockRuleSetSnapshot

/-- Who calls the router. -/
structure RouterContext where
  callToken : ℕ
  principal : Text
  /-- Whether the caller has the capability for requests. -/
  http : Bool
  /-- Whether the caller has the capability for mock requests. -/
  mock : Bool
  deriving DecidableEq

structure RequestArgs where
  capabilityBindingId : Option Text
  headers : List (Text × Text)
  method : Text
  ruleSnapshotId : Option ℕ
  url : Text

/-- The limits of a network. -/
structure RouterLimits where
  maxChunkBytes : ℕ
  maxConcurrentConnections : ℕ
  maxRequestBodyBytes : ℕ
  maxResponseBodyBytes : ℕ

structure RouterHost where
  rules : RuleHost
  limits : RouterLimits
  /-- Whether method, headers and URL of a request are allowed. -/
  admits : RequestArgs → Bool
  /-- Whether the transport check lets a request pass. -/
  verifyRequest : NetworkMockRequest → Option Text → Bool
  bodySha256 : Option (Bytes → Option Text)
  bodySha256Chunks : Option (List Bytes → Option Text)
  delays : Bool
  /-- The chunks of a mock answer, if its headers and its body are well formed. -/
  responseBody : JsonValue → Option (List Bytes)

/-- What a call of the passthrough is for. -/
inductive UnaryStage where
  | request
  | openBody
  | writeBody (index : ℕ)
  | finishBody
  | cancel
  | close
  deriving DecidableEq

/-- An answer of the passthrough, with the resources that it grants, for HTTP or not. -/
inductive UnaryReply where
  | error
  | result (resources : List Bool)
  /-- A result with binary data, or the end of a body. -/
  | unfit (resources : List Bool)
  deriving DecidableEq

/-- An operation that is suspended. -/
inductive RouterTask where
  /-- `finishBody` waits for the delay of an answer. -/
  | delayed (exchange : ℕ) (context : RouterContext) (action : JsonValue)
  | calling (exchange : ℕ) (context : RouterContext) (call : ℕ) (stage : UnaryStage)
  | answered (exchange : ℕ) (context : RouterContext) (call : ℕ) (stage : UnaryStage)
    (reply : UnaryReply) (tokens : List ℕ)
  /-- `validateDownstreamUnary` waits until a resource is closed, with others to be closed after. -/
  | refusing (exchange : ℕ) (stage : UnaryStage) (tokens : List ℕ)
  /-- `closeExchange` waits until the resource is closed; `dispose` may go on after it. -/
  | closing (exchange : ℕ) (rest : Option (List ℕ))
  | disposing (rest : List ℕ)

/-- What is noted. -/
inductive RouterEntry where
  | verified (exchange : ℕ) (request : NetworkMockRequest)
  | matched (exchange : ℕ) (request : NetworkMockRequest)
  | acknowledged (exchange : ℕ) (chunk : Bytes)
  | opened (exchange : ℕ)
  | uploaded (exchange : ℕ) (resource : Option ℕ) (part : Bytes)
  | finished (exchange : ℕ) (resource : Option ℕ)
  | closed (exchange : ℕ)

structure NetworkMockRouter where
  rules : NetworkMockRuleStore
  heap : List Exchange
  calls : OrderedMap ℕ ℕ
  /-- The exchanges that are open, the oldest first. -/
  exchanges : List ℕ
  logicalRuleSnapshots : OrderedMap ℕ LogicalRuleSnapshot
  activeConnections : ℕ
  disposed : Bool
  nextCall : ℕ
  nextRuleSnapshot : ℕ
  tasks : List RouterTask
  grants : List ℕ
  released : List ℕ
  log : List RouterEntry

/-- The operations on an exchange. -/
inductive HttpOperation where
  | openBody
  | writeBody
  | finishBody
  | readBody
  | cancel
  | close
  deriving DecidableEq

structure HttpRequest where
  operation : HttpOperation
  exchange : ℕ
  binary : Option (List Bytes)
  deriving DecidableEq

/-- What can happen to a router. -/
inductive RouterEvent where
  | replaceRules (input : Option JsonValue) (expectedRevision : Option Text)
  | openRequest (args : RequestArgs) (context : RouterContext)
  | releaseRules (ruleSnapshotId : ℕ) (context : RouterContext)
  | dispatch (request : HttpRequest) (context : RouterContext) (now : ℤ)
  | cancel (callToken : ℕ)
  | grantCredits (callToken : ℕ) (credits : ℕ)
  | closeResource (ownerCallToken : ℕ) (exchange : ℕ)
  | dispose
  | elapsed (task : ℕ) (succeeds : Bool)
  | answer (task : ℕ) (reply : UnaryReply)
  | resume (task : ℕ)
  | closed (task : ℕ) (succeeds : Bool)
  /-- The passthrough sends resources where nobody takes them: with an answer to a call that was
  answered before, or with a chunk. -/
  | stray (exchange : ℕ) (resources : List Bool)
  /-- The passthrough sends resources with the body of an answer. -/
  | streamed (exchange : ℕ) (callToken : ℕ) (resources : List Bool)
  /-- The body of an answer of the passthrough ends. -/
  | streamEnded (callToken : ℕ)
  | revoke (exchange : ℕ) (token : ℕ)

/-- The largest body that the rules see as a whole. -/
def maxContiguousMatchBodyBytes : ℕ := 1024 * 1024

/-- The number of bytes of some chunks. -/
def byteTotal (parts : List Bytes) : ℕ := (parts.map List.length).sum

/-- A digest that is well formed. -/
def checkedDigest (digest : Option Text) : Option Text := digest.filter isSha256

def isTextMember (value : Option JsonValue) (expected : Text) : Bool :=
  match value with
  | some (.string text) => text = expected
  | _ => false

def isDelayed (action : JsonValue) : Bool :=
  match memberOf action (js "delayMs") with
  | some (.number delay) => 0 < delay
  | _ => false

def RouterContext.hasNetworkCapability (context : RouterContext) : Bool :=
  context.http || context.mock

section Requests

variable (host : RouterHost)

def Exchange.digest (exchange : Exchange) (body : Bytes) : Option Text :=
  match host.bodySha256Chunks with
  | some digest => checkedDigest (digest exchange.body)
  | none =>
    match host.bodySha256 with
    | some digest => if body.length = exchange.bodyBytes then checkedDigest (digest body) else none
    | none => none

def Exchange.sensitiveHeaderSha256 (exchange : Exchange) : List (Text × Text) :=
  match host.bodySha256 with
  | none => []
  | some digest => exchange.headers.flatMap fun header =>
    if header.1 ∈ sensitiveHeaders then
      (checkedDigest (digest (encodeUtf8 header.2))).toList.map fun text => (header.1, text)
    else []

def Exchange.matchingRequest (exchange : Exchange) : NetworkMockRequest :=
  let body :=
    if exchange.bodyBytes ≤ maxContiguousMatchBodyBytes then exchange.body.flatten else []
  { body
    bodyLength := some exchange.bodyBytes
    bodySha256 := exchange.digest host body
    headers := exchange.headers
    sensitiveHeaderSha256 := exchange.sensitiveHeaderSha256 host
    method := exchange.method
    url := exchange.url }

end Requests

def UnaryReply.isValid (expectResource : Bool) : UnaryReply → Bool
  | .error => true
  | .result resources => if expectResource then resources = [true] else resources = []
  | .unfit _ => false

/-- The resources that come with an answer. -/
def UnaryReply.resources : UnaryReply → List Bool
  | .error => []
  | .result resources => resources
  | .unfit resources => resources

/-- The resources among those of an answer that are closed when the answer is not valid. -/
def UnaryReply.unexpected (tokens : List ℕ) : UnaryReply → List ℕ
  | .result _ => tokens
  | _ => []

def UnaryReply.isError : UnaryReply → Bool
  | .error => true
  | _ => false

namespace NetworkMockRouter

variable (host : RouterHost) (router : NetworkMockRouter)

def new (rules : NetworkMockRuleStore) : NetworkMockRouter :=
  { rules, heap := [], calls := .empty, exchanges := [], logicalRuleSnapshots := .empty,
    activeConnections := 0, disposed := false, nextCall := 1, nextRuleSnapshot := 1, tasks := [],
    grants := [], released := [], log := [] }

def update (exchange : ℕ) (change : Exchange → Exchange) : NetworkMockRouter :=
  { router with heap := router.heap.modify exchange change }

def note (entry : RouterEntry) : NetworkMockRouter := { router with log := router.log ++ [entry] }

def suspend (tasks : List RouterTask) : NetworkMockRouter :=
  { router with tasks := router.tasks ++ tasks }

/-- A task is no longer suspended. -/
def without (task : ℕ) : NetworkMockRouter :=
  { router with tasks := router.tasks.eraseIdx task }

def grant (exchange : ℕ) (resources : List Bool) : NetworkMockRouter :=
  { router with grants := router.grants ++ List.replicate resources.length exchange }

def nextTokens (resources : List Bool) : List ℕ :=
  List.range' router.grants.length resources.length

/-- Resources are closed or revoked. -/
def release (tokens : List ℕ) : NetworkMockRouter :=
  { router with released := router.released ++ tokens }

def downstreamUnary (exchange : ℕ) (context : RouterContext) (stage : UnaryStage) :
    NetworkMockRouter :=
  { router with
    calls := router.calls.set context.callToken router.nextCall
    nextCall := router.nextCall + 1 }.suspend [.calling exchange context router.nextCall stage]

def disposeLater : Option (List ℕ) → List RouterTask
  | none => []
  | some rest => [.disposing rest]

def closeReader (exchange : ℕ) : NetworkMockRouter :=
  router.update exchange fun content => { content with reader := none }

def zeroFill (exchange : ℕ) : NetworkMockRouter :=
  router.update exchange fun content =>
    { content with body := content.body.map fun part => List.replicate part.length 0 }

def releaseSnapshot (snapshots : OrderedMap ℕ LogicalRuleSnapshot) (ruleSnapshotId exchange : ℕ) :
    OrderedMap ℕ LogicalRuleSnapshot :=
  match snapshots.get? ruleSnapshotId with
  | some logical =>
    if logical.activeProviderToken = some exchange then
      snapshots.set ruleSnapshotId { logical with activeProviderToken := none }
    else snapshots
  | none => snapshots

/-- An exchange is not open any more. -/
def delist (exchange ruleSnapshotId : ℕ) : NetworkMockRouter :=
  { (router.update exchange fun content => { content with phase := .closed, reader := none }).note
      (.closed exchange) with
    exchanges := router.exchanges.erase exchange
    activeConnections := router.activeConnections - 1
    logicalRuleSnapshots :=
      releaseSnapshot router.logicalRuleSnapshots ruleSnapshotId exchange }

def closeExchange (exchange : ℕ) (content : Exchange) (rest : Option (List ℕ)) :
    NetworkMockRouter :=
  if exchange ∉ router.exchanges then router.suspend (disposeLater rest)
  else match content.downstream with
    | some downstream =>
      ((router.delist exchange content.ruleSnapshotId).release
        [downstream.providerToken]).suspend [.closing exchange rest]
    | none => ((router.delist exchange content.ruleSnapshotId).zeroFill exchange).suspend
        (disposeLater rest)

def disposeNext (rest : List ℕ) : NetworkMockRouter :=
  match rest with
  | [] => { router with calls := .empty, logicalRuleSnapshots := .empty }
  | exchange :: rest =>
    match router.heap[exchange]? with
    | some content => router.closeExchange exchange content (some rest)
    | none => router.suspend (disposeLater (some rest))

def openExchange (args : RequestArgs) (context : RouterContext) (ruleSnapshotId : ℕ)
    (ruleSnapshot : NetworkMockRuleSetSnapshot) : NetworkMockRouter :=
  let content : Exchange :=
    { body := [], bodyBytes := 0, capabilityBindingId := args.capabilityBindingId,
      downstream := none, headers := args.headers, method := args.method, mockBody := [],
      ownerCallToken := context.callToken, phase := .accepted, principal := context.principal,
      reader := none, ruleSnapshot, ruleSnapshotId, url := args.url }
  { router with
    heap := router.heap ++ [content]
    exchanges := router.exchanges ++ [router.heap.length]
    activeConnections := router.activeConnections + 1
    logicalRuleSnapshots := router.logicalRuleSnapshots.set ruleSnapshotId
      ⟨some router.heap.length, context.principal, ruleSnapshot⟩ }

def openRequest (args : RequestArgs) (context : RouterContext) : NetworkMockRouter :=
  if router.disposed ∨ ¬ context.hasNetworkCapability ∨ ¬ host.admits args ∨
      host.limits.maxConcurrentConnections ≤ router.activeConnections then router
  else match args.ruleSnapshotId with
    | none =>
      if host.limits.maxConcurrentConnections ≤ router.logicalRuleSnapshots.size then router
      else { router with nextRuleSnapshot := router.nextRuleSnapshot + 1 }.openExchange args context
        router.nextRuleSnapshot router.rules.getSnapshot
    | some ruleSnapshotId =>
      match router.logicalRuleSnapshots.get? ruleSnapshotId with
      | none => router
      | some logical =>
        if logical.principal ≠ context.principal ∨ logical.activeProviderToken ≠ none then router
        else router.openExchange args context ruleSnapshotId logical.snapshot

def releaseRules (ruleSnapshotId : ℕ) (context : RouterContext) : NetworkMockRouter :=
  if router.disposed ∨ ¬ context.hasNetworkCapability then router
  else match router.logicalRuleSnapshots.get? ruleSnapshotId with
    | none => router
    | some logical =>
      if logical.principal ≠ context.principal then router
      else { router with
        logicalRuleSnapshots := router.logicalRuleSnapshots.delete ruleSnapshotId }

def pushChunk (exchange : ℕ) (data : Bytes) : NetworkMockRouter :=
  (router.update exchange fun content => { content with
      body := content.body ++ [data]
      bodyBytes := content.bodyBytes + data.length }).note (.acknowledged exchange data)

def writeBody (exchange : ℕ) (content : Exchange) (binary : Option (List Bytes)) :
    NetworkMockRouter :=
  match binary with
  | some [data] =>
    if content.phase ≠ .uploading ∨ host.limits.maxChunkBytes < data.length then router
    else if host.limits.maxRequestBodyBytes < content.bodyBytes + data.length then
      router.update exchange fun content =>
        { content with bodyBytes := content.bodyBytes + data.length }
    else router.pushChunk exchange data
  | _ => router

/-- The replay of an exchange begins. -/
def finishPassthrough (exchange : ℕ) (context : RouterContext) : NetworkMockRouter :=
  if context.http then (router.note (.opened exchange)).downstreamUnary exchange context .request
  else router

def respond (exchange : ℕ) (chunks : List Bytes) : NetworkMockRouter :=
  if host.limits.maxResponseBodyBytes < byteTotal chunks ∨
      ∃ chunk ∈ chunks, host.limits.maxChunkBytes < chunk.length then
    router.update exchange fun content => { content with mockBody := chunks }
  else router.update exchange fun content =>
    { content with mockBody := chunks, phase := .response }

/-- What the rules say is done, unless the exchange was closed. -/
def act (exchange : ℕ) (context : RouterContext) (action : JsonValue) : NetworkMockRouter :=
  if exchange ∉ router.exchanges then router
  else if isTextMember (memberOf action (js "type")) (js "fail") then router
  else if isTextMember (memberOf action (js "type")) (js "respond") then
    match host.responseBody action with
    | none => router
    | some chunks => router.respond host exchange chunks
  else router.finishPassthrough exchange context

/-- What the rules say is done, after a delay if they want one. -/
def actLater (exchange : ℕ) (context : RouterContext) (action : JsonValue) : NetworkMockRouter :=
  if isDelayed action then
    if host.delays then router.suspend [.delayed exchange context action] else router
  else router.act host exchange context action

def matchRequest (exchange : ℕ) (content : Exchange) (context : RouterContext)
    (request : NetworkMockRequest) (now : ℤ) : NetworkMockRouter :=
  match router.rules.match host.rules request now content.ruleSnapshot with
  | (.error _, rules) => { router with rules }.note (.matched exchange request)
  | (.ok result, rules) =>
    ({ router with rules }.note (.matched exchange request)).actLater host exchange context
      result.action

def finishBody (exchange : ℕ) (content : Exchange) (binary : Option (List Bytes))
    (context : RouterContext) (now : ℤ) : NetworkMockRouter :=
  if content.phase ≠ .uploading ∨ binary.isSome then router
  else
    let request := content.matchingRequest host
    if host.verifyRequest request content.capabilityBindingId then
      (router.note (.verified exchange request)).matchRequest host exchange content context request
        now
    else router.note (.verified exchange request)

def readBody (exchange : ℕ) (content : Exchange) (binary : Option (List Bytes))
    (context : RouterContext) : NetworkMockRouter :=
  if content.phase ≠ .response ∨ binary.isSome ∨ content.reader.isSome then router
  else match content.downstream with
    | none => router.update exchange fun content =>
      { content with phase := .reading, reader := some ⟨context.callToken, 0⟩ }
    | some _ => { router with
        calls := router.calls.set context.callToken router.nextCall
        nextCall := router.nextCall + 1 }

def operate (exchange : ℕ) (content : Exchange) (operation : HttpOperation)
    (binary : Option (List Bytes)) (context : RouterContext) (now : ℤ) : NetworkMockRouter :=
  match operation with
  | .openBody =>
    if content.phase ≠ .accepted ∨ binary.isSome then router
    else router.update exchange fun content => { content with phase := .uploading }
  | .writeBody => router.writeBody host exchange content binary
  | .finishBody => router.finishBody host exchange content binary context now
  | .readBody => router.readBody exchange content binary context
  | .cancel =>
    if content.downstream.isSome then router.downstreamUnary exchange context .cancel
    else router.closeReader exchange
  | .close =>
    if content.downstream.isSome then router.downstreamUnary exchange context .close
    else router.closeExchange exchange content none

/-- The exchange that an operation is called for, if the caller may and it is open. -/
def resolveExchange (exchange : ℕ) (context : RouterContext) : Option Exchange :=
  if router.disposed ∨ ¬ context.hasNetworkCapability ∨ exchange ∉ router.exchanges then none
  else router.heap[exchange]?.filter fun content => context.principal = content.principal

def dispatch (request : HttpRequest) (context : RouterContext) (now : ℤ) : NetworkMockRouter :=
  match router.resolveExchange request.exchange context with
  | none => router
  | some content =>
    router.operate host request.exchange content request.operation request.binary context now

def closeReaders (callToken : ℕ) : List ℕ → NetworkMockRouter → NetworkMockRouter
  | [], router => router
  | exchange :: rest, router =>
    closeReaders callToken rest (router.update exchange fun content =>
      if content.reader.map MockReader.callToken = some callToken then
        { content with reader := none } else content)

def cancel (callToken : ℕ) : NetworkMockRouter :=
  match router.calls.get? callToken with
  | some _ => { router with calls := router.calls.delete callToken }
  | none => closeReaders callToken router.exchanges router

def grantEach (callToken credits : ℕ) : List ℕ → NetworkMockRouter → NetworkMockRouter
  | [], router => router
  | exchange :: rest, router =>
    match router.heap[exchange]?, router.heap[exchange]?.bind Exchange.reader with
    | some content, some reader =>
      if reader.callToken ≠ callToken ∨ content.phase ≠ .reading then
        grantEach callToken credits rest router
      else if content.mockBody.length < reader.index + credits then
        router.update exchange fun content =>
          { content with reader := none, phase := .response }
      else grantEach callToken credits rest (router.update exchange fun content =>
        { content with reader := some { reader with index := reader.index + credits } })
    | _, _ => grantEach callToken credits rest router

def grantCredits (callToken credits : ℕ) : NetworkMockRouter :=
  match router.calls.get? callToken with
  | some _ => router
  | none => if credits = 0 then router else grantEach callToken credits router.exchanges router

def closeResource (ownerCallToken exchange : ℕ) : NetworkMockRouter :=
  match router.heap[exchange]? with
  | none => router
  | some content =>
    if exchange ∉ router.exchanges ∨ content.ownerCallToken ≠ ownerCallToken then router
    else router.closeExchange exchange content none

def dispose : NetworkMockRouter :=
  if router.disposed then router
  else { router with disposed := true }.disposeNext router.exchanges

def uploadFrom (index exchange : ℕ) (content : Exchange) (context : RouterContext) :
    NetworkMockRouter :=
  let resource := content.downstream.map DownstreamResource.providerToken
  match content.body[index]? with
  | some part => (router.note (.uploaded exchange resource part)).downstreamUnary exchange context
      (.writeBody index)
  | none =>
    (router.note (.finished exchange resource)).downstreamUnary exchange context .finishBody

/-- An operation goes on with an answer that is valid. -/
def proceed (exchange : ℕ) (content : Exchange) (context : RouterContext) (call : ℕ)
    (stage : UnaryStage) (reply : UnaryReply) (tokens : List ℕ) : NetworkMockRouter :=
  match stage with
  | .request =>
    match tokens with
    | [] => router
    | token :: _ => (router.update exchange fun content =>
        { content with downstream := some ⟨call, token⟩ }).downstreamUnary exchange context
          .openBody
  | .openBody =>
    if reply.isError then router else router.uploadFrom 0 exchange content context
  | .writeBody index =>
    if reply.isError then router else router.uploadFrom (index + 1) exchange content context
  | .finishBody => router.update exchange fun content => { content with phase := .response }
  | .cancel => router
  | .close => router.closeExchange exchange content none

/-- An operation ends with an answer that is not valid. -/
def refuse (exchange : ℕ) (content : Exchange) (stage : UnaryStage) : NetworkMockRouter :=
  match stage with
  | .close => router.closeExchange exchange content none
  | _ => router

/-- Resources that nobody expected are closed one after another. -/
def refuseEach (exchange : ℕ) (content : Exchange) (stage : UnaryStage) (tokens : List ℕ) :
    NetworkMockRouter :=
  match tokens with
  | [] => router.refuse exchange content stage
  | token :: rest => (router.release [token]).suspend [.refusing exchange stage rest]

/-- An operation goes on with an answer. -/
def goOn (exchange : ℕ) (content : Exchange) (context : RouterContext) (call : ℕ)
    (stage : UnaryStage) (reply : UnaryReply) (tokens : List ℕ) : NetworkMockRouter :=
  if reply.isValid (stage = .request) then
    router.proceed exchange content context call stage reply tokens
  else router.refuseEach exchange content stage (reply.unexpected tokens)

/-- A task that was suspended goes on. -/
def resumeTask (task : RouterTask) : Option NetworkMockRouter :=
  match task with
  | .answered exchange context call stage reply tokens =>
    router.heap[exchange]?.map fun content =>
      router.goOn exchange content context call stage reply tokens
  | .disposing rest => some (router.disposeNext rest)
  | _ => none

def closedTask (succeeds : Bool) (task : RouterTask) : Option NetworkMockRouter :=
  match task with
  | .refusing exchange stage tokens =>
    if succeeds then
      router.heap[exchange]?.map fun content => router.refuseEach exchange content stage tokens
    else some router
  | .closing exchange rest =>
    if succeeds then some ((router.zeroFill exchange).suspend (disposeLater rest)) else some router
  | _ => none

def elapsedTask (succeeds : Bool) (task : RouterTask) : Option NetworkMockRouter :=
  match task with
  | .delayed exchange context action =>
    some (if succeeds then router.act host exchange context action else router)
  | _ => none

def answerTask (reply : UnaryReply) (task : RouterTask) : Option NetworkMockRouter :=
  match task with
  | .calling exchange context call stage =>
    some (({ router with calls := router.calls.delete context.callToken }.grant exchange
      reply.resources).suspend
        [.answered exchange context call stage reply (router.nextTokens reply.resources)])
  | _ => none

def revoke (exchange token : ℕ) (content : Exchange) : NetworkMockRouter :=
  let revoked := router.release [token]
  if content.downstream.map DownstreamResource.providerToken ≠ some token ∨
      content.phase = .closed then revoked
  else (revoked.update exchange fun content => { content with downstream := none }).closeExchange
    exchange { content with downstream := none } none

/-- The router after something has happened. -/
def step (event : RouterEvent) : Option NetworkMockRouter :=
  match event with
  | .replaceRules input expectedRevision =>
    some { router with rules := (router.rules.replace host.rules input expectedRevision).2 }
  | .openRequest args context => some (router.openRequest host args context)
  | .releaseRules ruleSnapshotId context => some (router.releaseRules ruleSnapshotId context)
  | .dispatch request context now => some (router.dispatch host request context now)
  | .cancel callToken => some (router.cancel callToken)
  | .grantCredits callToken credits => some (router.grantCredits callToken credits)
  | .closeResource ownerCallToken exchange => some (router.closeResource ownerCallToken exchange)
  | .dispose => some router.dispose
  | .elapsed task succeeds =>
    router.tasks[task]?.bind ((router.without task).elapsedTask host succeeds)
  | .answer task reply => router.tasks[task]?.bind ((router.without task).answerTask reply)
  | .resume task => router.tasks[task]?.bind (router.without task).resumeTask
  | .closed task succeeds =>
    router.tasks[task]?.bind ((router.without task).closedTask succeeds)
  | .stray exchange resources =>
    if exchange < router.heap.length then some (router.grant exchange resources) else none
  | .streamed exchange callToken resources =>
    if exchange < router.heap.length then
      some ({ router with calls := router.calls.delete callToken }.grant exchange
        resources |>.release (router.nextTokens resources))
    else none
  | .streamEnded callToken => some { router with calls := router.calls.delete callToken }
  | .revoke exchange token =>
    if router.grants[token]? = some exchange then
      router.heap[exchange]?.map (router.revoke exchange token)
    else none

def machine (rules : NetworkMockRuleStore) : Machine NetworkMockRouter RouterEvent where
  start := new rules
  step := step host

end NetworkMockRouter

/-! ## What concerns no bodies and no resources

Many steps of the router change neither the bodies of exchanges nor the resources of the
passthrough, suspend nothing and note nothing.
-/

def UnaryStage.nextPart : UnaryStage → Option ℕ
  | .openBody => some 0
  | .writeBody index => some (index + 1)
  | _ => none

namespace NetworkMockRouter

def downstreamOf (router : NetworkMockRouter) (exchange : ℕ) : Option ℕ :=
  (router.heap[exchange]?.bind Exchange.downstream).map DownstreamResource.providerToken

section Updates

variable {router : NetworkMockRouter} {exchange other : ℕ} {change : Exchange → Exchange}
  {content : Exchange}

variable {token : ℕ}

theorem found_update (found : (router.update exchange change).heap[other]? = some content) :
    ∃ old, router.heap[other]? = some old ∧
      (exchange = other ∧ content = change old ∨ exchange ≠ other ∧ content = old) := by
  change (router.heap.modify exchange change)[other]? = some content at found
  rw [List.getElem?_modify] at found
  obtain ⟨old, foundOld, isContent⟩ := Option.map_eq_some_iff.mp found
  refine ⟨old, foundOld, ?_⟩
  by_cases here : exchange = other
  · rw [if_pos here] at isContent
    exact Or.inl ⟨here, isContent.symm⟩
  · rw [if_neg here] at isContent
    exact Or.inr ⟨here, isContent.symm⟩

theorem update_found (found : router.heap[exchange]? = some content) :
    (router.update exchange change).heap[exchange]? = some (change content) := by
  change (router.heap.modify exchange change)[exchange]? = some (change content)
  rw [List.getElem?_modify, found]
  exact congrArg some (if_pos rfl)

theorem downstreamOf_found (found : router.heap[exchange]? = some content) :
    router.downstreamOf exchange = content.downstream.map DownstreamResource.providerToken := by
  unfold downstreamOf
  rw [found, Option.bind_some]

theorem found_of_downstreamOf (has : router.downstreamOf exchange = some token) :
    ∃ content, router.heap[exchange]? = some content ∧
      content.downstream.map DownstreamResource.providerToken = some token := by
  obtain ⟨resource, hasResource, isToken⟩ := Option.map_eq_some_iff.mp has
  obtain ⟨content, found, isResource⟩ := Option.bind_eq_some_iff.mp hasResource
  refine ⟨content, found, ?_⟩
  rw [isResource, Option.map_some, isToken]

theorem downstreamOf_update
    (keeps : ∀ content, (change content).downstream = content.downstream ∨
      (change content).downstream = none)
    (has : (router.update exchange change).downstreamOf other = some token) :
    router.downstreamOf other = some token := by
  obtain ⟨content, found, isToken⟩ := found_of_downstreamOf has
  obtain ⟨old, foundOld, changed | same⟩ := found_update found
  · rw [changed.2] at isToken
    rcases keeps old with keep | gone
    · rw [keep] at isToken
      rw [downstreamOf_found foundOld, isToken]
    · rw [gone] at isToken
      cases isToken
  · rw [same.2] at isToken
    rw [downstreamOf_found foundOld, isToken]

theorem downstreamOf_update_ne (differ : exchange ≠ other) :
    (router.update exchange change).downstreamOf other = router.downstreamOf other := by
  unfold downstreamOf
  change ((router.heap.modify exchange change)[other]?.bind Exchange.downstream).map _ = _
  rw [List.getElem?_modify_ne change router.heap differ]

end Updates

structure Alike (before after : NetworkMockRouter) : Prop where
  exchanges : after.exchanges = before.exchanges
  activeConnections : after.activeConnections = before.activeConnections
  tasks : after.tasks = before.tasks
  grants : after.grants = before.grants
  released : after.released = before.released
  log : after.log = before.log
  length : after.heap.length = before.heap.length
  /-- Every exchange has its body and its resource, and none is closed that is open. -/
  contents : ∀ (exchange : ℕ) (content : Exchange), after.heap[exchange]? = some content →
    ∃ old : Exchange, before.heap[exchange]? = some old ∧ content.body = old.body ∧
      content.bodyBytes = old.bodyBytes ∧ content.downstream = old.downstream ∧
      (content.phase = .closed → old.phase = .closed)

variable {router : NetworkMockRouter}

variable {exchange : ℕ}

theorem granted_nextTokens {token : ℕ} {resources : List Bool}
    (isNext : token ∈ router.nextTokens resources) :
    (router.grant exchange resources).grants[token]? = some exchange := by
  obtain ⟨past, before⟩ := List.mem_range'_1.mp isNext
  change (router.grants ++ List.replicate resources.length exchange)[token]? = some exchange
  rw [List.getElem?_append_right past]
  exact List.getElem?_replicate_of_lt (by omega)

theorem resolved_exchange {context : RouterContext} {content : Exchange}
    (resolved : router.resolveExchange exchange context = some content) :
    exchange ∈ router.exchanges ∧ router.heap[exchange]? = some content := by
  unfold resolveExchange at resolved
  split at resolved
  · cases resolved
  · rename_i refused
    obtain ⟨_, refused⟩ := not_or.mp refused
    obtain ⟨_, listed⟩ := not_or.mp refused
    exact ⟨not_not.mp listed, (Option.filter_eq_some_iff.mp resolved).1⟩

namespace Alike

variable {exchange callToken credits : ℕ} {context : RouterContext}

theorem refl : Alike router router where
  exchanges := rfl
  activeConnections := rfl
  tasks := rfl
  grants := rfl
  released := rfl
  log := rfl
  length := rfl
  contents := fun _ content found => ⟨content, found, rfl, rfl, rfl, id⟩

theorem trans {middle after : NetworkMockRouter} (first : Alike router middle)
    (second : Alike middle after) : Alike router after where
  exchanges := second.exchanges.trans first.exchanges
  activeConnections := second.activeConnections.trans first.activeConnections
  tasks := second.tasks.trans first.tasks
  grants := second.grants.trans first.grants
  released := second.released.trans first.released
  log := second.log.trans first.log
  length := second.length.trans first.length
  contents := by
    intro exchange content found
    obtain ⟨between, foundBetween, body, bytes, downstream, phase⟩ :=
      second.contents exchange content found
    obtain ⟨old, foundOld, oldBody, oldBytes, oldDownstream, oldPhase⟩ :=
      first.contents exchange between foundBetween
    exact ⟨old, foundOld, body.trans oldBody, bytes.trans oldBytes,
      downstream.trans oldDownstream, fun closed => oldPhase (phase closed)⟩

theorem update {change : Exchange → Exchange}
    (harmless : ∀ content, (change content).body = content.body ∧
      (change content).bodyBytes = content.bodyBytes ∧
      (change content).downstream = content.downstream ∧
      ((change content).phase = .closed → content.phase = .closed)) :
    Alike router (router.update exchange change) := by
  refine { refl with length := List.length_modify .., contents := ?_ }
  intro other content found
  obtain ⟨old, foundOld, changed | same⟩ := found_update found
  · rw [changed.2]
    exact ⟨old, foundOld, harmless old⟩
  · rw [same.2]
    exact ⟨old, foundOld, rfl, rfl, rfl, id⟩

theorem closeReaders (exchanges : List ℕ) (router : NetworkMockRouter) :
    Alike router (closeReaders callToken exchanges router) := by
  induction exchanges generalizing router with
  | nil => exact refl
  | cons exchange exchanges ih =>
    unfold NetworkMockRouter.closeReaders
    apply trans _ (ih _)
    apply update
    intro content
    split
    · exact ⟨rfl, rfl, rfl, id⟩
    · exact ⟨rfl, rfl, rfl, id⟩

theorem cancel : Alike router (router.cancel callToken) := by
  unfold NetworkMockRouter.cancel
  split
  · exact { refl with }
  · exact closeReaders _ _

theorem grantEach (exchanges : List ℕ) (router : NetworkMockRouter) :
    Alike router (grantEach callToken credits exchanges router) := by
  induction exchanges generalizing router with
  | nil => exact refl
  | cons exchange exchanges ih =>
    unfold NetworkMockRouter.grantEach
    split
    · split
      · exact ih router
      · split
        · exact update fun content => ⟨rfl, rfl, rfl, fun closed => by cases closed⟩
        · apply trans _ (ih _)
          exact update fun content => ⟨rfl, rfl, rfl, id⟩
    · exact ih router

theorem grantCredits : Alike router (router.grantCredits callToken credits) := by
  unfold NetworkMockRouter.grantCredits
  split
  · exact refl
  · split
    · exact refl
    · exact grantEach _ _

theorem releaseRules {ruleSnapshotId : ℕ} :
    Alike router (router.releaseRules ruleSnapshotId context) := by
  unfold NetworkMockRouter.releaseRules
  split
  · exact refl
  · split
    · exact refl
    · split
      · exact refl
      · exact { refl with }

theorem readBody {content : Exchange} {binary : Option (List Bytes)} :
    Alike router (router.readBody exchange content binary context) := by
  unfold NetworkMockRouter.readBody
  split
  · exact refl
  · split
    · exact update fun content => ⟨rfl, rfl, rfl, fun closed => by cases closed⟩
    · exact { refl with }

theorem respond {host : RouterHost} {chunks : List Bytes} :
    Alike router (router.respond host exchange chunks) := by
  unfold NetworkMockRouter.respond
  split
  · exact update fun content => ⟨rfl, rfl, rfl, id⟩
  · exact update fun content => ⟨rfl, rfl, rfl, fun closed => by cases closed⟩

end Alike

end NetworkMockRouter

def plainRouterHost : RouterHost where
  rules := plainRuleHost
  limits :=
    { maxChunkBytes := 2, maxConcurrentConnections := 2, maxRequestBodyBytes := 3,
      maxResponseBodyBytes := 2 }
  admits args := args.url = js "http://h/"
  verifyRequest _ _ := true
  bodySha256 := none
  bodySha256Chunks := none
  delays := false
  responseBody _ := none

/-- A caller that may do everything. -/
def plainContext : RouterContext := ⟨1, js "p", true, true⟩

def firstExchange (operation : HttpOperation) (binary : Option (List Bytes)) : RouterEvent :=
  .dispatch ⟨operation, 0, binary⟩ plainContext 0

def openedBody : List RouterEvent :=
  [.openRequest ⟨none, [], js "POST", none, js "http://h/"⟩ plainContext,
    firstExchange .openBody none]

/-- The passthrough answers the first task, which goes on. -/
def answered (resources : List Bool) : List RouterEvent :=
  [.answer 0 (.result resources), .resume 0]

end Holonomy.Network
