import Holonomy.Network.Router

/-!
# What is checked and what is sent

The body that is verified, the body that is matched and the parts that are written to the
passthrough are made of the chunks whose writes were acknowledged, as long as no write exceeds the
limit of a body, no write is acknowledged while a body is being finished, no two replays of an
exchange overlap, and no replay goes on with the parts of an exchange that was closed.
-/

namespace Holonomy.Network

open Foundation

def RouterEntry.exchange : RouterEntry → ℕ
  | .verified exchange _ => exchange
  | .matched exchange _ => exchange
  | .acknowledged exchange _ => exchange
  | .opened exchange => exchange
  | .uploaded exchange _ _ => exchange
  | .finished exchange _ => exchange
  | .closed exchange => exchange

def RouterEntry.chunkOf (exchange : ℕ) : RouterEntry → Option Bytes
  | .acknowledged other chunk => if other = exchange then some chunk else none
  | _ => none

def RouterEntry.partOf (resource : ℕ) : RouterEntry → Option Bytes
  | .uploaded _ other part => if other = some resource then some part else none
  | _ => none

def RouterEntry.requestOf (exchange : ℕ) : RouterEntry → Option NetworkMockRequest
  | .matched other request => if other = exchange then some request else none
  | _ => none

def acknowledgedFor (exchange : ℕ) (log : List RouterEntry) : List Bytes :=
  log.filterMap (RouterEntry.chunkOf exchange)

def uploadedTo (resource : ℕ) (log : List RouterEntry) : List Bytes :=
  log.filterMap (RouterEntry.partOf resource)

def lastMatched (exchange : ℕ) (log : List RouterEntry) : Option NetworkMockRequest :=
  (log.filterMap (RouterEntry.requestOf exchange)).getLast?

def digestOf (host : RouterHost) (chunks : List Bytes) : Option Text :=
  match host.bodySha256Chunks with
  | some digest => checkedDigest (digest chunks)
  | none =>
    match host.bodySha256 with
    | some digest =>
      if byteTotal chunks ≤ maxContiguousMatchBodyBytes then checkedDigest (digest chunks.flatten)
      else none
    | none => none

structure Shows (host : RouterHost) (chunks : List Bytes) (request : NetworkMockRequest)
    : Prop where
  length : request.bodyLength = some (byteTotal chunks)
  body : request.body =
    if byteTotal chunks ≤ maxContiguousMatchBodyBytes then chunks.flatten else []
  digest : request.bodySha256 = digestOf host chunks

def Sent (host : RouterHost) (before : List RouterEntry) : RouterEntry → Prop
  | .verified exchange request => Shows host (acknowledgedFor exchange before) request
  | .matched exchange request => Shows host (acknowledgedFor exchange before) request
  | .uploaded exchange (some resource) part =>
    uploadedTo resource before ++ [part] <+: acknowledgedFor exchange before
  | .finished exchange (some resource) =>
    uploadedTo resource before = acknowledgedFor exchange before ∧
      ∃ request, lastMatched exchange before = some request ∧
        Shows host (acknowledgedFor exchange before) request
  | _ => True

/-- Whether a call is part of a replay. -/
def UnaryStage.isReplay : UnaryStage → Bool
  | .cancel => false
  | .close => false
  | _ => true

def RouterTask.replays (exchange : ℕ) : RouterTask → Bool
  | .calling other _ _ stage => other = exchange && stage.isReplay
  | .answered other _ _ stage _ _ => other = exchange && stage.isReplay
  | _ => false

def RouterTask.finishes (exchange : ℕ) : RouterTask → Bool
  | .delayed other _ _ => other = exchange
  | task => task.replays exchange

namespace NetworkMockRouter

variable (host : RouterHost) (router : NetworkMockRouter)

structure SendsWhatIsChecked : Prop where
  /-- What is verified, matched and written is what was acknowledged. -/
  sent : Fits (Sent host) router.log
  /-- The exchange is what the acknowledged writes made of it. -/
  kept : ∀ exchange ∈ router.exchanges, ∀ content, router.heap[exchange]? = some content →
    content.body = acknowledgedFor exchange router.log ∧
      content.bodyBytes = byteTotal (acknowledgedFor exchange router.log)
  /-- A chunk is taken if it and the acknowledged ones fit. -/
  takes : ∀ exchange ∈ router.exchanges, ∀ content data, router.heap[exchange]? = some content →
    content.phase = .uploading → data.length ≤ host.limits.maxChunkBytes →
    byteTotal (acknowledgedFor exchange router.log) + data.length ≤
      host.limits.maxRequestBodyBytes →
    router.writeBody host exchange content (some [data]) = router.pushChunk exchange data

def isOrderlyWrite (exchange : ℕ) (content : Exchange) (binary : Option (List Bytes)) : Bool :=
  match binary with
  | some [data] =>
    content.phase ≠ .uploading || host.limits.maxChunkBytes < data.length ||
      (content.bodyBytes + data.length ≤ host.limits.maxRequestBodyBytes &&
        router.tasks.all fun task => !task.finishes exchange)
  | _ => true

def isAlone (exchange : ℕ) : Bool := router.tasks.all fun task => !task.replays exchange

def isOrderlyDispatch (request : HttpRequest) (content : Exchange) : Bool :=
  match request.operation with
  | .writeBody => router.isOrderlyWrite host request.exchange content request.binary
  | .finishBody => content.phase ≠ .uploading || router.isAlone request.exchange
  | _ => true

def isOrderlyResume : RouterTask → Bool
  | .answered exchange _ _ stage reply _ =>
    reply.isError || ! reply.isValid false || exchange ∈ router.exchanges ||
      (stage.nextPart.bind fun index =>
        (router.heap[exchange]?.bind fun content => content.body[index]?)).isNone
  | _ => true

/-- The task does not begin a replay while there is another. -/
def isOrderlyDelay : RouterTask → Bool
  | .delayed exchange _ _ => router.isAlone exchange
  | _ => true

/-- The steps that keep what is checked and what is sent together. -/
def isOrderly (event : RouterEvent) : Bool :=
  match event with
  | .dispatch request context _ =>
    (router.resolveExchange request.exchange context).all (router.isOrderlyDispatch host request)
  | .elapsed task _ => router.tasks[task]?.all router.isOrderlyDelay
  | .resume task => router.tasks[task]?.all router.isOrderlyResume
  | _ => true

end NetworkMockRouter

section Log

variable {log : List RouterEntry} {entry : RouterEntry} {exchange resource : ℕ}

theorem acknowledgedFor_snoc : acknowledgedFor exchange (log ++ [entry]) =
    acknowledgedFor exchange log ++ (entry.chunkOf exchange).toList :=
  filterMap_snoc _ _ _

theorem uploadedTo_snoc : uploadedTo resource (log ++ [entry]) =
    uploadedTo resource log ++ (entry.partOf resource).toList :=
  filterMap_snoc _ _ _

theorem lastMatched_snoc : lastMatched exchange (log ++ [entry]) =
    (entry.requestOf exchange).or (lastMatched exchange log) := by
  unfold lastMatched
  rw [filterMap_snoc]
  cases entry.requestOf exchange with
  | none =>
    rw [Option.toList_none, List.append_nil]
    rfl
  | some request =>
    rw [Option.toList_some, List.getLast?_append]
    rfl

theorem acknowledgedFor_snoc_none (noChunk : entry.chunkOf exchange = none) :
    acknowledgedFor exchange (log ++ [entry]) = acknowledgedFor exchange log := by
  rw [acknowledgedFor_snoc, noChunk, Option.toList_none, List.append_nil]

theorem uploadedTo_snoc_none (noPart : entry.partOf resource = none) :
    uploadedTo resource (log ++ [entry]) = uploadedTo resource log := by
  rw [uploadedTo_snoc, noPart, Option.toList_none, List.append_nil]

theorem lastMatched_snoc_none (noRequest : entry.requestOf exchange = none) :
    lastMatched exchange (log ++ [entry]) = lastMatched exchange log := by
  rw [lastMatched_snoc, noRequest, Option.none_or]

theorem uploadedTo_eq_nil (unused : ∀ exchange part,
    .uploaded exchange (some resource) part ∉ log) :
    uploadedTo resource log = [] := by
  unfold uploadedTo
  rw [List.filterMap_eq_nil_iff]
  intro entry listed
  cases entry with
  | uploaded exchange other part =>
    have different : other ≠ some resource := by
      intro same
      rw [same] at listed
      exact unused exchange part listed
    exact if_neg different
  | _ => rfl

end Log

namespace NetworkMockRouter

section Invariant

variable (host : RouterHost) (router : NetworkMockRouter)

def IsShut (exchange : ℕ) : Prop :=
  exchange < router.heap.length ∧ exchange ∉ router.exchanges

def Current (exchange : ℕ) : Prop :=
  ∃ request, lastMatched exchange router.log = some request ∧
    Shows host (acknowledgedFor exchange router.log) request

def Replayed (exchange count : ℕ) : Prop :=
  count ≤ (acknowledgedFor exchange router.log).length ∧
    ∀ token, router.downstreamOf exchange = some token →
      uploadedTo token router.log = (acknowledgedFor exchange router.log).take count

/-- What is known while a call is in flight. -/
def Staged (exchange : ℕ) : UnaryStage → Prop
  | .request => router.Current host exchange
  | .openBody => router.Current host exchange ∧ router.Replayed exchange 0
  | .writeBody index => router.Current host exchange ∧ router.Replayed exchange (index + 1)
  | .finishBody => router.Current host exchange
  | _ => True

/-- What is known while a task is suspended. -/
def Fine : RouterTask → Prop
  | .delayed exchange _ _ => router.Current host exchange
  | .calling exchange _ _ stage => router.Staged host exchange stage
  | .answered exchange _ _ stage _ tokens => router.Staged host exchange stage ∧
    ∀ token ∈ tokens, router.grants[token]? = some exchange ∧
      (stage = .request → uploadedTo token router.log = [])
  | .closing exchange _ => router.IsShut exchange
  | _ => True

structure Kept (tasks : List RouterTask) : Prop where
  sent : Fits (Sent host) router.log
  known : ∀ entry ∈ router.log, entry.exchange < router.heap.length
  distinct : router.exchanges.Nodup
  listed : ∀ exchange ∈ router.exchanges, exchange < router.heap.length
  bodies : ∀ exchange content, router.heap[exchange]? = some content →
    content.body.map List.length = (acknowledgedFor exchange router.log).map List.length ∧
      content.bodyBytes = byteTotal (acknowledgedFor exchange router.log) ∧
      (exchange ∈ router.exchanges → content.body = acknowledgedFor exchange router.log)
  owned : ∀ exchange token, router.downstreamOf exchange = some token →
    router.grants[token]? = some exchange
  used : ∀ exchange token part, .uploaded exchange (some token) part ∈ router.log →
    router.grants[token]? = some exchange
  fine : ∀ task ∈ tasks, router.Fine host task
  alone : ∀ exchange, tasks.countP (RouterTask.replays exchange) ≤ 1

end Invariant

variable {host : RouterHost} {router next : NetworkMockRouter} {tasks : List RouterTask}

variable {exchange : ℕ} {entry : RouterEntry}

theorem Staged.mono {stage : UnaryStage} (staged : router.Staged host exchange stage)
    (current : stage.isReplay → router.Current host exchange → next.Current host exchange)
    (replayed : ∀ count, stage.isReplay → router.Replayed exchange count →
      next.Replayed exchange count) : next.Staged host exchange stage := by
  cases stage with
  | request => exact current rfl staged
  | openBody => exact ⟨current rfl staged.1, replayed 0 rfl staged.2⟩
  | writeBody index => exact ⟨current rfl staged.1, replayed (index + 1) rfl staged.2⟩
  | finishBody => exact current rfl staged
  | cancel => exact trivial
  | close => exact trivial

/-- What is known of a task goes over to another state. -/
theorem Fine.mono {task : RouterTask} (fine : router.Fine host task)
    (shut : ∀ exchange, router.IsShut exchange → next.IsShut exchange)
    (granted : ∀ (token exchange : ℕ), router.grants[token]? = some exchange →
      next.grants[token]? = some exchange)
    (current : ∀ exchange, task.finishes exchange → router.Current host exchange →
      next.Current host exchange)
    (replayed : ∀ exchange count, task.replays exchange → router.Replayed exchange count →
      next.Replayed exchange count)
    (unused : ∀ exchange token, task.replays exchange → router.grants[token]? = some exchange →
      uploadedTo token router.log = [] → uploadedTo token next.log = []) :
    next.Fine host task := by
  cases task with
  | delayed exchange context action => exact current exchange (decide_eq_true rfl) fine
  | calling exchange context call stage =>
    apply Staged.mono fine
    · intro isReplay
      exact current exchange (by simp [RouterTask.finishes, RouterTask.replays, isReplay])
    · intro count isReplay
      exact replayed exchange count (by simp [RouterTask.replays, isReplay])
  | answered exchange context call stage reply tokens =>
    constructor
    · apply Staged.mono fine.1
      · intro isReplay
        exact current exchange (by simp [RouterTask.finishes, RouterTask.replays, isReplay])
      · intro count isReplay
        exact replayed exchange count (by simp [RouterTask.replays, isReplay])
    · intro token listed
      obtain ⟨isGranted, fresh⟩ := fine.2 token listed
      refine ⟨granted token exchange isGranted, fun isRequest => ?_⟩
      apply unused exchange token _ isGranted (fresh isRequest)
      rw [isRequest]
      simp [RouterTask.replays, UnaryStage.isReplay]
  | closing exchange rest => exact shut exchange fine
  | _ => exact trivial

theorem Current.note (current : router.Current host exchange)
    (noChunk : entry.chunkOf exchange = none) (noRequest : entry.requestOf exchange = none) :
    (router.note entry).Current host exchange := by
  obtain ⟨request, last, shows⟩ := current
  have sameChunks : acknowledgedFor exchange (router.note entry).log =
      acknowledgedFor exchange router.log := acknowledgedFor_snoc_none noChunk
  refine ⟨request, (lastMatched_snoc_none noRequest).trans last, ?_⟩
  rw [sameChunks]
  exact shows

theorem Replayed.note {count : ℕ} (replayed : router.Replayed exchange count)
    (noChunk : entry.chunkOf exchange = none)
    (noPart : ∀ token, router.downstreamOf exchange = some token → entry.partOf token = none) :
    (router.note entry).Replayed exchange count := by
  have sameChunks : acknowledgedFor exchange (router.note entry).log =
      acknowledgedFor exchange router.log := acknowledgedFor_snoc_none noChunk
  unfold Replayed
  rw [sameChunks]
  refine ⟨replayed.1, fun token has => ?_⟩
  exact (uploadedTo_snoc_none (noPart token has)).trans (replayed.2 token has)

namespace Kept

variable {task : RouterTask} {entry : RouterEntry} {exchange : ℕ} {content : Exchange}

theorem new {rules : NetworkMockRuleStore} : Kept host (new rules) [] where
  sent := .nil
  known := fun _ listed => by cases listed
  distinct := List.nodup_nil
  listed := fun _ listed => by cases listed
  bodies := fun _ _ found => by cases found
  owned := fun _ _ found => by cases found
  used := fun _ _ _ listed => by cases listed
  fine := fun _ listed => by cases listed
  alone := fun _ => Nat.zero_le 1

theorem perm {others : List RouterTask} (kept : Kept host router tasks)
    (same : tasks.Perm others) : Kept host router others :=
  { kept with
    fine := fun task listed => kept.fine task (same.mem_iff.mpr listed)
    alone := fun exchange => by
      rw [← same.countP_eq]
      exact kept.alone exchange }

theorem drop (kept : Kept host router (task :: tasks)) : Kept host router tasks :=
  { kept with
    fine := fun other listed => kept.fine other (List.mem_cons_of_mem _ listed)
    alone := fun exchange => by
      have few := kept.alone exchange
      rw [List.countP_cons] at few
      omega }

section

variable (kept : Kept host router tasks)

include kept

theorem suspend (fine : router.Fine host task)
    (alone : ∀ exchange, task.replays exchange → tasks.countP (RouterTask.replays exchange) = 0) :
    Kept host (router.suspend [task]) (tasks ++ [task]) :=
  { kept with
    fine := by
      exact forall_mem_concat kept.fine fine
    alone := by
      intro exchange
      rw [List.countP_append, List.countP_singleton]
      by_cases isReplay : task.replays exchange = true
      · rw [if_pos isReplay, alone exchange isReplay]
      · rw [if_neg isReplay]
        exact kept.alone exchange }

/-- The state may change where nothing is noted. -/
theorem unnoted (log : next.log = router.log) (length : router.heap.length ≤ next.heap.length)
    (shut : ∀ exchange, router.IsShut exchange → next.IsShut exchange)
    (granted : ∀ (token exchange : ℕ), router.grants[token]? = some exchange →
      next.grants[token]? = some exchange)
    (distinct : next.exchanges.Nodup)
    (listed : ∀ exchange ∈ next.exchanges, exchange < next.heap.length)
    (bodies : ∀ exchange content, next.heap[exchange]? = some content →
      content.body.map List.length = (acknowledgedFor exchange router.log).map List.length ∧
        content.bodyBytes = byteTotal (acknowledgedFor exchange router.log) ∧
        (exchange ∈ next.exchanges → content.body = acknowledgedFor exchange router.log))
    (downstream : ∀ exchange token, next.downstreamOf exchange = some token →
      router.downstreamOf exchange = some token) : Kept host next tasks where
  sent := by
    rw [log]
    exact kept.sent
  known := by
    rw [log]
    exact fun entry noted => Nat.lt_of_lt_of_le (kept.known entry noted) length
  distinct := distinct
  listed := listed
  bodies := by
    rw [log]
    exact bodies
  owned := fun exchange token found =>
    granted token exchange (kept.owned exchange token (downstream exchange token found))
  used := by
    rw [log]
    exact fun exchange token part noted =>
      granted token exchange (kept.used exchange token part noted)
  fine := by
    intro task isTask
    apply (kept.fine task isTask).mono shut granted
    · intro exchange _ current
      unfold Current
      rw [log]
      exact current
    · intro exchange count _ replayed
      unfold Replayed
      rw [log]
      exact ⟨replayed.1, fun token found => replayed.2 token (downstream exchange token found)⟩
    · intro exchange token _ _ unused
      rw [log]
      exact unused
  alone := kept.alone

theorem alike (same : Alike router next) : Kept host next tasks := by
  have bodies : ∀ exchange content, next.heap[exchange]? = some content →
      content.body.map List.length = (acknowledgedFor exchange router.log).map List.length ∧
        content.bodyBytes = byteTotal (acknowledgedFor exchange router.log) ∧
        (exchange ∈ next.exchanges → content.body = acknowledgedFor exchange router.log) := by
    intro exchange content found
    obtain ⟨old, foundOld, body, bytes, _⟩ := same.contents exchange content found
    rw [body, bytes, same.exchanges]
    exact kept.bodies exchange old foundOld
  have downstream : ∀ exchange token, next.downstreamOf exchange = some token →
      router.downstreamOf exchange = some token := by
    intro exchange token has
    obtain ⟨content, found, isToken⟩ := found_of_downstreamOf has
    obtain ⟨old, foundOld, _, _, sameDownstream, _⟩ := same.contents exchange content found
    rw [downstreamOf_found foundOld, ← sameDownstream, isToken]
  apply kept.unnoted same.log same.length.ge _ _ _ _ bodies downstream
  · intro exchange shut
    unfold IsShut
    rw [same.length, same.exchanges]
    exact shut
  · intro token exchange granted
    rw [same.grants]
    exact granted
  · rw [same.exchanges]
    exact kept.distinct
  · intro exchange isOpen
    rw [same.exchanges] at isOpen
    rw [same.length]
    exact kept.listed exchange isOpen

theorem note (allowed : Sent host router.log entry) (known : entry.exchange < router.heap.length)
    (noChunk : ∀ exchange, entry.chunkOf exchange = none)
    (granted : ∀ token, entry.partOf token ≠ none → router.grants[token]? = some entry.exchange)
    (fine : ∀ task ∈ tasks, (router.note entry).Fine host task) :
    Kept host (router.note entry) tasks :=
  { kept with
    sent := kept.sent.snoc allowed
    known := by
      exact forall_mem_concat kept.known known
    bodies := by
      intro exchange content found
      change content.body.map List.length =
          (acknowledgedFor exchange (router.log ++ [entry])).map List.length ∧
        content.bodyBytes = byteTotal (acknowledgedFor exchange (router.log ++ [entry])) ∧
        (exchange ∈ router.exchanges →
          content.body = acknowledgedFor exchange (router.log ++ [entry]))
      rw [acknowledgedFor_snoc_none (noChunk exchange)]
      exact kept.bodies exchange content found
    used := by
      intro exchange token part noted
      rcases List.mem_append.mp noted with before | isEntry
      · exact kept.used exchange token part before
      · have same := List.mem_singleton.mp isEntry
        have written : entry.partOf token ≠ none := by
          rw [← same]
          simp [RouterEntry.partOf]
        have owner := granted token written
        rw [← same] at owner
        exact owner
    fine := fine }

theorem noteQuiet (allowed : Sent host router.log entry)
    (known : entry.exchange < router.heap.length)
    (noChunk : ∀ exchange, entry.chunkOf exchange = none)
    (noPart : ∀ token, entry.partOf token = none)
    (noRequest : ∀ exchange, entry.requestOf exchange = none) :
    Kept host (router.note entry) tasks := by
  apply kept.note allowed known noChunk
  · intro token written
    exact absurd (noPart token) written
  · intro task listed
    apply Fine.mono (kept.fine task listed)
    · exact fun _ shut => shut
    · exact fun _ _ granted => granted
    · exact fun exchange _ current => current.note (noChunk exchange) (noRequest exchange)
    · exact fun exchange _ _ replayed =>
        replayed.note (noChunk exchange) fun token _ => noPart token
    · exact fun _ token _ _ unused => (uploadedTo_snoc_none (noPart token)).trans unused

section

variable (found : router.heap[exchange]? = some content)

include found

section

variable (isOpen : exchange ∈ router.exchanges)

include isOpen

theorem shows :
    Shows host (acknowledgedFor exchange router.log) (content.matchingRequest host) := by
  obtain ⟨_, bytes, body⟩ := kept.bodies exchange content found
  have sameBody := body isOpen
  constructor
  · exact congrArg some bytes
  · unfold Exchange.matchingRequest
    dsimp only
    rw [bytes, sameBody]
  · unfold Exchange.matchingRequest Exchange.digest digestOf
    dsimp only
    rw [bytes, sameBody]
    cases host.bodySha256Chunks with
    | some digest => rfl
    | none =>
      cases host.bodySha256 with
      | none => rfl
      | some digest =>
        have total : (acknowledgedFor exchange router.log).flatten.length =
            byteTotal (acknowledgedFor exchange router.log) := List.length_flatten
        by_cases small : byteTotal (acknowledgedFor exchange router.log) ≤
            maxContiguousMatchBodyBytes
        · dsimp only
          rw [if_pos small, if_pos total, if_pos small]
        · dsimp only
          have differ : ([] : Bytes).length ≠ byteTotal (acknowledgedFor exchange router.log) := by
            rw [List.length_nil]
            omega
          rw [if_neg small, if_neg differ, if_neg small]

/-- A request may be shown to the rules. -/
theorem noteMatched :
    Kept host (router.note (.matched exchange (content.matchingRequest host))) tasks ∧
      (router.note (.matched exchange (content.matchingRequest host))).Current host exchange := by
  have shows := kept.shows found isOpen
  have current : (router.note (.matched exchange (content.matchingRequest host))).Current host
      exchange := by
    refine ⟨content.matchingRequest host, ?_, ?_⟩
    · change lastMatched exchange (router.log ++ [_]) = _
      rw [lastMatched_snoc]
      simp [RouterEntry.requestOf]
    · have sameChunks : acknowledgedFor exchange (router.log ++
          [.matched exchange (content.matchingRequest host)]) =
            acknowledgedFor exchange router.log := acknowledgedFor_snoc_none rfl
      change Shows host (acknowledgedFor exchange (router.log ++ [_])) _
      rw [sameChunks]
      exact shows
  refine ⟨?_, current⟩
  apply kept.note
  · exact shows
  · exact kept.listed exchange isOpen
  · exact fun _ => rfl
  · exact fun token written => absurd rfl written
  · intro task listed
    apply Fine.mono (kept.fine task listed)
    · exact fun _ shut => shut
    · exact fun _ _ granted => granted
    · intro other _ before
      by_cases here : exchange = other
      · rw [← here]
        exact current
      · exact before.note rfl (if_neg here)
    · exact fun other _ _ replayed => replayed.note rfl fun _ _ => rfl
    · exact fun other token _ _ unused => (uploadedTo_snoc_none rfl).trans unused

theorem noteUploaded {index : ℕ} {part : Bytes}
    (isPart : content.body[index]? = some part) (current : router.Current host exchange)
    (replayed : router.Replayed exchange index) (alone : ∀ task ∈ tasks, ¬ task.replays exchange) :
    let resource := content.downstream.map DownstreamResource.providerToken
    Kept host (router.note (.uploaded exchange resource part)) tasks ∧
      (router.note (.uploaded exchange resource part)).Current host exchange ∧
      (router.note (.uploaded exchange resource part)).Replayed exchange (index + 1) := by
  intro resource
  have has : router.downstreamOf exchange = resource := downstreamOf_found found
  have isChunk : (acknowledgedFor exchange router.log)[index]? = some part := by
    rw [← (kept.bodies exchange content found).2.2 isOpen]
    exact isPart
  have more : (acknowledgedFor exchange router.log).take index ++ [part] =
      (acknowledgedFor exchange router.log).take (index + 1) := by
    rw [List.take_add_one, isChunk]
    rfl
  have sameChunks : ∀ other, acknowledgedFor other
      (router.note (.uploaded exchange resource part)).log = acknowledgedFor other router.log :=
    fun _ => acknowledgedFor_snoc_none rfl
  have elsewhere : ∀ other token, other ≠ exchange → router.grants[token]? = some other →
      (RouterEntry.uploaded exchange resource part).partOf token = none := by
    intro other token differ granted
    have notHere : resource ≠ some token := by
      intro here
      have owner := kept.owned exchange token (has.trans here)
      rw [granted] at owner
      exact differ (Option.some.inj owner)
    exact if_neg notHere
  refine ⟨?_, current.note rfl rfl, ?_, ?_⟩
  · apply kept.note
    · cases isResource : resource with
      | none => trivial
      | some token =>
        change uploadedTo token router.log ++ [part] <+: acknowledgedFor exchange router.log
        rw [replayed.2 token (has.trans isResource), more]
        exact List.take_prefix _ _
    · exact kept.listed exchange isOpen
    · exact fun _ => rfl
    · intro token written
      by_cases here : resource = some token
      · exact kept.owned exchange token (has.trans here)
      · exact absurd (if_neg here) written
    · intro task listed
      apply Fine.mono (kept.fine task listed)
      · exact fun _ shut => shut
      · exact fun _ _ granted => granted
      · exact fun _ _ before => before.note rfl rfl
      · intro other _ replays before
        apply before.note rfl
        intro token hasToken
        apply elsewhere other token _ (kept.owned other token hasToken)
        intro here
        rw [here] at replays
        exact alone task listed replays
      · intro other token replays granted unused
        apply (uploadedTo_snoc_none _).trans unused
        apply elsewhere other token _ granted
        intro here
        rw [here] at replays
        exact alone task listed replays
  · rw [sameChunks]
    exact (List.getElem?_eq_some_iff.mp isChunk).1
  · intro token hasToken
    have here : resource = some token := has.symm.trans hasToken
    rw [sameChunks, ← more, ← replayed.2 token hasToken]
    change uploadedTo token (router.log ++ [_]) = _
    rw [uploadedTo_snoc]
    congr 1
    exact congrArg Option.toList (if_pos here)

end

end

theorem pushChunk {data : Bytes}
    (isOpen : exchange ∈ router.exchanges) (calm : ∀ task ∈ tasks, ¬ task.finishes exchange) :
    Kept host (router.pushChunk exchange data) tasks := by
  have finishesOf : ∀ task : RouterTask, task.replays exchange → task.finishes exchange := by
    intro task replays
    cases task with
    | delayed other context action => exact absurd replays Bool.false_ne_true
    | _ => exact replays
  have downstream : ∀ other token, (router.pushChunk exchange data).downstreamOf other =
    some token →
      router.downstreamOf other = some token := by
    intro other token has
    change (router.update exchange _).downstreamOf other = some token at has
    apply downstreamOf_update _ has
    exact fun _ => Or.inl rfl
  have others : ∀ other, other ≠ exchange →
      acknowledgedFor other (router.pushChunk exchange data).log =
        acknowledgedFor other router.log := by
    intro other differ
    exact acknowledgedFor_snoc_none (if_neg differ.symm)
  have more : acknowledgedFor exchange (router.pushChunk exchange data).log =
      acknowledgedFor exchange router.log ++ [data] := by
    change acknowledgedFor exchange (router.log ++ [_]) = _
    rw [acknowledgedFor_snoc]
    congr 1
    exact congrArg Option.toList (if_pos rfl)
  have length : (router.pushChunk exchange data).heap.length = router.heap.length :=
    List.length_modify ..
  exact {
    sent := kept.sent.snoc trivial
    known := by
      rw [length]
      exact forall_mem_concat kept.known (kept.listed exchange isOpen)
    distinct := kept.distinct
    listed := by
      rw [length]
      exact kept.listed
    bodies := by
      intro other content found
      change (router.update exchange _).heap[other]? = some content at found
      obtain ⟨old, foundOld, ⟨here, changed⟩ | ⟨differ, same⟩⟩ := found_update found
      · obtain ⟨lengths, bytes, body⟩ := kept.bodies other old foundOld
        rw [changed, ← here, more]
        rw [← here] at lengths bytes body
        refine ⟨?_, ?_, fun _ => ?_⟩
        · dsimp only
          rw [List.map_append, List.map_append, lengths]
        · dsimp only
          unfold byteTotal at bytes ⊢
          rw [bytes, List.map_append, List.sum_append]
          rfl
        · dsimp only
          rw [body isOpen]
      · rw [same, others other differ.symm]
        exact kept.bodies other old foundOld
    owned := fun other token has => kept.owned other token (downstream other token has)
    used := by
      intro other token part noted
      rcases List.mem_append.mp noted with before | isEntry
      · exact kept.used other token part before
      · cases List.mem_singleton.mp isEntry
    fine := by
      intro task listed
      apply Fine.mono (kept.fine task listed)
      · intro other shut
        exact ⟨length.symm ▸ shut.1, shut.2⟩
      · exact fun _ _ granted => granted
      · intro other finishes before
        have differ : other ≠ exchange := by
          intro here
          rw [here] at finishes
          exact calm task listed finishes
        obtain ⟨request, last, shows⟩ := before
        refine ⟨request, (lastMatched_snoc_none rfl).trans last, ?_⟩
        rw [others other differ]
        exact shows
      · intro other count replays before
        have differ : other ≠ exchange := by
          intro here
          rw [here] at replays
          exact calm task listed (finishesOf task replays)
        unfold Replayed
        rw [others other differ]
        refine ⟨before.1, fun token has => ?_⟩
        exact (uploadedTo_snoc_none rfl).trans (before.2 token (downstream other token has))
      · exact fun _ _ _ _ unused => (uploadedTo_snoc_none rfl).trans unused
    alone := kept.alone }

end

end Kept

end NetworkMockRouter

end Holonomy.Network
