import Holonomy.Foundation.Obligations
import Holonomy.Network.Router

/-!
# The resources of the passthrough

Every resource that the passthrough grants is held by a suspended operation or by an open exchange
until it is closed or revoked, as long as a body is finished once, answers are what the passthrough
promised, a revoked resource is the one of an open exchange, and no replay goes on with an exchange
that was closed.
-/

namespace Holonomy.Network

open Foundation

/-- Whether a request of an exchange is shown to the rules. -/
def RouterEntry.isMatched (exchange : ℕ) : RouterEntry → Bool
  | .matched other _ => other = exchange
  | _ => false

/-- Whether the passthrough is asked for the request of an exchange. -/
def RouterEntry.isOpened (exchange : ℕ) : RouterEntry → Bool
  | .opened other => other = exchange
  | _ => false

def timesMatched (exchange : ℕ) (log : List RouterEntry) : ℕ :=
  log.countP (RouterEntry.isMatched exchange)

/-- How often the passthrough was asked for the request of an exchange. -/
def timesOpened (exchange : ℕ) (log : List RouterEntry) : ℕ :=
  log.countP (RouterEntry.isOpened exchange)

def Silent (before : List RouterEntry) : RouterEntry → Prop
  | .uploaded exchange _ _ => .closed exchange ∉ before
  | _ => True

/-- The resources that a suspended operation holds. -/
def RouterTask.tokens : RouterTask → List ℕ
  | .answered _ _ _ _ _ tokens => tokens
  | .refusing _ _ tokens => tokens
  | _ => []

def RouterTask.concerns (exchange : ℕ) : RouterTask → Bool
  | .delayed other _ _ => other = exchange
  | .calling other _ _ _ => other = exchange
  | .answered other _ _ _ _ _ => other = exchange
  | .refusing other _ _ => other = exchange
  | .closing other _ => other = exchange
  | .disposing _ => false

def RouterTask.delays (exchange : ℕ) : RouterTask → Bool
  | .delayed other _ _ => other = exchange
  | _ => false

def RouterTask.asks (exchange : ℕ) : RouterTask → Bool
  | .calling other _ _ stage => other = exchange && stage = .request
  | .answered other _ _ stage _ _ => other = exchange && stage = .request
  | _ => false

namespace NetworkMockRouter

variable (host : RouterHost) (router : NetworkMockRouter)

structure LeaksNothing : Prop where
  matchedOnce : ∀ exchange, timesMatched exchange router.log ≤ 1
  openedOnce : ∀ exchange, timesOpened exchange router.log ≤ 1
  once : router.released.Nodup
  /-- Nothing is closed or revoked that was not granted. -/
  granted : ∀ token ∈ router.released, token < router.grants.length
  /-- The resources of a closed exchange are closed or revoked in the end. -/
  released : ∀ (exchange token : ℕ), router.grants[token]? = some exchange →
    exchange ∉ router.exchanges → (∀ task ∈ router.tasks, task.concerns exchange = false) →
    token ∈ router.released
  silent : Fits Silent router.log
  connections : router.activeConnections = router.exchanges.length
  distinct : router.exchanges.Nodup

def isFirstFinish (request : HttpRequest) (content : Exchange) : Bool :=
  request.operation ≠ .finishBody || content.phase ≠ .uploading || request.binary.isSome ||
    ! host.verifyRequest (content.matchingRequest host) content.capabilityBindingId ||
    timesMatched request.exchange router.log = 0

/-- The answer has no resources that would not be looked at. -/
def isPlainReply : UnaryReply → Bool
  | .unfit resources => resources = []
  | _ => true

def isOpenResume : RouterTask → Bool
  | .answered exchange _ _ stage reply _ =>
    exchange ∈ router.exchanges || reply.isError || ! reply.isValid (stage = .request) ||
      (stage ≠ .request && (stage.nextPart.bind fun index =>
        (router.heap[exchange]?.bind fun content => content.body[index]?)).isNone)
  | _ => true

/-- The resource could be closed, or no others are left to be closed after it. -/
def isCleanClose (succeeds : Bool) : RouterTask → Bool
  | .refusing _ _ tokens => succeeds || tokens = []
  | _ => true

/-- The steps that lose no resource. -/
def isThrifty (event : RouterEvent) : Bool :=
  match event with
  | .dispatch request context _ =>
    (router.resolveExchange request.exchange context).all (router.isFirstFinish host request)
  | .answer _ reply => isPlainReply reply
  | .resume task => router.tasks[task]?.all router.isOpenResume
  | .closed task succeeds => router.tasks[task]?.all (isCleanClose succeeds)
  | .stray _ resources => resources = []
  | .revoke exchange token =>
    exchange ∈ router.exchanges && router.downstreamOf exchange = some token
  | _ => true

section Invariant

def lent (exchange : ℕ) : List ℕ := (router.downstreamOf exchange).toList

def IsFit : RouterTask → Prop
  | .answered _ _ _ _ reply tokens =>
    tokens.length = reply.resources.length ∧ isPlainReply reply = true
  | _ => True

structure Books (tasks : List RouterTask) (hand : List ℕ) : Prop where
  owed : Owed router.released
    (hand ++ tasks.flatMap RouterTask.tokens ++ router.exchanges.flatMap router.lent)
    router.grants.length
  owners : ∀ task ∈ tasks, ∀ token ∈ task.tokens, ∃ exchange, task.concerns exchange = true ∧
    router.grants[token]? = some exchange
  lenders : ∀ exchange token, router.downstreamOf exchange = some token →
    router.grants[token]? = some exchange
  fits : ∀ task ∈ tasks, IsFit task
  connections : router.activeConnections = router.exchanges.length
  distinct : router.exchanges.Nodup
  listed : ∀ exchange ∈ router.exchanges, exchange < router.heap.length
  phases : ∀ exchange ∈ router.exchanges, ∀ content, router.heap[exchange]? = some content →
    content.phase ≠ .closed
  closed : ∀ exchange, .closed exchange ∈ router.log →
    exchange < router.heap.length ∧ exchange ∉ router.exchanges
  silent : Fits Silent router.log
  matchedOnce : ∀ exchange, timesMatched exchange router.log ≤ 1
  opens : ∀ exchange, timesOpened exchange router.log + tasks.countP (RouterTask.delays exchange) ≤
    timesMatched exchange router.log
  asking : ∀ exchange, tasks.countP (RouterTask.asks exchange) + (router.lent exchange).length ≤
    timesOpened exchange router.log

end Invariant

variable {router : NetworkMockRouter} {tasks : List RouterTask} {hand : List ℕ}

namespace Books

theorem new {rules : NetworkMockRuleStore} : Books (new rules) [] [] where
  owed := .none
  owners := fun _ listed => by cases listed
  lenders := fun _ _ found => by cases found
  fits := fun _ listed => by cases listed
  connections := rfl
  distinct := List.nodup_nil
  listed := fun _ listed => by cases listed
  phases := fun _ listed => by cases listed
  closed := fun _ listed => by cases listed
  silent := .nil
  matchedOnce := fun _ => Nat.zero_le 1
  opens := fun _ => le_refl 0
  asking := fun _ => le_refl 0

theorem perm {others : List RouterTask} (books : Books router tasks hand)
    (same : tasks.Perm others) : Books router others hand :=
  { books with
    owed := by
      apply books.owed.moved
      intro id
      have tokens := (same.flatMap_right RouterTask.tokens).count_eq id
      rw [List.count_append, List.count_append, List.count_append, List.count_append, tokens]
    owners := fun task listed => books.owners task (same.mem_iff.mpr listed)
    fits := fun task listed => books.fits task (same.mem_iff.mpr listed)
    opens := fun exchange => by
      rw [← same.countP_eq]
      exact books.opens exchange
    asking := fun exchange => by
      rw [← same.countP_eq]
      exact books.asking exchange }

theorem take {task : RouterTask} (books : Books router (task :: tasks) hand) :
    Books router tasks (task.tokens ++ hand) :=
  { books with
    owed := by
      apply books.owed.moved
      intro id
      simp only [List.flatMap_cons, List.count_append]
      omega
    owners := fun other listed => books.owners other (List.mem_cons_of_mem _ listed)
    fits := fun other listed => books.fits other (List.mem_cons_of_mem _ listed)
    opens := fun exchange => by
      have few := books.opens exchange
      rw [List.countP_cons] at few
      omega
    asking := fun exchange => by
      have few := books.asking exchange
      rw [List.countP_cons] at few
      omega }

theorem suspend {task : RouterTask} (books : Books router tasks (task.tokens ++ hand))
    (owners : ∀ token ∈ task.tokens, ∃ exchange, task.concerns exchange = true ∧
      router.grants[token]? = some exchange) (fit : IsFit task)
    (delays : ∀ exchange, task.delays exchange = true →
      timesOpened exchange router.log + tasks.countP (RouterTask.delays exchange) <
        timesMatched exchange router.log)
    (asks : ∀ exchange, task.asks exchange = true →
      tasks.countP (RouterTask.asks exchange) + (router.lent exchange).length <
        timesOpened exchange router.log) :
    Books (router.suspend [task]) (tasks ++ [task]) hand :=
  { books with
    owed := by
      apply books.owed.moved
      intro id
      simp only [List.flatMap_append, List.flatMap_cons, List.flatMap_nil, List.count_append,
        List.count_nil]
      change router.released.count id +
        (_ + (router.exchanges.flatMap router.lent).count id) = _
      omega
    owners := by
      exact forall_mem_concat books.owners owners
    fits := by
      exact forall_mem_concat books.fits fit
    opens := by
      intro exchange
      rw [List.countP_append, List.countP_singleton]
      by_cases isDelay : task.delays exchange = true
      · rw [if_pos isDelay]
        exact delays exchange isDelay
      · rw [if_neg isDelay]
        exact books.opens exchange
    asking := by
      intro exchange
      rw [List.countP_append, List.countP_singleton]
      by_cases isAsk : task.asks exchange = true
      · have room := asks exchange isAsk
        rw [if_pos isAsk]
        change _ + (router.lent exchange).length ≤ timesOpened exchange router.log
        omega
      · rw [if_neg isAsk]
        exact books.asking exchange }

theorem release {tokens : List ℕ} (books : Books router tasks (tokens ++ hand)) :
    Books (router.release tokens) tasks hand :=
  { books with
    owed := by
      apply books.owed.moved
      intro id
      change (router.released ++ tokens).count id +
        (hand ++ _ ++ router.exchanges.flatMap router.lent).count id = _
      simp only [List.count_append]
      omega }

section

variable (books : Books router tasks hand)

include books

theorem grant {exchange : ℕ} {resources : List Bool} :
    Books (router.grant exchange resources) tasks (router.nextTokens resources ++ hand) := by
  have further : ∀ token other : ℕ, router.grants[token]? = some other →
      (router.grant exchange resources).grants[token]? = some other := by
    intro token other granted
    exact (List.getElem?_append_left (List.getElem?_eq_some_iff.mp granted).1).trans granted
  exact { books with
    owed := by
      have length : (router.grant exchange resources).grants.length =
          router.grants.length + resources.length := by
        change (router.grants ++ _).length = _
        rw [List.length_append, List.length_replicate]
      rw [length]
      apply books.owed.ariseMany
      intro id
      change _ + (router.nextTokens resources ++ hand ++ _ ++
        router.exchanges.flatMap router.lent).count id = _
      unfold nextTokens
      change router.released.count id + _ = _
      simp only [List.count_append]
      omega
    owners := by
      intro task listed token holds
      obtain ⟨owner, concerns, granted⟩ := books.owners task listed token holds
      exact ⟨owner, concerns, further token owner granted⟩
    lenders := fun other token has => further token other (books.lenders other token has) }

theorem note {entry : RouterEntry}
    (silent : Silent router.log entry)
    (isMatched : ∀ exchange, entry.isMatched exchange = true → timesMatched exchange router.log = 0)
    (isOpened : ∀ exchange, entry.isOpened exchange = true →
      timesOpened exchange router.log + tasks.countP (RouterTask.delays exchange) <
        timesMatched exchange router.log)
    (isClosed : ∀ exchange, entry = .closed exchange →
      exchange < router.heap.length ∧ exchange ∉ router.exchanges) :
    Books (router.note entry) tasks hand := by
  have matchedMore : ∀ exchange, timesMatched exchange (router.log ++ [entry]) =
      timesMatched exchange router.log + if entry.isMatched exchange then 1 else 0 := by
    intro exchange
    unfold timesMatched
    rw [List.countP_append, List.countP_singleton]
  have openedMore : ∀ exchange, timesOpened exchange (router.log ++ [entry]) =
      timesOpened exchange router.log + if entry.isOpened exchange then 1 else 0 := by
    intro exchange
    unfold timesOpened
    rw [List.countP_append, List.countP_singleton]
  exact { books with
    closed := by
      intro exchange noted
      rcases List.mem_append.mp noted with before | isEntry
      · exact books.closed exchange before
      · exact isClosed exchange (List.mem_singleton.mp isEntry).symm
    silent := books.silent.snoc silent
    matchedOnce := by
      intro exchange
      change timesMatched exchange (router.log ++ [entry]) ≤ 1
      rw [matchedMore]
      by_cases matched : entry.isMatched exchange = true
      · rw [if_pos matched, isMatched exchange matched]
      · rw [if_neg matched]
        exact books.matchedOnce exchange
    opens := by
      intro exchange
      change timesOpened exchange (router.log ++ [entry]) + _ ≤
        timesMatched exchange (router.log ++ [entry])
      rw [openedMore, matchedMore]
      have before := books.opens exchange
      by_cases opened : entry.isOpened exchange = true
      · have room := isOpened exchange opened
        rw [if_pos opened]
        omega
      · rw [if_neg opened]
        omega
    asking := by
      intro exchange
      change _ + (router.lent exchange).length ≤ timesOpened exchange (router.log ++ [entry])
      rw [openedMore]
      have before := books.asking exchange
      omega }

/-- An entry may be noted that neither matches nor opens nor closes an exchange. -/
theorem noteAside {entry : RouterEntry}
    (silent : Silent router.log entry)
    (aside : ∀ exchange, entry.isMatched exchange = false ∧ entry.isOpened exchange = false ∧
      entry ≠ .closed exchange) : Books (router.note entry) tasks hand := by
  apply books.note silent
  · intro exchange isMatched
    exact absurd ((aside exchange).1.symm.trans isMatched) Bool.false_ne_true
  · intro exchange isOpened
    exact absurd ((aside exchange).2.1.symm.trans isOpened) Bool.false_ne_true
  · exact fun exchange isClosed => absurd isClosed (aside exchange).2.2

end

end Books

end NetworkMockRouter

end Holonomy.Network
