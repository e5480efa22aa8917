import Holonomy.Network.RouterGrants

/-!
# Runs that lose no resource

Every thrifty step keeps what is known of the resources of the passthrough, so that in every thrifty
run all of them are closed or revoked once in the end.
-/

namespace Holonomy.Network

open Foundation

theorem UnaryReply.resources_of_isValid {expectResource : Bool} {reply : UnaryReply}
    (valid : reply.isValid expectResource = true) (noError : reply.isError = false) :
    reply.resources = if expectResource then [true] else [] := by
  cases reply with
  | error => cases noError
  | unfit resources => cases valid
  | result resources =>
    cases expectResource with
    | true => exact of_decide_eq_true valid
    | false => exact of_decide_eq_true valid

namespace NetworkMockRouter

variable {host : RouterHost} {router next : NetworkMockRouter} {tasks : List RouterTask}
  {hand : List ℕ}

namespace Books

variable {exchange token : ℕ}

section

variable (books : Books router tasks hand)

include books

/-- The state may change in what concerns no bodies and no resources. -/
theorem alike (same : Alike router next) : Books next tasks hand := by
  have downstream : ∀ exchange, next.downstreamOf exchange = router.downstreamOf exchange := by
    intro exchange
    cases found : next.heap[exchange]? with
    | some content =>
      obtain ⟨old, foundOld, _, _, sameDownstream, _⟩ := same.contents exchange content found
      rw [downstreamOf_found found, downstreamOf_found foundOld, sameDownstream]
    | none =>
      have past : router.heap.length ≤ exchange := by
        rw [← same.length]
        exact List.getElem?_eq_none_iff.mp found
      unfold downstreamOf
      rw [found, List.getElem?_eq_none_iff.mpr past]
  have lent : next.lent = router.lent := by
    funext exchange
    unfold NetworkMockRouter.lent
    rw [downstream]
  constructor
  · rw [same.released, same.exchanges, same.grants, lent]
    exact books.owed
  · rw [same.grants]
    exact books.owners
  · intro exchange token has
    rw [downstream] at has
    rw [same.grants]
    exact books.lenders exchange token has
  · exact books.fits
  · rw [same.activeConnections, same.exchanges]
    exact books.connections
  · rw [same.exchanges]
    exact books.distinct
  · rw [same.exchanges, same.length]
    exact books.listed
  · intro exchange isOpen content found
    obtain ⟨old, foundOld, _, _, _, phase⟩ := same.contents exchange content found
    rw [same.exchanges] at isOpen
    exact fun isClosed => books.phases exchange isOpen old foundOld (phase isClosed)
  · rw [same.log, same.length, same.exchanges]
    exact books.closed
  · rw [same.log]
    exact books.silent
  · rw [same.log]
    exact books.matchedOnce
  · rw [same.log]
    exact books.opens
  · rw [same.log, lent]
    exact books.asking

theorem update {change : Exchange → Exchange}
    (keeps : ∀ content, (change content).downstream = content.downstream)
    (phase : exchange ∈ router.exchanges → ∀ content, (change content).phase = .closed →
      content.phase = .closed) : Books (router.update exchange change) tasks hand := by
  have downstream : (router.update exchange change).downstreamOf = router.downstreamOf := by
    funext other
    cases found : router.heap[other]? with
    | none =>
      have gone : (router.update exchange change).heap[other]? = none := by
        change (router.heap.modify exchange change)[other]? = none
        rw [List.getElem?_modify, found]
        rfl
      unfold downstreamOf
      rw [gone, found]
    | some content =>
      by_cases here : exchange = other
      · rw [← here] at found ⊢
        rw [downstreamOf_found found, downstreamOf_found (update_found found), keeps]
      · have same : (router.update exchange change).heap[other]? = some content := by
          change (router.heap.modify exchange change)[other]? = some content
          rw [List.getElem?_modify, found]
          exact congrArg some (if_neg here)
        rw [downstreamOf_found found, downstreamOf_found same]
  have lent : (router.update exchange change).lent = router.lent := by
    unfold NetworkMockRouter.lent
    rw [downstream]
  have length : (router.update exchange change).heap.length = router.heap.length :=
    List.length_modify ..
  exact { books with
    owed := by
      rw [lent]
      exact books.owed
    lenders := by
      rw [downstream]
      exact books.lenders
    listed := by
      rw [length]
      exact books.listed
    phases := by
      intro other isOpen content found isClosed
      obtain ⟨old, foundOld, ⟨here, changed⟩ | ⟨_, same⟩⟩ := found_update found
      · rw [changed] at isClosed
        rw [← here] at isOpen foundOld
        exact books.phases exchange isOpen old foundOld (phase isOpen old isClosed)
      · rw [same] at isClosed
        exact books.phases other isOpen old foundOld isClosed
    closed := by
      rw [length]
      exact books.closed
    asking := by
      rw [lent]
      exact books.asking }

theorem delist {ruleSnapshotId : ℕ} (isOpen : exchange ∈ router.exchanges) :
    Books (router.delist exchange ruleSnapshotId) tasks (router.lent exchange ++ hand) := by
  have unlisted : Books { router with
      exchanges := router.exchanges.erase exchange
      activeConnections := router.activeConnections - 1
      logicalRuleSnapshots :=
        releaseSnapshot router.logicalRuleSnapshots ruleSnapshotId exchange } tasks
        (router.lent exchange ++ hand) :=
    { books with
      owed := by
        apply books.owed.moved
        intro id
        have split : (router.exchanges.flatMap router.lent).count id =
            (router.lent exchange).count id +
              ((router.exchanges.erase exchange).flatMap router.lent).count id :=
          count_flatMap_erase isOpen id
        simp only [List.count_append]
        change _ + (_ + _ + _ + ((router.exchanges.erase exchange).flatMap
          router.lent).count id) = _
        omega
      connections := by
        rw [List.length_erase_of_mem isOpen, ← books.connections]
      distinct := books.distinct.erase exchange
      listed := fun other isOther => books.listed other (List.mem_of_mem_erase isOther)
      phases := fun other isOther => books.phases other (List.mem_of_mem_erase isOther)
      closed := by
        intro other noted
        obtain ⟨length, isClosed⟩ := books.closed other noted
        exact ⟨length, fun isOther => isClosed (List.mem_of_mem_erase isOther)⟩ }
  have gone : exchange ∉ router.exchanges.erase exchange := books.distinct.not_mem_erase
  have changed : Books ({ router with
      exchanges := router.exchanges.erase exchange
      activeConnections := router.activeConnections - 1
      logicalRuleSnapshots :=
        releaseSnapshot router.logicalRuleSnapshots ruleSnapshotId exchange }.update exchange
          fun content => { content with phase := .closed, reader := none }) tasks
        (router.lent exchange ++ hand) := by
    apply unlisted.update
    · exact fun _ => rfl
    · exact fun isListed => absurd isListed gone
  apply changed.note
  · exact trivial
  · exact fun _ isMatched => by cases isMatched
  · exact fun _ isOpened => by cases isOpened
  · intro other isClosed
    rw [← RouterEntry.closed.inj isClosed]
    refine ⟨?_, gone⟩
    change exchange < (router.heap.modify exchange _).length
    rw [List.length_modify]
    exact books.listed exchange isOpen

theorem redirect {downstream : Option DownstreamResource} {left : List ℕ}
    (isOpen : exchange ∈ router.exchanges)
    (granted : ∀ token, downstream.map DownstreamResource.providerToken = some token →
      router.grants[token]? = some exchange)
    (hands : ∀ id, left.count id +
      (downstream.map DownstreamResource.providerToken).toList.count id =
        hand.count id + (router.lent exchange).count id)
    (asked : tasks.countP (RouterTask.asks exchange) +
      (downstream.map DownstreamResource.providerToken).toList.length ≤
        timesOpened exchange router.log) :
    Books (router.update exchange fun content => { content with downstream }) tasks left := by
  obtain ⟨content, found⟩ : ∃ content, router.heap[exchange]? = some content :=
    ⟨_, List.getElem?_eq_getElem (books.listed exchange isOpen)⟩
  have here : (router.update exchange fun content =>
      { content with downstream }).downstreamOf exchange =
        downstream.map DownstreamResource.providerToken :=
    downstreamOf_found (update_found found)
  have elsewhere : ∀ other, other ≠ exchange → (router.update exchange fun content =>
      { content with downstream }).downstreamOf other = router.downstreamOf other :=
    fun other differ => downstreamOf_update_ne differ.symm
  have length : (router.update exchange fun content =>
      { content with downstream }).heap.length = router.heap.length := List.length_modify ..
  exact { books with
    owed := by
      apply books.owed.moved
      intro id
      have changed : (router.exchanges.flatMap (router.update exchange fun content =>
            { content with downstream }).lent).count id +
          (router.lent exchange).count id = (router.exchanges.flatMap router.lent).count id +
            ((router.update exchange fun content =>
              { content with downstream }).lent exchange).count id := by
        apply count_flatMap_change books.distinct isOpen
        intro other _ differ
        unfold NetworkMockRouter.lent
        rw [elsewhere other differ]
      have gets : (router.update exchange fun content =>
          { content with downstream }).lent exchange =
            (downstream.map DownstreamResource.providerToken).toList := by
        unfold NetworkMockRouter.lent
        rw [here]
      rw [gets] at changed
      have moved := hands id
      simp only [List.count_append]
      change router.released.count id + (_ + _ + (router.exchanges.flatMap _).count id) = _
      omega
    lenders := by
      intro other taken has
      by_cases same : other = exchange
      · rw [same, here] at has
        rw [same]
        exact granted taken has
      · rw [elsewhere other same] at has
        exact books.lenders other taken has
    listed := by
      rw [length]
      exact books.listed
    phases := by
      intro other isListed changed foundChanged
      obtain ⟨old, foundOld, ⟨_, isChanged⟩ | ⟨_, same⟩⟩ := found_update foundChanged
      · rw [isChanged]
        exact books.phases other isListed old foundOld
      · rw [same]
        exact books.phases other isListed old foundOld
    closed := by
      rw [length]
      exact books.closed
    asking := by
      intro other
      unfold NetworkMockRouter.lent
      by_cases same : other = exchange
      · rw [same, here]
        exact asked
      · rw [elsewhere other same]
        exact books.asking other }

end

theorem assign {call : ℕ} (books : Books router tasks (token :: hand))
    (isOpen : exchange ∈ router.exchanges) (granted : router.grants[token]? = some exchange)
    (room : tasks.countP (RouterTask.asks exchange) + (router.lent exchange).length <
      timesOpened exchange router.log) :
    Books (router.update exchange fun content =>
      { content with downstream := some ⟨call, token⟩ }) tasks hand := by
  have few : (router.lent exchange).length + 1 ≤ 1 := by
    have once := books.matchedOnce exchange
    have opened := books.opens exchange
    omega
  have nothing : router.lent exchange = [] := List.eq_nil_of_length_eq_zero (by omega)
  apply books.redirect isOpen
  · intro taken has
    rw [← Option.some.inj has]
    exact granted
  · intro id
    have more : (token :: hand).count id = [token].count id + hand.count id := by
      rw [← List.singleton_append, List.count_append]
    rw [nothing, more, List.count_nil]
    exact Nat.add_comm _ _
  · change _ + 1 ≤ timesOpened exchange router.log
    omega

theorem revoke (books : Books router tasks hand) (isOpen : exchange ∈ router.exchanges)
    (has : router.downstreamOf exchange = some token) :
    Books (router.update exchange fun content => { content with downstream := none }) tasks
      (token :: hand) := by
  have one : router.lent exchange = [token] := by
    unfold NetworkMockRouter.lent
    rw [has]
    rfl
  apply books.redirect isOpen
  · intro taken hasTaken
    cases hasTaken
  · intro id
    rw [one, ← List.singleton_append, List.count_append]
    exact Nat.add_comm ([token].count id) (hand.count id)
  · exact (Nat.le_add_right _ _).trans (books.asking exchange)

end Books

/-- What is known between the steps. -/
def Thrifty (router : NetworkMockRouter) : Prop := Books router router.tasks []

namespace Thrifty

variable {rest : Option (List ℕ)} {exchange index : ℕ} {context : RouterContext}
  {stage : UnaryStage} {content : Exchange} {action : JsonValue} {binary : Option (List Bytes)}
  {now : ℤ} {tokens : List ℕ} {reply : UnaryReply} {task : RouterTask} {succeeds : Bool}
  {args : RequestArgs}

section

variable (thrifty : Thrifty router)

include thrifty

theorem alike (same : Alike router next) : Thrifty next := by
  unfold Thrifty
  rw [same.tasks]
  exact Books.alike thrifty same

theorem suspendLater : Thrifty (router.suspend (disposeLater rest)) := by
  cases rest with
  | none =>
    have same : router.suspend (disposeLater none) = router := by
      unfold NetworkMockRouter.suspend disposeLater
      rw [List.append_nil]
    rw [same]
    exact thrifty
  | some rest =>
    apply Books.suspend
    · exact thrifty
    · exact fun _ holds => by cases holds
    · exact trivial
    · exact fun _ delays => by cases delays
    · exact fun _ asks => by cases asks

theorem downstreamUnary (room : stage = .request →
      router.tasks.countP (RouterTask.asks exchange) + (router.lent exchange).length <
        timesOpened exchange router.log) :
    Thrifty (router.downstreamUnary exchange context stage) := by
  have called : Books { router with
      calls := router.calls.set context.callToken router.nextCall
      nextCall := router.nextCall + 1 } router.tasks [] := { thrifty with }
  apply Books.suspend
  · exact called
  · exact fun _ holds => by cases holds
  · exact trivial
  · exact fun _ delays => by cases delays
  · intro other asks
    obtain ⟨isOther, isRequest⟩ := Bool.and_eq_true_iff.mp asks
    rw [← of_decide_eq_true isOther]
    exact room (of_decide_eq_true isRequest)

theorem closeExchange (found : router.heap[exchange]? = some content) :
    Thrifty (router.closeExchange exchange content rest) := by
  unfold NetworkMockRouter.closeExchange
  split
  · exact thrifty.suspendLater
  · rename_i listed
    have isOpen : exchange ∈ router.exchanges := not_not.mp listed
    have closed : Books (router.delist exchange content.ruleSnapshotId) router.tasks
        (router.lent exchange ++ []) := Books.delist thrifty isOpen
    have has := downstreamOf_found found
    split
    · rename_i downstream isDownstream
      have one : router.lent exchange = [downstream.providerToken] := by
        unfold NetworkMockRouter.lent
        rw [has, isDownstream]
        rfl
      rw [one] at closed
      have released : Books ((router.delist exchange content.ruleSnapshotId).release
          [downstream.providerToken]) router.tasks [] := closed.release
      apply Books.suspend
      · exact released
      · exact fun _ holds => by cases holds
      · exact trivial
      · exact fun _ delays => by cases delays
      · exact fun _ asks => by cases asks
    · rename_i isNone
      have nothing : router.lent exchange = [] := by
        unfold NetworkMockRouter.lent
        rw [has, isNone]
        rfl
      rw [nothing] at closed
      have filled :
          Thrifty ((router.delist exchange content.ruleSnapshotId).zeroFill exchange) := by
        apply closed.update
        · exact fun _ => rfl
        · exact fun _ _ isClosed => isClosed
      exact filled.suspendLater

theorem disposeNext {rest : List ℕ} : Thrifty (router.disposeNext rest) := by
  unfold NetworkMockRouter.disposeNext
  split
  · exact { thrifty with }
  · split
    · rename_i found
      exact thrifty.closeExchange found
    · exact thrifty.suspendLater

section

variable (room : timesOpened exchange router.log + router.tasks.countP (RouterTask.delays exchange)
    < timesMatched exchange router.log)

include room

theorem finishPassthrough :
    Thrifty (router.finishPassthrough exchange context) := by
  unfold NetworkMockRouter.finishPassthrough
  split
  · have noted : Thrifty (router.note (.opened exchange)) := by
      apply Books.note thrifty
      · exact trivial
      · exact fun _ isMatched => by cases isMatched
      · intro other isOpened
        rw [← of_decide_eq_true isOpened]
        exact room
      · exact fun _ isClosed => by cases isClosed
    apply noted.downstreamUnary
    intro _
    have before := Books.asking thrifty exchange
    have more : timesOpened exchange (router.log ++ [.opened exchange]) =
        timesOpened exchange router.log + 1 := by
      unfold timesOpened
      rw [List.countP_append, List.countP_singleton]
      exact congrArg _ (if_pos (decide_eq_true rfl))
    change _ + (router.lent exchange).length < timesOpened exchange (router.log ++ [_])
    rw [more]
    exact Nat.lt_succ_of_le before
  · exact thrifty

theorem act :
    Thrifty (router.act host exchange context action) := by
  unfold NetworkMockRouter.act
  split
  · exact thrifty
  · split
    · exact thrifty
    · split
      · split
        · exact thrifty
        · exact thrifty.alike Alike.respond
      · exact thrifty.finishPassthrough room

theorem actLater :
    Thrifty (router.actLater host exchange context action) := by
  unfold NetworkMockRouter.actLater
  split
  · split
    · apply Books.suspend
      · exact thrifty
      · exact fun _ holds => by cases holds
      · exact trivial
      · intro other delays
        rw [← of_decide_eq_true delays]
        exact room
      · exact fun _ asks => by cases asks
    · exact thrifty
  · exact thrifty.act room

end

theorem noteMatched (request : NetworkMockRequest) (first : timesMatched exchange router.log = 0) :
    Thrifty (router.note (.matched exchange request)) ∧
      timesOpened exchange (router.note (.matched exchange request)).log +
        router.tasks.countP (RouterTask.delays exchange) <
          timesMatched exchange (router.note (.matched exchange request)).log := by
  constructor
  · apply Books.note thrifty
    · exact trivial
    · intro other isMatched
      rw [← of_decide_eq_true isMatched]
      exact first
    · exact fun _ isOpened => by cases isOpened
    · exact fun _ isClosed => by cases isClosed
  · have before := Books.opens thrifty exchange
    have matched : timesMatched exchange (router.log ++ [.matched exchange request]) =
        timesMatched exchange router.log + 1 := by
      unfold timesMatched
      rw [List.countP_append, List.countP_singleton]
      exact congrArg _ (if_pos (decide_eq_true rfl))
    have opened : timesOpened exchange (router.log ++ [.matched exchange request]) =
        timesOpened exchange router.log := by
      unfold timesOpened
      rw [List.countP_append, List.countP_singleton]
      rfl
    change timesOpened exchange (router.log ++ [_]) + _ <
      timesMatched exchange (router.log ++ [_])
    rw [matched, opened]
    exact Nat.lt_succ_of_le before

theorem finishBody (first : content.phase = .uploading → binary.isSome = false →
      host.verifyRequest (content.matchingRequest host) content.capabilityBindingId = true →
      timesMatched exchange router.log = 0) :
    Thrifty (router.finishBody host exchange content binary context now) := by
  unfold NetworkMockRouter.finishBody
  split
  · exact thrifty
  · rename_i proper
    obtain ⟨uploading, noBinary⟩ := not_or.mp proper
    have verified : Thrifty (router.note (.verified exchange (content.matchingRequest host))) := by
      exact Books.noteAside thrifty trivial fun _ => ⟨rfl, rfl, RouterEntry.noConfusion⟩
    dsimp only
    split
    · rename_i passes
      have none : timesMatched exchange
          (router.note (.verified exchange (content.matchingRequest host))).log = 0 := by
        change timesMatched exchange (router.log ++ [_]) = 0
        unfold timesMatched
        rw [List.countP_append, List.countP_singleton]
        exact first (not_not.mp uploading) (Bool.not_eq_true _ ▸ noBinary) passes
      unfold matchRequest
      split
      · rename_i rules _
        have changed : Thrifty { router.note (.verified exchange
          (content.matchingRequest host)) with rules } := { verified with }
        exact (changed.noteMatched _ none).1
      · rename_i result rules _
        have changed : Thrifty { router.note (.verified exchange
          (content.matchingRequest host)) with rules } := { verified with }
        have matched := changed.noteMatched (content.matchingRequest host) none
        exact matched.1.actLater matched.2
    · exact verified

theorem uploadFrom (isOpen : content.body[index]? ≠ none → exchange ∈ router.exchanges) :
    Thrifty (router.uploadFrom index exchange content context) := by
  unfold NetworkMockRouter.uploadFrom
  dsimp only
  split
  · rename_i part isPart
    have noted : Thrifty (router.note (.uploaded exchange
        (content.downstream.map DownstreamResource.providerToken) part)) := by
      refine Books.noteAside thrifty ?_ fun _ => ⟨rfl, rfl, RouterEntry.noConfusion⟩
      intro isClosed
      have listed := isOpen (by rw [isPart]; exact Option.some_ne_none _)
      exact (Books.closed thrifty exchange isClosed).2 listed
    exact noted.downstreamUnary fun isRequest => by cases isRequest
  · have noted : Thrifty (router.note (.finished exchange
        (content.downstream.map DownstreamResource.providerToken))) := by
      exact Books.noteAside thrifty trivial fun _ => ⟨rfl, rfl, RouterEntry.noConfusion⟩
    exact noted.downstreamUnary fun isRequest => by cases isRequest

end

theorem refuseEach (books : Books router router.tasks tokens)
    (found : router.heap[exchange]? = some content)
    (granted : ∀ token ∈ tokens, router.grants[token]? = some exchange) :
    Thrifty (router.refuseEach exchange content stage tokens) := by
  unfold NetworkMockRouter.refuseEach
  split
  · unfold refuse
    split
    · exact closeExchange books found
    · exact books
  · rename_i token rest
    have released : Books (router.release [token]) router.tasks rest := by
      apply Books.release
      exact books
    apply Books.suspend
    · rw [List.append_nil]
      exact released
    · intro other listed
      exact ⟨exchange, decide_eq_true rfl, granted other (List.mem_cons_of_mem _ listed)⟩
    · exact trivial
    · exact fun _ delays => by cases delays
    · exact fun _ asks => by cases asks

/-- An operation may go on with a valid answer. -/
theorem proceed {call : ℕ}
    (books : Books router (.answered exchange context call stage reply tokens :: router.tasks) [])
    (found : router.heap[exchange]? = some content)
    (valid : reply.isValid (stage = .request) = true)
    (isOpen : reply.isError = false → stage = .request ∨
      (∃ index, stage.nextPart = some index ∧ content.body[index]? ≠ none) →
        exchange ∈ router.exchanges) :
    Thrifty (router.proceed exchange content context call stage reply tokens) := by
  have fit := books.fits _ List.mem_cons_self
  have taken := books.take
  have nothing : reply.isError = true ∨ stage ≠ .request → Thrifty router := by
    intro no
    have none : reply.resources = [] := by
      cases isError : reply.isError with
      | true =>
        cases reply with
        | error => rfl
        | result resources => cases isError
        | unfit resources => cases isError
      | false =>
        have notRequest : stage ≠ .request :=
          no.resolve_left fun yes => Bool.false_ne_true (isError.symm.trans yes)
        have resources := UnaryReply.resources_of_isValid valid isError
        rw [decide_eq_false notRequest] at resources
        exact resources
    have empty : tokens = [] := List.eq_nil_of_length_eq_zero (by rw [fit.1, none]; rfl)
    rw [empty] at taken
    exact taken
  unfold NetworkMockRouter.proceed
  cases stage with
  | request =>
    dsimp only
    split
    · exact taken
    · rename_i token rest
      have noError : reply.isError = false := by
        cases reply with
        | error => cases fit.1
        | result resources => rfl
        | unfit resources => rfl
      have resources := UnaryReply.resources_of_isValid valid noError
      have one : rest = [] := by
        have length := fit.1
        rw [resources] at length
        exact List.eq_nil_of_length_eq_zero (Nat.succ.inj length)
      rw [one] at taken
      have listed := isOpen noError (Or.inl rfl)
      obtain ⟨owner, concerns, granted⟩ :=
        books.owners _ List.mem_cons_self token List.mem_cons_self
      rw [← of_decide_eq_true concerns] at granted
      have room : router.tasks.countP (RouterTask.asks exchange) + (router.lent exchange).length <
          timesOpened exchange router.log := by
        have before := books.asking exchange
        have asks : RouterTask.asks exchange
            (.answered exchange context call .request reply (token :: rest)) = true := by
          simp [RouterTask.asks]
        rw [List.countP_cons, if_pos asks] at before
        omega
      have assigned : Thrifty (router.update exchange fun content =>
          { content with downstream := some ⟨call, token⟩ }) :=
        Books.assign taken listed granted room
      exact assigned.downstreamUnary fun isRequest => by cases isRequest
  | openBody =>
    have thrifty := nothing (Or.inr fun same => by cases same)
    dsimp only
    split
    · exact thrifty
    · rename_i isError
      apply thrifty.uploadFrom
      intro isPart
      exact isOpen (Bool.not_eq_true _ ▸ isError) (Or.inr ⟨0, rfl, isPart⟩)
  | writeBody index =>
    have thrifty := nothing (Or.inr fun same => by cases same)
    dsimp only
    split
    · exact thrifty
    · rename_i isError
      apply thrifty.uploadFrom
      intro isPart
      exact isOpen (Bool.not_eq_true _ ▸ isError) (Or.inr ⟨index + 1, rfl, isPart⟩)
  | finishBody =>
    apply (nothing (Or.inr fun same => by cases same)).alike
    apply Alike.update
    exact fun content => ⟨rfl, rfl, rfl, fun closed => by cases closed⟩
  | cancel => exact nothing (Or.inr fun same => by cases same)
  | close => exact (nothing (Or.inr fun same => by cases same)).closeExchange found

theorem inHand (thrifty : Thrifty router) (found : router.tasks[index]? = some task) :
    Books (router.without index) (task :: (router.without index).tasks) [] := by
  obtain ⟨inside, isTask⟩ := List.getElem?_eq_some_iff.mp found
  have same : router.tasks.Perm (task :: router.tasks.eraseIdx index) := by
    rw [← isTask]
    exact (List.getElem_cons_eraseIdx_perm inside).symm
  exact { Books.perm thrifty same with }

section

variable (books : Books router (task :: router.tasks) [])

include books

theorem resumeTask
    (orderly : router.isOpenResume task = true) (resumed : router.resumeTask task = some next) :
    Thrifty next := by
  cases task with
  | answered exchange context call stage reply tokens =>
    obtain ⟨content, found, goesOn⟩ := Option.map_eq_some_iff.mp resumed
    rw [← goesOn]
    unfold goOn
    split
    · rename_i valid
      apply proceed books found valid
      intro noError kind
      unfold isOpenResume at orderly
      dsimp only at orderly
      have writes : (decide (stage ≠ .request) && (stage.nextPart.bind fun index =>
          (router.heap[exchange]?.bind fun content => content.body[index]?)).isNone) = false := by
        rcases kind with isRequest | ⟨index, isPart, isThere⟩
        · rw [decide_eq_false (not_not.mpr isRequest), Bool.false_and]
        · rw [isPart, found, Option.bind_some, Option.bind_some]
          cases here : content.body[index]? with
          | none => exact absurd here isThere
          | some part => exact Bool.and_false _
      rw [noError, valid, writes, Bool.not_true, Bool.or_false, Bool.or_false, Bool.or_false]
        at orderly
      exact of_decide_eq_true orderly
    · rename_i invalid
      have taken := books.take
      have fit := books.fits _ List.mem_cons_self
      have all : reply.unexpected tokens = tokens := by
        cases reply with
        | error => exact absurd rfl invalid
        | result resources => rfl
        | unfit resources =>
          have none : resources = [] := of_decide_eq_true fit.2
          have empty : tokens = [] := List.eq_nil_of_length_eq_zero (by rw [fit.1, none]; rfl)
          rw [empty]
          rfl
      rw [all]
      apply refuseEach _ found
      · intro token holds
        obtain ⟨owner, concerns, granted⟩ := books.owners _ List.mem_cons_self token holds
        rw [← of_decide_eq_true concerns] at granted
        exact granted
      · rw [List.append_nil] at taken
        exact taken
  | disposing rest =>
    rw [← Option.some.inj resumed]
    exact disposeNext books.take
  | _ => cases resumed

/-- A task may go on that waited until a resource was closed. -/
theorem closedTask (orderly : isCleanClose succeeds task = true)
    (closed : router.closedTask succeeds task = some next) : Thrifty next := by
  cases task with
  | refusing exchange stage tokens =>
    have taken := books.take
    unfold NetworkMockRouter.closedTask at closed
    dsimp only at closed
    split at closed
    · obtain ⟨content, found, goesOn⟩ := Option.map_eq_some_iff.mp closed
      rw [← goesOn]
      apply refuseEach _ found
      · intro token holds
        obtain ⟨owner, concerns, granted⟩ := books.owners _ List.mem_cons_self token holds
        rw [← of_decide_eq_true concerns] at granted
        exact granted
      · rw [List.append_nil] at taken
        exact taken
    · rename_i fails
      have none : tokens = [] := by
        rcases Bool.or_eq_true_iff.mp orderly with succeeds | empty
        · exact absurd succeeds fails
        · exact of_decide_eq_true empty
      rw [← Option.some.inj closed]
      rw [none] at taken
      exact taken
  | closing exchange rest =>
    have thrifty : Thrifty router := books.take
    unfold NetworkMockRouter.closedTask at closed
    dsimp only at closed
    split at closed
    · rw [← Option.some.inj closed]
      have filled : Thrifty (router.zeroFill exchange) := by
        apply Books.update thrifty
        · exact fun _ => rfl
        · exact fun _ _ isClosed => isClosed
      exact filled.suspendLater
    · rw [← Option.some.inj closed]
      exact thrifty
  | _ => cases closed

theorem elapsedTask
    (elapsed : router.elapsedTask host succeeds task = some next) : Thrifty next := by
  cases task with
  | delayed exchange context action =>
    have thrifty : Thrifty router := books.take
    rw [← Option.some.inj elapsed]
    split
    · apply thrifty.act
      have before := books.opens exchange
      have delays : RouterTask.delays exchange (.delayed exchange context action) = true :=
        decide_eq_true rfl
      rw [List.countP_cons, if_pos delays] at before
      omega
    · exact thrifty
  | _ => cases elapsed

theorem answerTask
    (plain : isPlainReply reply = true) (answered : router.answerTask reply task = some next) :
    Thrifty next := by
  cases task with
  | calling exchange context call stage =>
    have called : Books { router with calls := router.calls.delete context.callToken }
        router.tasks [] := { books.take with }
    rw [← Option.some.inj answered]
    have granted : Books ({ router with
        calls := router.calls.delete context.callToken }.grant exchange reply.resources)
          router.tasks (router.nextTokens reply.resources ++ []) := Books.grant called
    apply Books.suspend
    · exact granted
    · intro token isNext
      exact ⟨exchange, decide_eq_true rfl, granted_nextTokens isNext⟩
    · exact ⟨List.length_range', plain⟩
    · exact fun _ delays => by cases delays
    · intro other asks
      have before := books.asking other
      have same : RouterTask.asks other (.calling exchange context call stage) = true := asks
      rw [List.countP_cons, if_pos same] at before
      change router.tasks.countP (RouterTask.asks other) + (router.lent other).length <
        timesOpened other router.log
      omega
  | _ => cases answered

end

section

variable (thrifty : Thrifty router)

include thrifty

theorem openExchange {ruleSnapshotId : ℕ} {ruleSnapshot : NetworkMockRuleSetSnapshot} :
    Thrifty (router.openExchange args context ruleSnapshotId ruleSnapshot) := by
  have length : (router.openExchange args context ruleSnapshotId ruleSnapshot).heap.length =
      router.heap.length + 1 := List.length_append
  have downstream : (router.openExchange args context ruleSnapshotId ruleSnapshot).downstreamOf =
      router.downstreamOf := by
    funext exchange
    unfold downstreamOf
    change ((router.heap ++ [_])[exchange]?.bind Exchange.downstream).map _ = _
    rcases Nat.lt_trichotomy exchange router.heap.length with before | isNew | after
    · rw [List.getElem?_append_left before]
    · rw [isNew, List.getElem?_concat_length, List.getElem?_eq_none_iff.mpr (le_refl _)]
      rfl
    · have outside : router.heap.length + 1 ≤ exchange := after
      rw [List.getElem?_eq_none_iff.mpr (by rw [List.length_append]; exact outside),
        List.getElem?_eq_none_iff.mpr after.le]
  have lent : (router.openExchange args context ruleSnapshotId ruleSnapshot).lent =
      router.lent := by
    unfold NetworkMockRouter.lent
    rw [downstream]
  have nothing : router.lent router.heap.length = [] := by
    unfold NetworkMockRouter.lent downstreamOf
    rw [List.getElem?_eq_none_iff.mpr (le_refl _)]
    rfl
  exact { thrifty with
    owed := by
      apply (Books.owed thrifty).moved
      intro id
      rw [lent]
      change router.released.count id + ([] ++ router.tasks.flatMap RouterTask.tokens ++
        (router.exchanges ++ [router.heap.length]).flatMap router.lent).count id = _
      rw [List.flatMap_append, List.flatMap_cons, nothing, List.flatMap_nil, List.append_nil,
        List.append_nil]
    lenders := by
      rw [downstream]
      exact Books.lenders thrifty
    connections := by
      change router.activeConnections + 1 = (router.exchanges ++ [_]).length
      rw [List.length_append, Books.connections thrifty]
      rfl
    distinct := by
      exact nodup_concat (Books.distinct thrifty)
        fun known => (Books.listed thrifty _ known).ne rfl
    listed := by
      intro exchange isOpen
      rw [length]
      rcases List.mem_append.mp isOpen with before | isNew
      · exact Nat.lt_add_right 1 (Books.listed thrifty exchange before)
      · rw [List.mem_singleton.mp isNew]
        exact Nat.lt_succ_self _
    phases := by
      intro exchange isOpen content found
      change (router.heap ++ [_])[exchange]? = some content at found
      rcases List.mem_append.mp isOpen with before | isNew
      · rw [List.getElem?_append_left (Books.listed thrifty exchange before)] at found
        exact Books.phases thrifty exchange before content found
      · rw [List.mem_singleton.mp isNew, List.getElem?_concat_length] at found
        rw [← Option.some.inj found]
        exact fun isClosed => by cases isClosed
    closed := by
      intro exchange noted
      obtain ⟨inside, isClosed⟩ := Books.closed thrifty exchange noted
      refine ⟨by rw [length]; exact Nat.lt_add_right 1 inside, fun isOpen => ?_⟩
      rcases List.mem_append.mp isOpen with before | isNew
      · exact isClosed before
      · exact absurd (List.mem_singleton.mp isNew) inside.ne
    asking := by
      rw [lent]
      exact Books.asking thrifty }

theorem openRequest : Thrifty (router.openRequest host args context) := by
  unfold NetworkMockRouter.openRequest
  split
  · exact thrifty
  · split
    · split
      · exact thrifty
      · have counted : Thrifty
          { router with nextRuleSnapshot := router.nextRuleSnapshot + 1 } := { thrifty with }
        exact counted.openExchange
    · split
      · exact thrifty
      · split
        · exact thrifty
        · exact thrifty.openExchange

theorem writeBody : Thrifty (router.writeBody host exchange content binary) := by
  unfold NetworkMockRouter.writeBody
  split
  · split
    · exact thrifty
    · split
      · apply Books.update thrifty
        · exact fun _ => rfl
        · exact fun _ _ isClosed => isClosed
      · rename_i data _ _
        have changed : Thrifty (router.update exchange fun content => { content with
              body := content.body ++ [data]
              bodyBytes := content.bodyBytes + data.length }) := by
          apply Books.update thrifty
          · exact fun _ => rfl
          · exact fun _ _ isClosed => isClosed
        exact Books.noteAside changed trivial fun _ => ⟨rfl, rfl, RouterEntry.noConfusion⟩
  · exact thrifty

/-- An operation may be called that does not match an exchange again. -/
theorem dispatch {request : HttpRequest}
    (orderly : (router.resolveExchange request.exchange context).all
      (router.isFirstFinish host request) = true) :
    Thrifty (router.dispatch host request context now) := by
  unfold NetworkMockRouter.dispatch
  split
  · exact thrifty
  · rename_i content resolved
    rw [resolved, Option.all_some] at orderly
    obtain ⟨isOpen, found⟩ := resolved_exchange resolved
    unfold isFirstFinish at orderly
    unfold operate
    cases operation : request.operation with
    | openBody =>
      dsimp only
      split
      · exact thrifty
      · apply thrifty.alike
        apply Alike.update
        exact fun content => ⟨rfl, rfl, rfl, fun closed => by cases closed⟩
    | writeBody => exact thrifty.writeBody
    | finishBody =>
      apply thrifty.finishBody
      intro uploading noBinary passes
      rw [operation, uploading, noBinary, passes] at orderly
      exact of_decide_eq_true orderly
    | readBody => exact thrifty.alike Alike.readBody
    | cancel =>
      dsimp only
      split
      · exact thrifty.downstreamUnary fun isRequest => by cases isRequest
      · apply thrifty.alike
        apply Alike.update
        exact fun content => ⟨rfl, rfl, rfl, id⟩
    | close =>
      dsimp only
      split
      · exact thrifty.downstreamUnary fun isRequest => by cases isRequest
      · exact thrifty.closeExchange found

theorem revoke {token : ℕ}
    (found : router.heap[exchange]? = some content) (isOpen : exchange ∈ router.exchanges)
    (has : router.downstreamOf exchange = some token) :
    Thrifty (router.revoke exchange token content) := by
  have resource : content.downstream.map DownstreamResource.providerToken = some token :=
    (downstreamOf_found found).symm.trans has
  have phase := Books.phases thrifty exchange isOpen content found
  have lost : Thrifty ((router.release [token]).update exchange fun content =>
      { content with downstream := none }) := by
    have gone : Books (router.update exchange fun content => { content with downstream := none })
        router.tasks ([token] ++ []) := Books.revoke thrifty isOpen has
    exact { gone.release with }
  unfold NetworkMockRouter.revoke
  dsimp only
  rw [if_neg (not_or.mpr ⟨not_not.mpr resource, phase⟩)]
  apply lost.closeExchange
  exact update_found found

/-- Every thrifty step keeps what is known. -/
theorem step {event : RouterEvent}
    (orderly : router.isThrifty host event = true) (stepped : router.step host event = some next) :
    Thrifty next := by
  cases event with
  | openRequest args context =>
    rw [← Option.some.inj stepped]
    exact thrifty.openRequest
  | releaseRules ruleSnapshotId context =>
    rw [← Option.some.inj stepped]
    exact thrifty.alike Alike.releaseRules
  | dispatch request context now =>
    rw [← Option.some.inj stepped]
    exact thrifty.dispatch orderly
  | cancel callToken =>
    rw [← Option.some.inj stepped]
    exact thrifty.alike Alike.cancel
  | grantCredits callToken credits =>
    rw [← Option.some.inj stepped]
    exact thrifty.alike Alike.grantCredits
  | closeResource ownerCallToken exchange =>
    rw [← Option.some.inj stepped]
    unfold NetworkMockRouter.closeResource
    split
    · exact thrifty
    · rename_i found
      split
      · exact thrifty
      · exact thrifty.closeExchange found
  | dispose =>
    rw [← Option.some.inj stepped]
    unfold NetworkMockRouter.dispose
    split
    · exact thrifty
    · have disposed : Thrifty { router with disposed := true } := { thrifty with }
      exact disposed.disposeNext
  | elapsed index succeeds =>
    obtain ⟨task, found, goesOn⟩ := Option.bind_eq_some_iff.mp stepped
    exact elapsedTask (thrifty.inHand found) goesOn
  | answer index reply =>
    obtain ⟨task, found, goesOn⟩ := Option.bind_eq_some_iff.mp stepped
    exact answerTask (thrifty.inHand found) orderly goesOn
  | resume index =>
    obtain ⟨task, found, goesOn⟩ := Option.bind_eq_some_iff.mp stepped
    have calm : router.isOpenResume task = true := by
      unfold isThrifty at orderly
      dsimp only at orderly
      rw [found] at orderly
      exact orderly
    exact resumeTask (thrifty.inHand found) calm goesOn
  | closed index succeeds =>
    obtain ⟨task, found, goesOn⟩ := Option.bind_eq_some_iff.mp stepped
    have calm : isCleanClose succeeds task = true := by
      unfold isThrifty at orderly
      dsimp only at orderly
      rw [found] at orderly
      exact orderly
    exact closedTask (thrifty.inHand found) calm goesOn
  | stray exchange resources =>
    have none : resources = [] := of_decide_eq_true orderly
    unfold NetworkMockRouter.step at stepped
    dsimp only at stepped
    split at stepped
    · rw [← Option.some.inj stepped, none]
      exact Books.grant thrifty
    · cases stepped
  | streamed exchange callToken resources =>
    unfold NetworkMockRouter.step at stepped
    dsimp only at stepped
    split at stepped
    · rw [← Option.some.inj stepped]
      have deleted : Thrifty { router with calls := router.calls.delete callToken } :=
        { thrifty with }
      apply Books.release
      exact Books.grant deleted
    · cases stepped
  | revoke exchange token =>
    unfold NetworkMockRouter.step at stepped
    dsimp only at stepped
    split at stepped
    · obtain ⟨content, found, revoked⟩ := Option.map_eq_some_iff.mp stepped
      obtain ⟨isOpen, has⟩ := Bool.and_eq_true_iff.mp orderly
      rw [← revoked]
      exact thrifty.revoke found (of_decide_eq_true isOpen) (of_decide_eq_true has)
    · cases stepped
  | _ =>
    rw [← Option.some.inj stepped]
    exact { thrifty with }

theorem leaksNothing : router.LeaksNothing where
  matchedOnce := Books.matchedOnce thrifty
  openedOnce := by
    intro exchange
    have matched := Books.matchedOnce thrifty exchange
    have opened := Books.opens thrifty exchange
    omega
  once := (Books.owed thrifty).once
  granted := by
    intro token isReleased
    have arisen := (Books.owed thrifty).mem_iff.mp (List.mem_append_left _ isReleased)
    exact List.mem_range.mp arisen
  released := by
    intro exchange token granted isClosed finished
    have arisen := (List.getElem?_eq_some_iff.mp granted).1
    have listed := (Books.owed thrifty).mem_iff.mpr (List.mem_range.mpr arisen)
    rcases List.mem_append.mp listed with isReleased | isHeld
    · exact isReleased
    · rw [List.nil_append] at isHeld
      rcases List.mem_append.mp isHeld with isSuspended | isLent
      · obtain ⟨task, isTask, holds⟩ := List.mem_flatMap.mp isSuspended
        obtain ⟨owner, concerns, grantedOwner⟩ := Books.owners thrifty task isTask token holds
        rw [granted] at grantedOwner
        rw [← Option.some.inj grantedOwner, finished task isTask] at concerns
        cases concerns
      · obtain ⟨owner, isOpen, holds⟩ := List.mem_flatMap.mp isLent
        have grantedOwner := Books.lenders thrifty owner token (Option.mem_toList.mp holds)
        rw [granted] at grantedOwner
        rw [← Option.some.inj grantedOwner] at isOpen
        exact absurd isOpen isClosed
  silent := Books.silent thrifty
  connections := Books.connections thrifty
  distinct := Books.distinct thrifty

end

end Thrifty

/-- In every thrifty run an exchange is matched and opened once, its resources are closed or revoked
once in the end, and nothing is written for it when it was closed. -/
theorem thrifty_leaksNothing {rules : NetworkMockRuleStore} {events : List RouterEvent}
    (reached : (machine host rules).ReachesWhen
    (fun state event => state.isThrifty host event = true)
      events router) : router.LeaksNothing := by
  have thrifty : Thrifty router := by
    apply reached.invariant
    · exact Books.new
    · intro state event next before orderly stepped
      exact before.step orderly stepped
  exact thrifty.leaksNothing

def passesOn : List RouterEvent :=
  openedBody ++ [firstExchange .writeBody (some [[1, 2]]), firstExchange .finishBody none] ++
    answered [true] ++ answered [] ++ answered [] ++ answered [] ++
      [firstExchange .cancel none] ++ answered [true] ++ [.closed 0 true,
        firstExchange .close none] ++ answered [] ++ [.closed 0 true]

/-- Both resources are closed. -/
theorem thrifty_leaksNothing_passesOn : ∃ router,
    (machine plainRouterHost .new).ReachesWhen
      (fun state event => state.isThrifty plainRouterHost event = true) passesOn router ∧
        router.grants = [0, 0] ∧ router.released = [1, 0] ∧ router.LeaksNothing := by
  have run : (((machine plainRouterHost .new).guarded fun state event =>
      state.isThrifty plainRouterHost event = true).run passesOn).map
        (fun router => (router.grants, router.released)) = some ([0, 0], [1, 0]) := by
    decide +kernel
  obtain ⟨router, reached, fields⟩ := Machine.exists_of_guarded_run run
  obtain ⟨grants, released⟩ := Prod.mk.inj fields
  exact ⟨router, reached, grants, released, thrifty_leaksNothing reached⟩

def closesTooEarly : List RouterEvent :=
  openedBody ++ [firstExchange .finishBody none, firstExchange .close none] ++ answered [true] ++
    answered [] ++ answered []

/-- The resource that comes after that is closed by nobody. -/
theorem not_leaksNothing : ¬ ∀ (events : List RouterEvent) (router : NetworkMockRouter),
    (machine plainRouterHost .new).Reaches events router → router.LeaksNothing := by
  intro leaks
  have run : ((machine plainRouterHost .new).run closesTooEarly).map (fun router =>
      (router.grants, router.released, router.exchanges, router.tasks.length)) =
        some ([0], [], [], 0) := by
    decide +kernel
  obtain ⟨router, reached, fields⟩ := Machine.exists_of_run run
  obtain ⟨grants, fields⟩ := Prod.mk.inj fields
  obtain ⟨released, fields⟩ := Prod.mk.inj fields
  obtain ⟨exchanges, tasks⟩ := Prod.mk.inj fields
  have isReleased : 0 ∈ router.released := by
    apply (leaks closesTooEarly router reached).released 0 0
    · rw [grants]
      rfl
    · rw [exchanges]
      exact List.not_mem_nil
    · rw [List.eq_nil_of_length_eq_zero tasks]
      exact fun task isTask => by cases isTask
  rw [released] at isReleased
  cases isReleased

end NetworkMockRouter

end Holonomy.Network
