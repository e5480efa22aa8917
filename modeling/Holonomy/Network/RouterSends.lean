import Holonomy.Network.RouterBodies

/-!
# Runs that send what is checked

Every orderly step keeps what is known of the bodies of exchanges, so that in every orderly run
what is verified, matched and written to the passthrough is what was acknowledged.
-/

namespace Holonomy.Network

open Foundation

namespace NetworkMockRouter

variable {host : RouterHost} {router next : NetworkMockRouter} {tasks : List RouterTask}

namespace Kept

variable {exchange : ℕ}

section

variable (kept : Kept host router tasks)

include kept

theorem update {change : Exchange → Exchange}
    (keeps : ∀ content, (change content).body.map List.length = content.body.map List.length ∧
      (change content).bodyBytes = content.bodyBytes ∧
      (exchange ∈ router.exchanges → (change content).body = content.body) ∧
      ((change content).downstream = content.downstream ∨ (change content).downstream = none)) :
    Kept host (router.update exchange change) tasks := by
  have length : (router.update exchange change).heap.length = router.heap.length :=
    List.length_modify ..
  apply kept.unnoted
  · rfl
  · exact length.ge
  · exact fun other shut => ⟨length.symm ▸ shut.1, shut.2⟩
  · exact fun _ _ granted => granted
  · exact kept.distinct
  · intro other isOpen
    rw [length]
    exact kept.listed other isOpen
  · intro other content found
    obtain ⟨old, foundOld, ⟨here, changed⟩ | ⟨_, same⟩⟩ := found_update found
    · obtain ⟨lengths, bytes, body⟩ := kept.bodies other old foundOld
      obtain ⟨sameLengths, sameBytes, sameBody, _⟩ := keeps old
      rw [changed, sameLengths, sameBytes]
      refine ⟨lengths, bytes, fun isOpen => ?_⟩
      have isHere : exchange ∈ router.exchanges := by
        rw [here]
        exact isOpen
      exact (sameBody isHere).trans (body isOpen)
    · rw [same]
      exact kept.bodies other old foundOld
  · intro other token has
    exact downstreamOf_update (fun content => (keeps content).2.2.2) has

theorem grant {resources : List Bool} :
    Kept host (router.grant exchange resources) tasks := by
  apply kept.unnoted
  · rfl
  · exact le_refl _
  · exact fun _ shut => shut
  · intro token other granted
    exact List.getElem?_append_left (List.getElem?_eq_some_iff.mp granted).1 |>.trans granted
  · exact kept.distinct
  · exact kept.listed
  · exact kept.bodies
  · exact fun _ _ has => has

theorem assign {call token : ℕ}
    (granted : router.grants[token]? = some exchange)
    (alone : ∀ task ∈ tasks, ¬ task.replays exchange) :
    Kept host (router.update exchange fun content =>
      { content with downstream := some ⟨call, token⟩ }) tasks := by
  have elsewhere : ∀ other taken, other ≠ exchange →
      (router.update exchange fun content =>
        { content with downstream := some ⟨call, token⟩ }).downstreamOf other = some taken →
      router.downstreamOf other = some taken := by
    intro other taken differ has
    obtain ⟨content, found, isToken⟩ := found_of_downstreamOf has
    obtain ⟨old, foundOld, ⟨here, _⟩ | ⟨_, same⟩⟩ := found_update found
    · exact absurd here.symm differ
    · rw [same] at isToken
      rw [downstreamOf_found foundOld, isToken]
  have length : (router.update exchange fun content =>
      { content with downstream := some ⟨call, token⟩ }).heap.length = router.heap.length :=
    List.length_modify ..
  exact { kept with
    known := by
      rw [length]
      exact kept.known
    listed := by
      rw [length]
      exact kept.listed
    bodies := by
      intro other content found
      obtain ⟨old, foundOld, ⟨_, changed⟩ | ⟨_, same⟩⟩ := found_update found
      · rw [changed]
        exact kept.bodies other old foundOld
      · rw [same]
        exact kept.bodies other old foundOld
    owned := by
      intro other taken has
      by_cases here : other = exchange
      · obtain ⟨content, found, isToken⟩ := found_of_downstreamOf has
        obtain ⟨old, foundOld, ⟨_, changed⟩ | ⟨differ, _⟩⟩ := found_update found
        · rw [changed] at isToken
          rw [← Option.some.inj isToken, here]
          exact granted
        · exact absurd here.symm differ
      · exact kept.owned other taken (elsewhere other taken here has)
    fine := by
      intro task listed
      apply Fine.mono (kept.fine task listed)
      · exact fun other shut => ⟨length.symm ▸ shut.1, shut.2⟩
      · exact fun _ _ isGranted => isGranted
      · exact fun _ _ current => current
      · intro other count replays replayed
        refine ⟨replayed.1, fun taken has => ?_⟩
        apply replayed.2 taken
        apply elsewhere other taken _ has
        intro here
        rw [here] at replays
        exact alone task listed replays
      · exact fun _ _ _ _ unused => unused }

end

end Kept

/-- What is known between the steps. -/
def Steady (host : RouterHost) (router : NetworkMockRouter) : Prop :=
  router.Kept host router.tasks

namespace Steady

variable {task : RouterTask} {exchange ruleSnapshotId index : ℕ} {rest : Option (List ℕ)}
  {context : RouterContext} {stage : UnaryStage} {content : Exchange} {action : JsonValue}
  {binary : Option (List Bytes)} {now : ℤ} {reply : UnaryReply} {tokens : List ℕ}
  {args : RequestArgs} {succeeds : Bool}

theorem alike (steady : Steady host router) (same : Alike router next) : Steady host next := by
  unfold Steady
  rw [same.tasks]
  exact Kept.alike steady same

theorem alone_of_hand (kept : Kept host router (task :: router.tasks))
    (replays : task.replays exchange) : ∀ other ∈ router.tasks, ¬ other.replays exchange := by
  have few := kept.alone exchange
  rw [List.countP_cons, if_pos replays] at few
  have none : router.tasks.countP (RouterTask.replays exchange) = 0 := by omega
  exact List.countP_eq_zero.mp none

section

variable (steady : Steady host router)

include steady

theorem suspendLater : Steady host (router.suspend (disposeLater rest)) := by
  cases rest with
  | none =>
    have same : router.suspend (disposeLater none) = router := by
      unfold NetworkMockRouter.suspend disposeLater
      rw [List.append_nil]
    rw [same]
    exact steady
  | some rest => exact Kept.suspend steady trivial fun _ replays => by cases replays

theorem downstreamUnary (staged : router.Staged host exchange stage)
    (alone : stage.isReplay → ∀ task ∈ router.tasks, ¬ task.replays exchange) :
    Steady host (router.downstreamUnary exchange context stage) := by
  have kept : Kept host { router with
      calls := router.calls.set context.callToken router.nextCall
      nextCall := router.nextCall + 1 } router.tasks := { steady with }
  apply kept.suspend
  · exact staged
  · intro other replays
    unfold RouterTask.replays at replays
    obtain ⟨isOther, isReplay⟩ := Bool.and_eq_true_iff.mp replays
    rw [← of_decide_eq_true isOther]
    exact List.countP_eq_zero.mpr (alone isReplay)

theorem delist (isOpen : exchange ∈ router.exchanges) :
    Steady host (router.delist exchange ruleSnapshotId) := by
  have changed : Kept host (router.update exchange fun content =>
      { content with phase := .closed, reader := none }) router.tasks := by
    apply Kept.update steady
    exact fun content => ⟨rfl, rfl, fun _ => rfl, Or.inl rfl⟩
  have length : exchange < (router.update exchange fun content =>
      { content with phase := .closed, reader := none }).heap.length :=
    changed.listed exchange isOpen
  have noted : Kept host ((router.update exchange fun content =>
      { content with phase := .closed, reader := none }).note (.closed exchange)) router.tasks := by
    apply changed.noteQuiet
    · exact trivial
    · exact length
    · exact fun _ => rfl
    · exact fun _ => rfl
    · exact fun _ => rfl
  exact { noted with
    distinct := noted.distinct.erase exchange
    listed := fun other isOther => noted.listed other (List.mem_of_mem_erase isOther)
    bodies := by
      intro other content found
      obtain ⟨lengths, bytes, body⟩ := noted.bodies other content found
      exact ⟨lengths, bytes, fun isOther => body (List.mem_of_mem_erase isOther)⟩
    fine := by
      intro task listed
      apply Fine.mono (noted.fine task listed)
      · exact fun other shut => ⟨shut.1, fun isOther => shut.2 (List.mem_of_mem_erase isOther)⟩
      · exact fun _ _ granted => granted
      · exact fun _ _ current => current
      · exact fun _ _ _ replayed => replayed
      · exact fun _ _ _ _ unused => unused }

theorem isShut_delist (isOpen : exchange ∈ router.exchanges) :
    (router.delist exchange ruleSnapshotId).IsShut exchange := by
  have length : (router.delist exchange ruleSnapshotId).heap.length = router.heap.length :=
    List.length_modify ..
  constructor
  · rw [length]
    exact Kept.listed steady exchange isOpen
  · exact (Kept.distinct steady).not_mem_erase

theorem zeroFill (shut : router.IsShut exchange) : Steady host (router.zeroFill exchange) := by
  apply Kept.update steady
  intro content
  refine ⟨?_, rfl, fun isOpen => absurd isOpen shut.2, Or.inl rfl⟩
  rw [List.map_map]
  apply List.map_congr_left
  intro part _
  exact List.length_replicate

theorem closeExchange : Steady host (router.closeExchange exchange content rest) := by
  unfold NetworkMockRouter.closeExchange
  split
  · exact steady.suspendLater
  · rename_i listed
    have isOpen : exchange ∈ router.exchanges := not_not.mp listed
    have closed : Steady host (router.delist exchange content.ruleSnapshotId) :=
      steady.delist isOpen
    have shut : (router.delist exchange content.ruleSnapshotId).IsShut exchange :=
      steady.isShut_delist isOpen
    split
    · rename_i downstream _
      have released : Steady host ((router.delist exchange content.ruleSnapshotId).release
        [downstream.providerToken]) := { closed with }
      exact Kept.suspend released shut fun _ replays => by cases replays
    · exact (closed.zeroFill shut).suspendLater

theorem disposeNext {rest : List ℕ} : Steady host (router.disposeNext rest) := by
  unfold NetworkMockRouter.disposeNext
  split
  · exact { steady with }
  · split
    · exact steady.closeExchange
    · exact steady.suspendLater

theorem finishPassthrough (isOpen : exchange ∈ router.exchanges)
    (current : router.Current host exchange)
    (alone : ∀ task ∈ router.tasks, ¬ task.replays exchange) :
    Steady host (router.finishPassthrough exchange context) := by
  unfold NetworkMockRouter.finishPassthrough
  split
  · have noted : Steady host (router.note (.opened exchange)) := by
      apply Kept.noteQuiet steady
      · exact trivial
      · exact Kept.listed steady exchange isOpen
      · exact fun _ => rfl
      · exact fun _ => rfl
      · exact fun _ => rfl
    apply noted.downstreamUnary
    · exact current.note rfl rfl
    · exact fun _ => alone
  · exact steady

theorem act (current : router.Current host exchange)
    (alone : ∀ task ∈ router.tasks, ¬ task.replays exchange) :
    Steady host (router.act host exchange context action) := by
  unfold NetworkMockRouter.act
  split
  · exact steady
  · rename_i listed
    split
    · exact steady
    · split
      · split
        · exact steady
        · exact steady.alike Alike.respond
      · exact steady.finishPassthrough (not_not.mp listed) current alone

theorem actLater (current : router.Current host exchange)
    (alone : ∀ task ∈ router.tasks, ¬ task.replays exchange) :
    Steady host (router.actLater host exchange context action) := by
  unfold NetworkMockRouter.actLater
  split
  · split
    · exact Kept.suspend steady current fun _ replays => by cases replays
    · exact steady
  · exact steady.act current alone

theorem finishBody (found : router.heap[exchange]? = some content)
    (isOpen : exchange ∈ router.exchanges)
    (alone : content.phase = .uploading → ∀ task ∈ router.tasks, ¬ task.replays exchange) :
    Steady host (router.finishBody host exchange content binary context now) := by
  unfold NetworkMockRouter.finishBody
  split
  · exact steady
  · rename_i proper
    obtain ⟨uploading, _⟩ := not_or.mp proper
    have calm := alone (not_not.mp uploading)
    have verified : Steady host
        (router.note (.verified exchange (content.matchingRequest host))) := by
      apply Kept.noteQuiet steady
      · exact Kept.shows steady found isOpen
      · exact Kept.listed steady exchange isOpen
      · exact fun _ => rfl
      · exact fun _ => rfl
      · exact fun _ => rfl
    dsimp only
    split
    · unfold matchRequest
      split
      · rename_i rules _
        have changed : Steady host { router.note (.verified exchange
          (content.matchingRequest host)) with rules } := { verified with }
        exact (Kept.noteMatched changed found isOpen).1
      · rename_i result rules _
        have changed : Steady host { router.note (.verified exchange
          (content.matchingRequest host)) with rules } := { verified with }
        have matched := Kept.noteMatched changed found isOpen
        have steadyMatched : Steady host ({ router.note (.verified exchange
          (content.matchingRequest host)) with rules }.note
            (.matched exchange (content.matchingRequest host))) := matched.1
        exact steadyMatched.actLater matched.2 calm
    · exact verified

theorem uploadFrom (found : router.heap[exchange]? = some content)
    (current : router.Current host exchange) (replayed : router.Replayed exchange index)
    (alone : ∀ task ∈ router.tasks, ¬ task.replays exchange)
    (orderly : content.body[index]? ≠ none → exchange ∈ router.exchanges) :
    Steady host (router.uploadFrom index exchange content context) := by
  unfold NetworkMockRouter.uploadFrom
  dsimp only
  split
  · rename_i part isPart
    have isOpen : exchange ∈ router.exchanges :=
      orderly (by rw [isPart]; exact Option.some_ne_none _)
    obtain ⟨noted, stillCurrent, more⟩ :=
      Kept.noteUploaded steady found isOpen isPart current replayed alone
    have steadyNoted : Steady host (router.note (.uploaded exchange
      (content.downstream.map DownstreamResource.providerToken) part)) := noted
    apply steadyNoted.downstreamUnary
    · exact ⟨stillCurrent, more⟩
    · exact fun _ => alone
  · rename_i isEnd
    have lengths := congrArg List.length (Kept.bodies steady exchange content found).1
    rw [List.length_map, List.length_map] at lengths
    have past : content.body.length ≤ index := List.getElem?_eq_none_iff.mp isEnd
    have noted : Steady host (router.note (.finished exchange
        (content.downstream.map DownstreamResource.providerToken))) := by
      apply Kept.noteQuiet steady
      · cases isResource : content.downstream.map DownstreamResource.providerToken with
        | none => trivial
        | some token =>
          have has : router.downstreamOf exchange = some token :=
            (downstreamOf_found found).trans isResource
          refine ⟨?_, current⟩
          rw [replayed.2 token has]
          exact List.take_of_length_le (by omega)
      · exact (List.getElem?_eq_some_iff.mp found).1
      · exact fun _ => rfl
      · exact fun _ => rfl
      · exact fun _ => rfl
    apply noted.downstreamUnary
    · exact current.note rfl rfl
    · exact fun _ => alone

end

/-- An operation may go on with a valid answer. -/
theorem proceed {call : ℕ}
    (kept : Kept host router (.answered exchange context call stage reply tokens :: router.tasks))
    (found : router.heap[exchange]? = some content)
    (orderly : reply.isError = false → ∀ index, stage.nextPart = some index →
      content.body[index]? ≠ none → exchange ∈ router.exchanges) :
    Steady host (router.proceed exchange content context call stage reply tokens) := by
  have steady : Steady host router := kept.drop
  have fine := kept.fine _ List.mem_cons_self
  have alone : stage.isReplay → ∀ task ∈ router.tasks, ¬ task.replays exchange := by
    intro isReplay
    apply alone_of_hand kept
    exact Bool.and_eq_true_iff.mpr ⟨decide_eq_true rfl, isReplay⟩
  unfold NetworkMockRouter.proceed
  cases stage with
  | request =>
    dsimp only
    split
    · exact steady
    · rename_i token rest
      obtain ⟨granted, fresh⟩ := fine.2 token List.mem_cons_self
      have assigned : Steady host (router.update exchange fun content =>
        { content with downstream := some ⟨call, token⟩ }) :=
          Kept.assign steady granted (alone rfl)
      apply assigned.downstreamUnary
      · refine ⟨fine.1, Nat.zero_le _, fun taken has => ?_⟩
        rw [downstreamOf_found (update_found found)] at has
        have isToken : token = taken := Option.some.inj has
        rw [← isToken, List.take_zero]
        exact fresh rfl
      · exact fun _ => alone rfl
  | openBody =>
    dsimp only
    split
    · exact steady
    · rename_i isError
      exact steady.uploadFrom found fine.1.1 fine.1.2 (alone rfl)
        (orderly (Bool.not_eq_true _ ▸ isError) 0 rfl)
  | writeBody index =>
    dsimp only
    split
    · exact steady
    · rename_i isError
      exact steady.uploadFrom found fine.1.1 fine.1.2 (alone rfl)
        (orderly (Bool.not_eq_true _ ▸ isError) (index + 1) rfl)
  | finishBody =>
    apply steady.alike
    apply Alike.update
    exact fun content => ⟨rfl, rfl, rfl, fun closed => by cases closed⟩
  | cancel => exact steady
  | close => exact steady.closeExchange

section

variable (steady : Steady host router)

include steady

theorem refuseEach : Steady host (router.refuseEach exchange content stage tokens) := by
  unfold NetworkMockRouter.refuseEach
  split
  · unfold refuse
    split
    · exact steady.closeExchange
    · exact steady
  · rename_i token rest
    have released : Steady host (router.release [token]) := { steady with }
    exact Kept.suspend released trivial fun _ replays => by cases replays

theorem revoke {token : ℕ} : Steady host (router.revoke exchange token content) := by
  have released : Steady host (router.release [token]) := { steady with }
  unfold NetworkMockRouter.revoke
  dsimp only
  split
  · exact released
  · have lost : Steady host ((router.release [token]).update exchange fun content =>
        { content with downstream := none }) := by
      apply Kept.update released
      exact fun content => ⟨rfl, rfl, fun _ => rfl, Or.inr rfl⟩
    exact lost.closeExchange

theorem writeBody (isOpen : exchange ∈ router.exchanges)
    (orderly : router.isOrderlyWrite host exchange content binary = true) :
    Steady host (router.writeBody host exchange content binary) := by
  unfold NetworkMockRouter.writeBody
  split
  · rename_i data
    split
    · exact steady
    · rename_i proper
      obtain ⟨uploading, small⟩ := not_or.mp proper
      unfold isOrderlyWrite at orderly
      dsimp only at orderly
      rw [Bool.or_eq_true_iff, Bool.or_eq_true_iff, decide_eq_true_iff, decide_eq_true_iff,
        Bool.and_eq_true_iff, decide_eq_true_iff, List.all_eq_true] at orderly
      rcases orderly with (other | large) | ⟨fits, calm⟩
      · exact absurd other uploading
      · exact absurd large small
      · rw [if_neg (by omega)]
        apply Kept.pushChunk steady isOpen
        intro task listed finishes
        have quiet := calm task listed
        rw [finishes] at quiet
        cases quiet
  · exact steady

theorem openExchange {ruleSnapshot : NetworkMockRuleSetSnapshot} :
    Steady host (router.openExchange args context ruleSnapshotId ruleSnapshot) := by
  have nothing : acknowledgedFor router.heap.length router.log = [] := by
    unfold acknowledgedFor
    rw [List.filterMap_eq_nil_iff]
    intro entry noted
    have before := Kept.known steady entry noted
    cases entry with
    | acknowledged exchange chunk =>
      have earlier : exchange < router.heap.length := before
      exact if_neg earlier.ne
    | _ => rfl
  have length : (router.openExchange args context ruleSnapshotId ruleSnapshot).heap.length =
      router.heap.length + 1 := List.length_append
  have foundBefore : ∀ exchange content,
      (router.openExchange args context ruleSnapshotId ruleSnapshot).heap[exchange]? =
        some content →
      router.heap[exchange]? = some content ∨ exchange = router.heap.length ∧
        content.body = [] ∧ content.bodyBytes = 0 ∧ content.downstream = none := by
    intro exchange content found
    change (router.heap ++ [_])[exchange]? = some content at found
    rcases Nat.lt_trichotomy exchange router.heap.length with before | isNew | after
    · rw [List.getElem?_append_left before] at found
      exact Or.inl found
    · rw [isNew, List.getElem?_concat_length] at found
      rw [← Option.some.inj found]
      exact Or.inr ⟨isNew, rfl, rfl, rfl⟩
    · have inside := (List.getElem?_eq_some_iff.mp found).1
      rw [List.length_append, List.length_singleton] at inside
      omega
  apply Kept.unnoted steady
  · rfl
  · rw [length]
    exact Nat.le_add_right _ _
  · intro exchange shut
    refine ⟨by rw [length]; exact Nat.lt_add_right 1 shut.1, fun isOpen => ?_⟩
    rcases List.mem_append.mp isOpen with before | isNew
    · exact shut.2 before
    · exact absurd (List.mem_singleton.mp isNew) shut.1.ne
  · exact fun _ _ granted => granted
  · exact nodup_concat (Kept.distinct steady) fun known => (Kept.listed steady _ known).ne rfl
  · intro exchange isOpen
    rw [length]
    exact forall_mem_concat
      (fun known before => Nat.lt_add_right 1 (Kept.listed steady known before))
      (Nat.lt_succ_self _) exchange isOpen
  · intro exchange content found
    rcases foundBefore exchange content found with before | ⟨isNew, body, bytes, _⟩
    · obtain ⟨lengths, sameBytes, sameBody⟩ := Kept.bodies steady exchange content before
      refine ⟨lengths, sameBytes, fun isOpen => sameBody ?_⟩
      rcases List.mem_append.mp isOpen with isBefore | isNew
      · exact isBefore
      · have inside := (List.getElem?_eq_some_iff.mp before).1
        exact absurd (List.mem_singleton.mp isNew) inside.ne
    · rw [isNew, nothing, body, bytes]
      exact ⟨rfl, rfl, fun _ => rfl⟩
  · intro exchange token has
    obtain ⟨content, found, isToken⟩ := found_of_downstreamOf has
    rcases foundBefore exchange content found with before | ⟨_, _, _, noResource⟩
    · rw [downstreamOf_found before, isToken]
    · rw [noResource] at isToken
      cases isToken

theorem openRequest : Steady host (router.openRequest host args context) := by
  unfold NetworkMockRouter.openRequest
  split
  · exact steady
  · split
    · split
      · exact steady
      · have counted : Steady host
          { router with nextRuleSnapshot := router.nextRuleSnapshot + 1 } := { steady with }
        exact counted.openExchange
    · split
      · exact steady
      · split
        · exact steady
        · exact steady.openExchange

/-- An operation may be called that is orderly. -/
theorem dispatch {request : HttpRequest}
    (orderly : (router.resolveExchange request.exchange context).all
      (router.isOrderlyDispatch host request) = true) :
    Steady host (router.dispatch host request context now) := by
  unfold NetworkMockRouter.dispatch
  split
  · exact steady
  · rename_i content resolved
    rw [resolved, Option.all_some] at orderly
    obtain ⟨isOpen, found⟩ := resolved_exchange resolved
    unfold isOrderlyDispatch at orderly
    unfold operate
    cases operation : request.operation with
    | openBody =>
      dsimp only
      split
      · exact steady
      · apply steady.alike
        apply Alike.update
        exact fun content => ⟨rfl, rfl, rfl, fun closed => by cases closed⟩
    | writeBody =>
      rw [operation] at orderly
      exact steady.writeBody isOpen orderly
    | finishBody =>
      rw [operation] at orderly
      apply steady.finishBody found isOpen
      intro uploading task listed replays
      rcases Bool.or_eq_true_iff.mp orderly with other | alone
      · exact of_decide_eq_true other uploading
      · have quiet := List.all_eq_true.mp alone task listed
        rw [replays] at quiet
        cases quiet
    | readBody => exact steady.alike Alike.readBody
    | cancel =>
      dsimp only
      split
      · exact steady.downstreamUnary trivial fun isReplay => by cases isReplay
      · apply steady.alike
        apply Alike.update
        exact fun content => ⟨rfl, rfl, rfl, id⟩
    | close =>
      dsimp only
      split
      · exact steady.downstreamUnary trivial fun isReplay => by cases isReplay
      · exact steady.closeExchange

theorem inHand (found : router.tasks[index]? = some task) :
    Kept host (router.without index) (task :: (router.without index).tasks) := by
  obtain ⟨inside, isTask⟩ := List.getElem?_eq_some_iff.mp found
  have same : router.tasks.Perm (task :: router.tasks.eraseIdx index) := by
    rw [← isTask]
    exact (List.getElem_cons_eraseIdx_perm inside).symm
  exact { Kept.perm steady same with }

end

section

variable (kept : Kept host router (task :: router.tasks))

include kept

theorem resumeTask
    (orderly : router.isOrderlyResume task = true) (resumed : router.resumeTask task = some next) :
    Steady host next := by
  cases task with
  | answered exchange context call stage reply tokens =>
    obtain ⟨content, found, goesOn⟩ := Option.map_eq_some_iff.mp resumed
    rw [← goesOn]
    unfold goOn
    split
    · rename_i valid
      apply proceed kept found
      intro noError index isNext isPart
      unfold isOrderlyResume at orderly
      dsimp only at orderly
      have expected : reply.isValid false = true := by
        have notRequest : stage ≠ .request := by
          intro isRequest
          rw [isRequest] at isNext
          cases isNext
        rw [decide_eq_false notRequest] at valid
        exact valid
      have part : ((stage.nextPart.bind fun index =>
          (router.heap[exchange]?.bind fun content => content.body[index]?)).isNone) = false := by
        rw [isNext, found, Option.bind_some, Option.bind_some]
        cases here : content.body[index]? with
        | none => exact absurd here isPart
        | some part => rfl
      rw [noError, expected, part, Bool.or_false] at orderly
      exact of_decide_eq_true orderly
    · exact refuseEach kept.drop
  | disposing rest =>
    rw [← Option.some.inj resumed]
    exact disposeNext kept.drop
  | _ => cases resumed

theorem closedTask (closed : router.closedTask succeeds task = some next) : Steady host next := by
  have steady : Steady host router := kept.drop
  cases task with
  | refusing exchange stage tokens =>
    unfold NetworkMockRouter.closedTask at closed
    dsimp only at closed
    split at closed
    · obtain ⟨content, _, goesOn⟩ := Option.map_eq_some_iff.mp closed
      rw [← goesOn]
      exact steady.refuseEach
    · rw [← Option.some.inj closed]
      exact steady
  | closing exchange rest =>
    have shut := kept.fine _ List.mem_cons_self
    unfold NetworkMockRouter.closedTask at closed
    dsimp only at closed
    split at closed
    · rw [← Option.some.inj closed]
      exact (steady.zeroFill shut).suspendLater
    · rw [← Option.some.inj closed]
      exact steady
  | _ => cases closed

theorem elapsedTask (orderly : router.isOrderlyDelay task = true)
    (elapsed : router.elapsedTask host succeeds task = some next) : Steady host next := by
  have steady : Steady host router := kept.drop
  cases task with
  | delayed exchange context action =>
    have current := kept.fine _ List.mem_cons_self
    rw [← Option.some.inj elapsed]
    split
    · apply steady.act current
      intro task listed replays
      have quiet := List.all_eq_true.mp orderly task listed
      rw [replays] at quiet
      cases quiet
    · exact steady
  | _ => cases elapsed

theorem answerTask (answered : router.answerTask reply task = some next) : Steady host next := by
  cases task with
  | calling exchange context call stage =>
    have steady : Steady host { router with calls := router.calls.delete context.callToken } :=
      { kept.drop with }
    rw [← Option.some.inj answered]
    have granted : Steady host ({ router with
      calls := router.calls.delete context.callToken }.grant exchange reply.resources) :=
        Kept.grant steady
    apply Kept.suspend granted
    · refine ⟨kept.fine _ List.mem_cons_self, fun token isNext => ⟨?_, fun _ => ?_⟩⟩
      · exact granted_nextTokens isNext
      · apply uploadedTo_eq_nil
        intro other part noted
        have inside := (List.getElem?_eq_some_iff.mp (kept.used other token part noted)).1
        have past := (List.mem_range'_1.mp isNext).1
        exact absurd inside (Nat.not_lt.mpr past)
    · intro other replays
      obtain ⟨isOther, isReplay⟩ := Bool.and_eq_true_iff.mp replays
      rw [← of_decide_eq_true isOther]
      apply List.countP_eq_zero.mpr
      apply alone_of_hand kept
      exact Bool.and_eq_true_iff.mpr ⟨decide_eq_true rfl, isReplay⟩
  | _ => cases answered

end

/-- Every orderly step keeps what is known. -/
theorem step (steady : Steady host router) {event : RouterEvent}
    (orderly : router.isOrderly host event = true) (stepped : router.step host event = some next) :
    Steady host next := by
  cases event with
  | openRequest args context =>
    rw [← Option.some.inj stepped]
    exact steady.openRequest
  | releaseRules ruleSnapshotId context =>
    rw [← Option.some.inj stepped]
    exact steady.alike Alike.releaseRules
  | dispatch request context now =>
    rw [← Option.some.inj stepped]
    exact steady.dispatch orderly
  | cancel callToken =>
    rw [← Option.some.inj stepped]
    exact steady.alike Alike.cancel
  | grantCredits callToken credits =>
    rw [← Option.some.inj stepped]
    exact steady.alike Alike.grantCredits
  | closeResource ownerCallToken exchange =>
    rw [← Option.some.inj stepped]
    unfold NetworkMockRouter.closeResource
    split
    · exact steady
    · split
      · exact steady
      · exact steady.closeExchange
  | dispose =>
    rw [← Option.some.inj stepped]
    unfold NetworkMockRouter.dispose
    split
    · exact steady
    · have disposed : Steady host { router with disposed := true } := { steady with }
      exact disposed.disposeNext
  | elapsed index succeeds =>
    obtain ⟨task, found, goesOn⟩ := Option.bind_eq_some_iff.mp stepped
    have calm : router.isOrderlyDelay task = true := by
      unfold isOrderly at orderly
      dsimp only at orderly
      rw [found] at orderly
      exact orderly
    have stillCalm : (router.without index).isOrderlyDelay task = true := by
      cases task with
      | delayed exchange context action =>
        apply List.all_eq_true.mpr
        intro other listed
        exact List.all_eq_true.mp calm other (List.mem_of_mem_eraseIdx listed)
      | _ => rfl
    exact elapsedTask (steady.inHand found) stillCalm goesOn
  | answer index reply =>
    obtain ⟨task, found, goesOn⟩ := Option.bind_eq_some_iff.mp stepped
    exact answerTask (steady.inHand found) goesOn
  | resume index =>
    obtain ⟨task, found, goesOn⟩ := Option.bind_eq_some_iff.mp stepped
    have calm : router.isOrderlyResume task = true := by
      unfold isOrderly at orderly
      dsimp only at orderly
      rw [found] at orderly
      exact orderly
    exact resumeTask (steady.inHand found) calm goesOn
  | closed index succeeds =>
    obtain ⟨task, found, goesOn⟩ := Option.bind_eq_some_iff.mp stepped
    exact closedTask (steady.inHand found) goesOn
  | stray exchange resources =>
    unfold NetworkMockRouter.step at stepped
    dsimp only at stepped
    split at stepped
    · rw [← Option.some.inj stepped]
      exact Kept.grant steady
    · cases stepped
  | streamed exchange callToken resources =>
    unfold NetworkMockRouter.step at stepped
    dsimp only at stepped
    split at stepped
    · rw [← Option.some.inj stepped]
      have deleted : Steady host { router with calls := router.calls.delete callToken } :=
        { steady with }
      have granted : Steady host ({ router with calls := router.calls.delete callToken }.grant
        exchange resources) := Kept.grant deleted
      exact { granted with }
    · cases stepped
  | revoke exchange token =>
    unfold NetworkMockRouter.step at stepped
    dsimp only at stepped
    split at stepped
    · obtain ⟨content, _, revoked⟩ := Option.map_eq_some_iff.mp stepped
      rw [← revoked]
      exact steady.revoke
    · cases stepped
  | _ =>
    rw [← Option.some.inj stepped]
    exact { steady with }

theorem sendsWhatIsChecked (steady : Steady host router) : router.SendsWhatIsChecked host where
  sent := Kept.sent steady
  kept := by
    intro exchange isOpen content found
    obtain ⟨_, bytes, body⟩ := Kept.bodies steady exchange content found
    exact ⟨body isOpen, bytes⟩
  takes := by
    intro exchange isOpen content data found uploading small fits
    obtain ⟨_, bytes, _⟩ := Kept.bodies steady exchange content found
    rw [← bytes] at fits
    unfold NetworkMockRouter.writeBody
    dsimp only
    rw [if_neg (not_or.mpr ⟨not_not.mpr uploading, Nat.not_lt.mpr small⟩),
      if_neg (Nat.not_lt.mpr fits)]

end Steady

/-- Two chunks are written, and one between them that is too large; then they are replayed. -/
def replaysWrites : List RouterEvent :=
  openedBody ++ [firstExchange .writeBody (some [[1, 2]]),
    firstExchange .writeBody (some [[7, 8, 9]]), firstExchange .writeBody (some [[3]]),
    firstExchange .finishBody none] ++ answered [true] ++ answered [] ++ answered [] ++ answered []
      ++ answered []

def exceedsLimit : List RouterEvent :=
  openedBody ++ [firstExchange .writeBody (some [[1, 2]]), firstExchange .writeBody (some [[3, 4]])]

end NetworkMockRouter

end Holonomy.Network
