import Holonomy.HostNetwork.Accounts
import Holonomy.Network.RuleLifetimes

/-!
# Jobs come and go

A start adds one job to the table together with what it counts for, and a received message takes
one out again. The socket that an opened connection brings was promised by its job, so that there
is room for it.
-/

namespace Holonomy.HostNetwork

open Foundation

def NativeProcessNetwork.spawned (network : NativeProcessNetwork) (job : Job) :
    NativeProcessNetwork :=
  { network with
    lookups := network.lookups + job.lookup.toNat
    openings := network.openings + job.opening.toNat
    jobs := network.jobs ++ [job]
    tasks := network.tasks ++ [job.id]
    started := network.started ++ [job.id] }

def Started (host : Host) (network : NativeProcessNetwork) (now id : ℕ)
    (after : NativeProcessNetwork) : Prop :=
  ∃ profile deadline job drafted, network.profile = some profile ∧ id = network.next + 1 ∧
    Drafted host (network.counted id) profile profile.generation id deadline now job drafted ∧
    after = drafted.spawned job

theorem Drafted.same {host : Host} {network drafted : NativeProcessNetwork} {profile : Profile}
    {generation id deadline now : ℕ} {job : Job}
    (draft : Drafted host network profile generation id deadline now job drafted) :
    job.id = id ∧ drafted.runtime = network.runtime := by
  cases draft with
  | _ => exact ⟨rfl, rfl⟩

/-- A deadline that no duration holds is converted. -/
def Overflows (host : Host) (network : NativeProcessNetwork) (input : Text) (began : ℕ) : Prop :=
  ∃ value members generation profile, parse host input = .ok value ∧ object value = .ok members ∧
    common members = .ok generation ∧ network.profileOf generation = .ok profile ∧
    network.jobs.length < maxJobs ∧ deadline host members network.epoch began = .error .panicked

theorem start_ends (host : Host) (network : NativeProcessNetwork) (input : Text) (began now : ℕ)
    (runs : network.profile.isSome → network.runtime = true) :
    Ends (start host input began now) network (Started host network now)
      (fun fault after => Untouched network fault after ∨
        fault = .panicked ∧ Overflows host network input began) := by
  have refused (error : NetworkError) : Untouched network (.refused error) network ∨
      Fault.refused error = .panicked ∧ Overflows host network input began :=
    .inl (untouched_refused network error)
  unfold start
  apply ends_check refused
  intro value parsed
  apply ends_check refused
  intro members isObject
  apply ends_check refused
  intro generation versioned
  apply ends_bind.mpr
  apply ends_get.mpr
  apply ends_check refused
  intro profile current
  apply ends_check refused
  intro _ checkedJobs
  have few : network.jobs.length < maxJobs := by
    have passed := of_refuseWhen checkedJobs
    rw [decide_eq_false_iff_not] at passed
    omega
  have installed : network.profile.filter (fun profile => profile.generation = generation) =
      some profile := of_orElse current
  rw [Option.filter_eq_some_iff, decide_eq_true_eq] at installed
  apply ends_bind.mpr
  cases limited : deadline host members network.epoch began with
  | error fault =>
    apply ends_throw.mpr
    cases fault with
    | refused error => exact refused error
    | panicked =>
      exact .inr ⟨rfl, value, members, generation, profile, parsed, isObject, versioned, current,
        few, limited⟩
  | ok deadline =>
    apply ends_pure.mpr
    apply ends_bind.mpr
    apply (nextNumber_ends network).weaken
    · intro id counted taken
      apply ends_bind.mpr
      rw [taken.2]
      apply (startKind_ends host (network.counted id) members profile generation id deadline
        now).weaken
      · intro job drafted draft
        have running : drafted.runtime = true := by
          rw [draft.same.2]
          apply runs
          rw [installed.1]
          rfl
        unfold spawn
        apply ends_bind.mpr
        apply ends_get.mpr
        apply ends_ite
        · intro stopped
          rw [running] at stopped
          cases stopped
        · intro _
          rw [← installed.2] at draft
          have same : job.id = id := draft.same.1
          rw [← same] at draft taken
          exact ⟨profile, deadline, job, drafted, installed.1, taken.1, draft, rfl⟩
      · intro fault after untouched
        obtain ⟨error, count, later, same⟩ := untouched
        have further : network.next ≤ count := by
          have first : id ≤ count := later
          omega
        exact .inl ⟨error, count, further, same⟩
    · intro fault after untouched
      exact .inl untouched

namespace Books

variable {network : NativeProcessNetwork}

variable {count generation deadline : ℕ} {work : Work} {environment : Text} {socket : Socket}
  {isRead : Bool}

theorem counted (books : Books network) (later : network.next ≤ count) :
    Books (network.counted count) := by
  have gave : ∀ token, network.Gave token → (network.counted count).Gave token := by
    intro token given
    obtain ⟨number, before, same⟩ := given
    exact ⟨number, Nat.le_trans before later, same⟩
  exact { books with
    below := fun id listed => Nat.le_trans (books.below id listed) later
    gave := fun token listed => gave token (books.gave token listed)
    used := fun job listed token moves =>
      ⟨(books.used job listed token moves).1, gave token (books.used job listed token moves).2⟩ }

theorem next_fresh (books : Books network) : network.next + 1 ∉ network.started := by
  intro listed
  have below := books.below _ listed
  omega

theorem token_fresh {number : ℕ} (later : network.next < number) :
    ¬ network.Gave (numbered (js "socket") number) := by
  intro given
  obtain ⟨earlier, before, same⟩ := given
  have texts : Network.decimalText number = Network.decimalText earlier :=
    List.append_cancel_left same
  have numbers := Network.decimalText_injective texts
  omega

section

variable (books : Books network)

include books

/-- A job is added to the table. What depends on its shape is shown for each of them. -/
theorem enlist (job : Job) (after : NativeProcessNetwork)
    (fresh : job.id = network.next + 1) (given : job.id ≤ after.next)
    (alive : job.cancelled = false) (installed : network.profile ≠ none)
    (opens : job.openToken.isSome → job.opening = true)
    (same : after = { network.spawned job with
      next := after.next
      resolutions := after.resolutions
      sockets := after.sockets
      queuedBytes := after.queuedBytes })
    (room : ∀ profile, network.profile = some profile →
      after.sockets.length + (tally Job.opensNow network.jobs + job.opensNow) ≤ profile.maxSockets)
    (total : TotalIsRight after) (limit : after.queuedBytes ≤ maxQueuedTotal)
    (sockets : ∀ socket ∈ after.sockets, SocketBooks after.jobs socket)
    (single : ∀ token, tally (Job.readOn token) after.jobs ≤ 1 ∧
      tally (Job.writeOn token) after.jobs ≤ 1)
    (tokens : after.tokens.Nodup) (gave : ∀ token ∈ after.tokens, after.Gave token)
    (used : ∀ job ∈ after.jobs, ∀ token, job.socketToken = some token →
      token ∉ after.jobs.filterMap Job.openToken ∧ after.Gave token) : Books after := by
  have jobs : after.jobs = network.jobs ++ [job] := by rw [same]; rfl
  have polled : after.polled = network.polled := by rw [same]; rfl
  have started : after.started = network.started ++ [job.id] := by rw [same]; rfl
  have tasks : after.tasks = network.tasks ++ [job.id] := by rw [same]; rfl
  have channel : after.channel = network.channel := by rw [same]; rfl
  have profiles : after.profile = network.profile := by rw [same]; rfl
  have runtime : after.runtime = network.runtime := by rw [same]; rfl
  have lookups : after.lookups = network.lookups + job.lookup.toNat := by rw [same]; rfl
  have openings : after.openings = network.openings + job.opening.toNat := by rw [same]; rfl
  have isNew : job.id ∉ network.started := by
    rw [fresh]
    exact books.next_fresh
  refine
    { ids := ?_, once := ?_, below := ?_, awaited := ?_, told := ?_, lookups := ?_, openings := ?_,
      opens := ?_, room := ?_, shut := ?_, runs := ?_, total := total, limit := limit,
      sockets := sockets, single := single, tokens := tokens, gave := gave, used := used }
  · rw [jobs, polled, started, List.map_append, List.append_assoc]
    have swapped : (network.jobs.map Job.id ++ ([job].map Job.id ++ network.polled)).Perm
        (network.jobs.map Job.id ++ (network.polled ++ [job.id])) :=
      List.perm_append_comm.append_left _
    rw [← List.append_assoc (network.jobs.map Job.id) network.polled] at swapped
    exact swapped.trans (books.ids.append_right _)
  · rw [started]
    exact nodup_concat books.once isNew
  · intro id listed
    rw [started] at listed
    rcases List.mem_append.mp listed with before | new
    · have below := books.below id before
      omega
    · rw [List.mem_singleton.mp new]
      exact given
  · intro other listed
    rw [jobs] at listed
    rw [tasks, channel]
    exact forall_mem_concat
      (fun other before => (books.awaited other before).imp_left (List.mem_append_left _))
      (.inl (List.mem_append_right _ (List.mem_singleton.mpr rfl))) other listed
  · intro other listed cancelled
    rw [jobs] at listed
    rw [channel]
    rcases List.mem_append.mp listed with before | new
    · exact books.told other before cancelled
    · rw [List.mem_singleton.mp new, alive] at cancelled
      cases cancelled
  · rw [lookups, jobs, tally_append, books.lookups]
    rfl
  · rw [openings, jobs, tally_append, books.openings]
    rfl
  · intro other listed
    rw [jobs] at listed
    exact forall_mem_concat books.opens opens other listed
  · intro profile current
    rw [profiles] at current
    rw [jobs, tally_append]
    exact room profile current
  · intro none
    rw [profiles] at none
    exact absurd none installed
  · intro current
    rw [profiles] at current
    rw [runtime]
    exact books.runs current

theorem enlisted_quiet (job : Job) (unmoved : job.socketToken = none) :
    (∀ socket ∈ network.sockets, SocketBooks (network.jobs ++ [job]) socket) ∧
    (∀ token, tally (Job.readOn token) (network.jobs ++ [job]) ≤ 1 ∧
      tally (Job.writeOn token) (network.jobs ++ [job]) ≤ 1) := by
  have away (token : Text) : ¬ job.socketToken = some token := by
    rw [unmoved]
    exact fun no => by cases no
  have reserved (token : Text) : job.reservedOn token = 0 := if_neg (away token)
  have reads (token : Text) : job.readOn token = 0 := if_neg (away token)
  have writes (token : Text) : job.writeOn token = 0 := if_neg (away token)
  constructor
  · intro socket opened
    have before := books.sockets socket opened
    refine ⟨?_, ?_, ?_, ?_⟩
    · rw [tally_append, tally_cons, tally_nil, reserved]
      exact before.queued
    · rw [tally_append, tally_cons, tally_nil, reads]
      exact before.reads
    · rw [tally_append, tally_cons, tally_nil, writes]
      exact before.writes
    · exact forall_mem_concat before.owned fun moves => absurd moves (away socket.token)
  · intro token
    rw [tally_append, tally_append, tally_cons, tally_nil, tally_cons, tally_nil, reads, writes]
    exact books.single token

theorem enlisted_total (job : Job) (after : NativeProcessNetwork)
    (reserves : job.reservedBytes = 0) (jobs : after.jobs = network.jobs ++ [job])
    (queued : after.queuedBytes = network.queuedBytes) (polling : after.polling = network.polling)
    (sockets : after.sockets = network.sockets) : TotalIsRight after := by
  rcases books.total with right | written
  · left
    rw [queued, jobs, tally_append, tally_cons, tally_nil, reserves]
    exact right
  · right
    rw [queued, jobs, polling, sockets]
    refine ⟨written.1, ?_, written.2.2⟩
    exact forall_mem_concat written.2.1 fun holds => absurd reserves holds

/-- A job that looks a name up is added. -/
theorem spawned_looks {kind : JobKind}
    (closed : ∀ token, kind ≠ .opens token) (later : network.next + 1 ≤ count)
    (installed : network.profile ≠ none) :
    Books ((network.counted count).spawned
      (lookupJob (network.next + 1) generation deadline work kind environment)) := by
  let job := lookupJob (network.next + 1) generation deadline work kind environment
  have opensNothing : job.openToken = none := openToken_of_closed closed
  have quiet := books.enlisted_quiet job rfl
  have openTokens : (network.jobs ++ [job]).filterMap Job.openToken =
      network.jobs.filterMap Job.openToken := by
    rw [List.filterMap_append, List.filterMap_cons, opensNothing]
    exact List.append_nil _
  have grown : network.next ≤ count := by omega
  have counting := books.counted grown
  apply books.enlist job ((network.counted count).spawned job) rfl later rfl installed
  · rw [opensNothing]
    intro no
    cases no
  · rfl
  · intro profile current
    exact books.room profile current
  · exact books.enlisted_total job _ rfl rfl rfl rfl rfl
  · exact books.limit
  · exact quiet.1
  · exact quiet.2
  · change (network.sockets.map Socket.token ++
      (network.jobs ++ [job]).filterMap Job.openToken).Nodup
    rw [openTokens]
    exact books.tokens
  · change ∀ token ∈ network.sockets.map Socket.token ++
      (network.jobs ++ [job]).filterMap Job.openToken, (network.counted count).Gave token
    rw [openTokens]
    exact counting.gave
  · intro other listed token moves
    rcases List.mem_append.mp listed with known | new
    · have before := counting.used other known token moves
      refine ⟨?_, before.2⟩
      change token ∉ (network.jobs ++ [job]).filterMap Job.openToken
      rw [openTokens]
      exact before.1
    · rw [List.mem_singleton.mp new] at moves
      cases moves

theorem spawned_opens {profile : Profile} (resolutions : List Resolution)
    (installed : network.profile = some profile)
    (room : network.sockets.length + network.openings < profile.maxSockets) :
    Books ({ network.counted (network.next + 2) with resolutions := resolutions }.spawned
      (openJob (network.next + 1) generation deadline work
        (numbered (js "socket") (network.next + 2)) environment)) := by
  let token := numbered (js "socket") (network.next + 2)
  let job := openJob (network.next + 1) generation deadline work token environment
  have quiet := books.enlisted_quiet job rfl
  have openTokens : (network.jobs ++ [job]).filterMap Job.openToken =
      network.jobs.filterMap Job.openToken ++ [token] := List.filterMap_append
  have grown : network.next ≤ network.next + 2 := Nat.le_add_right _ _
  have counting := books.counted grown
  have fresh : ¬ network.Gave token := token_fresh (by omega)
  have given : (network.counted (network.next + 2)).Gave token := ⟨_, Nat.le_refl _, rfl⟩
  have notOpen : token ∉ network.tokens := fun listed => fresh (books.gave token listed)
  have fewer : tally Job.opensNow network.jobs ≤ network.openings := by
    rw [books.openings]
    apply tally_le
    intro other _
    unfold Job.opensNow
    cases other.opening <;> cases other.cancelled <;> decide
  let opened := { network.counted (network.next + 2) with resolutions := resolutions }.spawned job
  apply books.enlist job opened rfl (Nat.le_succ _) rfl
  · rw [installed]
    exact fun no => by cases no
  · intro _
    rfl
  · rfl
  · intro other current
    have same : profile = other := Option.some.inj (installed.symm.trans current)
    rw [← same]
    change network.sockets.length + (tally Job.opensNow network.jobs + 1) ≤ profile.maxSockets
    omega
  · exact books.enlisted_total job _ rfl rfl rfl rfl rfl
  · exact books.limit
  · exact quiet.1
  · exact quiet.2
  · change (network.sockets.map Socket.token ++
      (network.jobs ++ [job]).filterMap Job.openToken).Nodup
    rw [openTokens, ← List.append_assoc]
    exact nodup_concat books.tokens notOpen
  · change ∀ other ∈ network.sockets.map Socket.token ++
      (network.jobs ++ [job]).filterMap Job.openToken,
      (network.counted (network.next + 2)).Gave other
    rw [openTokens, ← List.append_assoc]
    exact forall_mem_concat counting.gave given
  · intro other listed moved moves
    rcases List.mem_append.mp listed with known | new
    · have before := counting.used other known moved moves
      refine ⟨?_, before.2⟩
      change moved ∉ (network.jobs ++ [job]).filterMap Job.openToken
      rw [openTokens]
      intro opened
      rcases List.mem_append.mp opened with elder | newest
      · exact before.1 elder
      · rw [List.mem_singleton.mp newest] at moves
        exact fresh (books.used other known token moves).2
    · rw [List.mem_singleton.mp new] at moves
      cases moves

theorem socket_eq {left right : Socket} (leftIn : left ∈ network.sockets)
    (rightIn : right ∈ network.sockets) (same : left.token = right.token) : left = right := by
  have once : (network.sockets.map Socket.token).Nodup := (List.nodup_append.mp books.tokens).1
  exact List.inj_on_of_nodup_map once leftIn rightIn same

theorem total_of_socket (opened : socket ∈ network.sockets) (idle : network.polling = false) :
    network.queuedBytes = tally Job.reservedBytes network.jobs := by
  rcases books.total with right | written
  · exact right
  · rcases written.2.2 with polling | none
    · rw [idle] at polling
      cases polling
    · rw [none] at opened
      cases opened

end

theorem readFlag (free : socket.isFree isRead = true) :
    socket.pendingRead.toNat + isRead.toNat = (socket.pendingRead || isRead).toNat ∧
      (isRead = true → socket.pendingRead = false) := by
  unfold Socket.isFree at free
  cases isRead with
  | false => simp
  | true => simpa using free

theorem writeFlag (free : socket.isFree isRead = true) :
    socket.pendingWrite.toNat + (!isRead).toNat = (socket.pendingWrite || !isRead).toNat ∧
      (isRead = false → socket.pendingWrite = false) := by
  unfold Socket.isFree at free
  cases isRead with
  | false => simpa using free
  | true => simp

theorem spawned_moves (books : Books network) {size : ℕ} (idle : network.polling = false)
    (installed : network.profile ≠ none) (found : socket ∈ network.sockets)
    (current : socket.generation = generation) (free : socket.isFree isRead = true)
    (bounded : size = 0 ∨ network.queuedBytes + size ≤ maxQueuedTotal) :
    Books (((network.counted (network.next + 1)).charge socket.token isRead size).spawned
      (transferJob (network.next + 1) generation deadline work socket isRead size)) := by
  let job := transferJob (network.next + 1) generation deadline work socket isRead size
  let charged := ((network.counted (network.next + 1)).charge socket.token isRead size).spawned job
  have reads := readFlag free
  have writes := writeFlag free
  have mine := books.sockets socket found
  have counting := books.counted (Nat.le_succ network.next)
  have openTokens : (network.jobs ++ [job]).filterMap Job.openToken =
      network.jobs.filterMap Job.openToken := by
    rw [List.filterMap_append]
    exact List.append_nil _
  have tokens : (charged.sockets.map Socket.token) = network.sockets.map Socket.token := by
    change (network.sockets.map _).map Socket.token = _
    rw [List.map_map]
    apply List.map_congr_left
    intro other _
    rw [Function.comp_apply]
    split <;> rfl
  have sameTokens : charged.tokens = network.tokens := by
    change charged.sockets.map Socket.token ++ (network.jobs ++ [job]).filterMap Job.openToken = _
    rw [tokens, openTokens]
    rfl
  have onSocket (weight : ℕ) :
      (if job.socketToken = some socket.token then weight else 0) = weight := if_pos rfl
  have offSocket {token : Text} (differs : token ≠ socket.token) (weight : ℕ) :
      (if job.socketToken = some token then weight else 0) = 0 :=
    if_neg fun same => differs (Option.some.inj same).symm
  have isListed : socket.token ∈ network.tokens :=
    List.mem_append_left _ (List.mem_map_of_mem found)
  apply books.enlist job charged rfl (Nat.le_refl _) rfl installed
  · intro no
    cases no
  · rfl
  · intro profile under
    have lengths : charged.sockets.length = network.sockets.length := List.length_map _
    have nothing : job.opensNow = 0 := rfl
    rw [lengths, nothing]
    exact books.room profile under
  · left
    have right := books.total_of_socket found idle
    change network.queuedBytes + size = tally Job.reservedBytes (network.jobs ++ [job])
    rw [tally_append, right]
    rfl
  · have limit := books.limit
    change network.queuedBytes + size ≤ maxQueuedTotal
    rcases bounded with zero | fits
    · omega
    · exact fits
  · intro other opened
    obtain ⟨before, beforeIn, rfl⟩ := List.mem_map.mp opened
    change SocketBooks (network.jobs ++ [job]) _
    by_cases same : before.token = socket.token
    · have isSocket := books.socket_eq beforeIn found same
      rw [if_pos same, isSocket]
      refine ⟨?_, ?_, ?_, ?_⟩
      · change socket.queuedBytes + size =
          tally (Job.reservedOn socket.token) (network.jobs ++ [job])
        rw [tally_append, tally_cons, tally_nil, mine.queued]
        exact congrArg _ (onSocket size).symm
      · change tally (Job.readOn socket.token) (network.jobs ++ [job]) =
          (socket.pendingRead || isRead).toNat
        rw [tally_append, tally_cons, tally_nil, mine.reads, ← reads.1]
        exact congrArg _ (onSocket isRead.toNat)
      · change tally (Job.writeOn socket.token) (network.jobs ++ [job]) =
          (socket.pendingWrite || !isRead).toNat
        rw [tally_append, tally_cons, tally_nil, mine.writes, ← writes.1]
        exact congrArg _ (onSocket (!isRead).toNat)
      · exact forall_mem_concat mine.owned fun moves => ⟨current.symm, rfl⟩
    · have others := books.sockets before beforeIn
      rw [if_neg same]
      refine ⟨?_, ?_, ?_, ?_⟩
      · have unreserved : job.reservedOn before.token = 0 := offSocket same size
        rw [tally_append, tally_cons, tally_nil, unreserved]
        exact others.queued
      · rw [tally_append, tally_cons, tally_nil, others.reads]
        exact congrArg _ (offSocket same isRead.toNat)
      · rw [tally_append, tally_cons, tally_nil, others.writes]
        exact congrArg _ (offSocket same (!isRead).toNat)
      · exact forall_mem_concat others.owned fun moves => absurd (Option.some.inj moves).symm same
  · intro token
    change tally (Job.readOn token) (network.jobs ++ [job]) ≤ 1 ∧
      tally (Job.writeOn token) (network.jobs ++ [job]) ≤ 1
    rw [tally_append, tally_append, tally_cons, tally_nil, tally_cons, tally_nil]
    by_cases same : token = socket.token
    · have readsOne : job.readOn socket.token = isRead.toNat := onSocket _
      have writesOne : job.writeOn socket.token = (!isRead).toNat := onSocket _
      rw [same, mine.reads, mine.writes, readsOne, writesOne, Nat.add_zero, Nat.add_zero, reads.1,
        writes.1]
      exact ⟨Bool.toNat_le _, Bool.toNat_le _⟩
    · have readsNone : job.readOn token = 0 := offSocket same _
      have writesNone : job.writeOn token = 0 := offSocket same _
      rw [readsNone, writesNone]
      exact books.single token
  · rw [sameTokens]
    exact books.tokens
  · rw [sameTokens]
    exact counting.gave
  · intro other listed token moves
    change token ∉ (network.jobs ++ [job]).filterMap Job.openToken ∧ _
    rw [openTokens]
    rcases List.mem_append.mp listed with known | new
    · exact counting.used other known token moves
    · rw [List.mem_singleton.mp new] at moves
      have same : socket.token = token := Option.some.inj moves
      rw [← same]
      refine ⟨?_, counting.gave _ isListed⟩
      intro opening
      have apart := (List.nodup_append.mp books.tokens).2.2
      exact apart _ (List.mem_map_of_mem found) _ opening rfl

theorem startJob (books : Books network) {host : Host} {input : Text} {began now : ℕ}
    {after : NativeProcessNetwork} (idle : network.polling = false)
    (done : network.startJob host input began now = some after) : Books after := by
  have ends := start_ends host network input began now books.runs
  unfold NativeProcessNetwork.startJob at done
  cases result : HostNetwork.start host input began now network with
  | ok id next =>
    rw [result] at done
    cases done
    obtain ⟨profile, deadline, job, drafted, installed, same, draft, spawned⟩ := ends.of_ok result
    have current : network.profile ≠ none := by
      rw [installed]
      exact fun no => by cases no
    rw [spawned]
    rw [same] at draft
    cases draft with
    | looks closed later => exact books.spawned_looks closed later current
    | opens found openable room => exact books.spawned_opens _ installed room
    | moves found sameGeneration free bounded =>
      exact books.spawned_moves idle current found sameGeneration free (bounded.imp_right And.right)
  | error fault next =>
    rw [result] at done
    have failed := ends.of_error result
    cases fault with
    | panicked => cases done
    | refused error =>
      cases done
      rcases failed with untouched | panicked
      · obtain ⟨_, count, later, same⟩ := untouched
        rw [same]
        exact books.counted later
      · cases panicked.1
end Books

end Holonomy.HostNetwork
