import Holonomy.Foundation.Machine
import Holonomy.HostNetwork.Drafts
import Holonomy.Foundation.Tallies

/-!
# The accounts of the network

Every counter is the tally of what the jobs in the table count for. The total of queued bytes may
also be nothing while only cancelled jobs hold reservations; then no socket is open, or a poll has
yet to receive what these jobs were cancelled with.
-/

namespace Holonomy.HostNetwork

open Foundation

/-! ## Polling results

A poll receives the messages of the channel, one after another until there is none, while tasks may
send more.
-/

namespace NativeProcessNetwork

def complete (network : NativeProcessNetwork) (job : Job) (completion : Completion) (now : ℕ) :
    Except NetworkError (Bool × NativeProcessNetwork) :=
  match job.kind, completion with
  | .resolve token resolution, .addresses addresses =>
    if (network.resolutionOf token).isSome then .error .protocolError
    else .ok (false, { network with
      resolutions := network.resolutions ++ [{ resolution with
        addresses := addresses
        expires := now + dnsTtl
        expiresAtMs := (now + dnsTtl - network.epoch) / 10 ^ 6 }] })
  | .verify token, .verified =>
    match network.resolutionOf token with
    | none => .error .stale
    | some resolution =>
      if resolution.expires ≤ now then .error .stale
      else .ok (false, { network with
        resolutions := network.resolutions.map fun other =>
          if other.token = token then { other with verified := true } else other })
  | .opens token, .opened kind headIsObject =>
    match headIsObject, job.environmentId with
    | true, some environment => .ok (false, { network with
        sockets := (network.sockets.filter fun socket => socket.token ≠ token) ++
          [⟨token, job.generation, environment, kind, false, false, 0⟩] })
    | _, _ => .error .protocolError
  | .other, .value eof => .ok (eof, network)
  | _, _ => .error .protocolError

def outcome (network : NativeProcessNetwork) (job : Job)
    (result : Except NetworkError Completion) (now later : ℕ) :
    Except NetworkError (Bool × NativeProcessNetwork) :=
  if job.cancelled || network.profile.all fun profile => profile.generation ≠ job.generation then
    .error .cancelled
  else if job.deadline < now then .error .timeout
  else result.bind fun completion => network.complete job completion later

def closeHttp (network : NativeProcessNetwork) : Option Text → NativeProcessNetwork
  | none => network
  | some token =>
    if (network.socketOf token).any fun socket => socket.kind = .http then
      network.closeSocket token
    else network

def answer (network : NativeProcessNetwork) (job : Job) :
    Except NetworkError (Bool × NativeProcessNetwork) → NativeProcessNetwork
  | .error _ => network.closeHttp job.socketToken
  | .ok (true, next) => next.closeHttp job.socketToken
  | .ok (false, next) => next

end NativeProcessNetwork

def Socket.relieve (socket : Socket) (job : Job) : Socket :=
  { socket with
    pendingRead := socket.pendingRead && !job.read
    pendingWrite := socket.pendingWrite && !job.write
    queuedBytes := socket.queuedBytes - job.reservedBytes }

namespace NativeProcessNetwork

def settle (network : NativeProcessNetwork) (job : Job) : NativeProcessNetwork :=
  { network with
    jobs := network.jobs.filter fun other => other.id ≠ job.id
    lookups := network.lookups - job.lookup.toNat
    openings := network.openings - job.opening.toNat
    sockets := network.sockets.map fun socket =>
      if job.socketToken = some socket.token then socket.relieve job else socket
    queuedBytes := network.queuedBytes - job.reservedBytes
    polled := network.polled ++ [job.id] }

def receive (network : NativeProcessNetwork) (message : Finished) (now later : ℕ) :
    NativeProcessNetwork :=
  match network.jobs.find? fun job => job.id = message.1 with
  | none => network
  | some job =>
    (network.settle job).answer job ((network.settle job).outcome job message.2 now later)

def receiveNext (network : NativeProcessNetwork) (now later : ℕ) : Option NativeProcessNetwork :=
  match network.channel with
  | [] => none
  | message :: rest => some ({ network with channel := rest }.receive message now later)

def startJob (host : Host) (network : NativeProcessNetwork) (input : Text) (began now : ℕ) :
    Option NativeProcessNetwork :=
  match HostNetwork.start host input began now network with
  | .ok _ next => some next
  | .error (.refused _) next => some next
  | .error .panicked _ => none

def finish (network : NativeProcessNetwork) (id : ℕ) (result : Except NetworkError Completion) :
    NativeProcessNetwork :=
  { network with
    tasks := network.tasks.filter fun task => task ≠ id
    channel := network.channel ++ [(id, result)] }

end NativeProcessNetwork

/-- What can happen. -/
inductive NetworkEvent where
  | sync (input : Text) (now : ℕ) (builds : Bool)
  | start (input : Text) (began now : ℕ)
  | cancel (id : ℕ)
  | poll
  | receive (now later : ℕ)
  | polled
  | finished (id : ℕ) (result : Except NetworkError Completion)
  | reordered (jobs : List Job) (sockets : List Socket)

namespace NativeProcessNetwork

def call (network : NativeProcessNetwork) (next : Option NativeProcessNetwork) :
    Option NativeProcessNetwork :=
  if network.polling then none else next

def step (host : Host) (network : NativeProcessNetwork) :
    NetworkEvent → Option NativeProcessNetwork
  | .sync input now builds => network.call (some (network.sync host input now builds).1)
  | .start input began now => network.call (network.startJob host input began now)
  | .cancel id => network.call (some (network.cancel id))
  | .poll => network.call (some { network with polling := true })
  | .receive now later => if network.polling then network.receiveNext now later else none
  | .polled =>
    if network.polling && network.channel.isEmpty then some { network with polling := false }
    else none
  | .finished id result => if id ∈ network.tasks then some (network.finish id result) else none
  | .reordered jobs sockets =>
    if jobs.Perm network.jobs ∧ sockets.Perm network.sockets then
      some { network with jobs := jobs, sockets := sockets }
    else none

end NativeProcessNetwork

def networkMachine (host : Host) (epoch : ℕ) : Machine NativeProcessNetwork NetworkEvent where
  start := .start epoch
  step := NativeProcessNetwork.step host

def Job.reservedOn (token : Text) (job : Job) : ℕ :=
  if job.socketToken = some token then job.reservedBytes else 0

def Job.readOn (token : Text) (job : Job) : ℕ :=
  if job.socketToken = some token then job.read.toNat else 0

def Job.writeOn (token : Text) (job : Job) : ℕ :=
  if job.socketToken = some token then job.write.toNat else 0

def Job.openToken (job : Job) : Option Text :=
  match job.kind with
  | .opens token => some token
  | _ => none

theorem openToken_of_closed {job : Job} (closed : ∀ token, job.kind ≠ .opens token) :
    job.openToken = none := by
  unfold Job.openToken
  cases isKind : job.kind with
  | opens token => exact absurd isKind (closed token)
  | _ => rfl

def Job.opensNow (job : Job) : ℕ := (job.opening && !job.cancelled).toNat

def Job.IsOwnedLike (job : Job) (socket : Socket) : Prop :=
  job.generation = socket.generation ∧ job.environmentId = some socket.environmentId

/-- The accounts of one socket. -/
structure SocketBooks (jobs : List Job) (socket : Socket) : Prop where
  queued : socket.queuedBytes = tally (Job.reservedOn socket.token) jobs
  reads : tally (Job.readOn socket.token) jobs = socket.pendingRead.toNat
  writes : tally (Job.writeOn socket.token) jobs = socket.pendingWrite.toNat
  owned : ∀ job ∈ jobs, job.socketToken = some socket.token → job.IsOwnedLike socket

def TotalIsRight (network : NativeProcessNetwork) : Prop :=
  network.queuedBytes = tally Job.reservedBytes network.jobs ∨
    network.queuedBytes = 0 ∧
      (∀ job ∈ network.jobs, job.reservedBytes ≠ 0 → job.cancelled = true) ∧
      (network.polling = true ∨ network.sockets = [])

def NativeProcessNetwork.tokens (network : NativeProcessNetwork) : List Text :=
  network.sockets.map Socket.token ++ network.jobs.filterMap Job.openToken

/-- A token that was given away. -/
def NativeProcessNetwork.Gave (network : NativeProcessNetwork) (token : Text) : Prop :=
  ∃ number ≤ network.next, token = numbered (js "socket") number

/-- The accounts of the network. -/
structure Books (network : NativeProcessNetwork) : Prop where
  ids : (network.jobs.map Job.id ++ network.polled).Perm network.started
  once : network.started.Nodup
  below : ∀ id ∈ network.started, id ≤ network.next
  awaited : ∀ job ∈ network.jobs,
    job.id ∈ network.tasks ∨ job.id ∈ network.channel.map Prod.fst
  told : ∀ job ∈ network.jobs, job.cancelled = true → job.id ∈ network.channel.map Prod.fst
  lookups : network.lookups = tally (fun job => job.lookup.toNat) network.jobs
  openings : network.openings = tally (fun job => job.opening.toNat) network.jobs
  opens : ∀ job ∈ network.jobs, job.openToken.isSome → job.opening = true
  room : ∀ profile, network.profile = some profile →
    network.sockets.length + tally Job.opensNow network.jobs ≤ profile.maxSockets
  shut : network.profile = none →
    network.sockets = [] ∧ ∀ job ∈ network.jobs, job.cancelled = true
  runs : network.profile.isSome → network.runtime = true
  total : TotalIsRight network
  limit : network.queuedBytes ≤ maxQueuedTotal
  sockets : ∀ socket ∈ network.sockets, SocketBooks network.jobs socket
  single : ∀ token, tally (Job.readOn token) network.jobs ≤ 1 ∧
    tally (Job.writeOn token) network.jobs ≤ 1
  tokens : network.tokens.Nodup
  gave : ∀ token ∈ network.tokens, network.Gave token
  used : ∀ job ∈ network.jobs, ∀ token, job.socketToken = some token →
    token ∉ network.jobs.filterMap Job.openToken ∧ network.Gave token

/-! ## Cancelled jobs -/

section Strike

variable (chosen : Job → Bool) (dropped : Bool) (job : Job)

@[simp]
theorem strike_id : (job.strike chosen dropped).id = job.id := by
  unfold Job.strike
  split <;> rfl

@[simp]
theorem strike_socketToken : (job.strike chosen dropped).socketToken = job.socketToken := by
  unfold Job.strike
  split <;> rfl

@[simp]
theorem strike_lookup : (job.strike chosen dropped).lookup = job.lookup := by
  unfold Job.strike
  split <;> rfl

@[simp]
theorem strike_opening : (job.strike chosen dropped).opening = job.opening := by
  unfold Job.strike
  split <;> rfl

@[simp]
theorem strike_openToken : (job.strike chosen dropped).openToken = job.openToken := by
  unfold Job.strike
  split <;> rfl

@[simp]
theorem strike_readOn (token : Text) :
    (job.strike chosen dropped).readOn token = job.readOn token := by
  unfold Job.strike
  split <;> rfl

@[simp]
theorem strike_writeOn (token : Text) :
    (job.strike chosen dropped).writeOn token = job.writeOn token := by
  unfold Job.strike
  split <;> rfl

@[simp]
theorem strike_isOwnedLike (socket : Socket) :
    (job.strike chosen dropped).IsOwnedLike socket ↔ job.IsOwnedLike socket := by
  unfold Job.strike
  split <;> exact Iff.rfl

theorem strike_cancelled :
    (job.strike chosen dropped).cancelled = (job.cancelled || chosen job) := by
  unfold Job.strike Job.isHit
  cases cancelled : job.cancelled with
  | true => simp [cancelled]
  | false =>
    cases hit : chosen job with
    | true => simp [Job.cancel]
    | false => simp [cancelled]

theorem strike_reserved :
    (job.strike chosen true).reservedBytes +
      (if job.isHit chosen then job.reservedBytes else 0) = job.reservedBytes := by
  unfold Job.strike
  by_cases hit : job.isHit chosen = true
  · rw [if_pos hit, if_pos hit]
    simp [Job.cancel]
  · rw [if_neg hit, if_neg hit, Nat.add_zero]

theorem strike_reserved_kept (kept : dropped = true → chosen job = false) :
    (job.strike chosen dropped).reservedBytes = job.reservedBytes := by
  unfold Job.strike
  by_cases hit : job.isHit chosen = true
  · rw [if_pos hit]
    cases dropped with
    | false => rfl
    | true =>
      unfold Job.isHit at hit
      rw [kept rfl] at hit
      cases hit
  · rw [if_neg hit]

theorem strike_reserved_le : (job.strike chosen dropped).reservedBytes ≤ job.reservedBytes := by
  unfold Job.strike
  by_cases hit : job.isHit chosen = true
  · rw [if_pos hit]
    cases dropped with
    | false => exact Nat.le_refl _
    | true => exact Nat.zero_le _
  · rw [if_neg hit]

end Strike

theorem tally_strike {weight : Job → ℕ} {chosen : Job → Bool} {dropped : Bool} {jobs : List Job}
    (same : ∀ job ∈ jobs, weight (job.strike chosen dropped) = weight job) :
    tally weight (jobs.map (Job.strike chosen dropped)) = tally weight jobs :=
  tally_map.trans (tally_congr same)

theorem tally_reserved_strike (chosen : Job → Bool) (jobs : List Job) :
    tally Job.reservedBytes (jobs.map (Job.strike chosen true)) +
      tally Job.reservedBytes (jobs.filter (Job.isHit chosen)) = tally Job.reservedBytes jobs := by
  rw [tally_map, tally_filter, ← tally_add]
  exact tally_congr fun job _ => strike_reserved chosen job

theorem openTokens_strike (chosen : Job → Bool) (dropped : Bool) (jobs : List Job) :
    (jobs.map (Job.strike chosen dropped)).filterMap Job.openToken =
      jobs.filterMap Job.openToken := by
  rw [List.filterMap_map]
  congr 1
  funext job
  exact strike_openToken chosen dropped job

namespace Books

variable {network : NativeProcessNetwork}

variable {job : Job} {socket : Socket} {members : Members} {generation now : ℕ} {builds : Bool}
  {after : NativeProcessNetwork}

section

variable (books : Books network)

include books

theorem jobIds : (network.jobs.map Job.id).Nodup := by
  have together : (network.jobs.map Job.id ++ network.polled).Nodup :=
    books.ids.nodup_iff.mpr books.once
  exact (List.nodup_append.mp together).1

theorem job_started (listed : job ∈ network.jobs) : job.id ∈ network.started :=
  books.ids.subset (List.mem_append_left _ (List.mem_map_of_mem listed))

theorem owned (listed : job ∈ network.jobs)
    (opened : socket ∈ network.sockets) (moves : job.socketToken = some socket.token) :
    job.IsOwnedLike socket :=
  (books.sockets socket opened).owned job listed moves

theorem total_cancelJobs (chosen : Job → Bool) (dropped : Bool) :
    TotalIsRight (network.cancelJobs chosen dropped) := by
  rcases books.total with right | written
  · left
    cases dropped with
    | false =>
      have same : tally Job.reservedBytes (network.jobs.map (Job.strike chosen false)) =
          tally Job.reservedBytes network.jobs :=
        tally_strike fun job _ => strike_reserved_kept chosen false job fun no => by cases no
      exact right.trans same.symm
    | true =>
      have together := tally_reserved_strike chosen network.jobs
      change (network.jobs.filter (Job.isHit chosen)).foldl
          (fun total job => total - job.reservedBytes) network.queuedBytes =
        tally Job.reservedBytes (network.jobs.map (Job.strike chosen true))
      rw [foldl_sub, right]
      omega
  · right
    have nothing : (network.cancelJobs chosen dropped).queuedBytes = 0 := by
      cases dropped with
      | false => exact written.1
      | true =>
        change (network.jobs.filter (Job.isHit chosen)).foldl
          (fun total job => total - job.reservedBytes) network.queuedBytes = 0
        rw [foldl_sub, written.1]
        exact Nat.zero_sub _
    have cancelled : ∀ job ∈ (network.cancelJobs chosen dropped).jobs,
        job.reservedBytes ≠ 0 → job.cancelled = true := by
      intro struck struckIn reserves
      obtain ⟨job, listed, same⟩ := List.mem_map.mp struckIn
      have fewer := strike_reserved_le chosen dropped job
      rw [same] at fewer
      have before := written.2.1 job listed (by omega)
      have after := strike_cancelled chosen dropped job
      rw [same, before, Bool.true_or] at after
      exact after
    exact ⟨nothing, cancelled, written.2.2⟩

theorem cancelJobs (chosen : Job → Bool) (dropped : Bool)
    (apart : dropped = true → ∀ job ∈ network.jobs, chosen job = true →
      ∀ socket ∈ network.sockets, job.socketToken ≠ some socket.token) :
    Books (network.cancelJobs chosen dropped) := by
  have sameTokens : (network.cancelJobs chosen dropped).tokens = network.tokens :=
    congrArg (network.sockets.map Socket.token ++ ·)
      (openTokens_strike chosen dropped network.jobs)
  have sent : (network.cancelJobs chosen dropped).channel.map Prod.fst =
      network.channel.map Prod.fst ++ (network.jobs.filter (Job.isHit chosen)).map Job.id := by
    change (network.channel ++ _).map Prod.fst = _
    rw [List.map_append, List.map_map]
    rfl
  have sameIds : (network.jobs.map (Job.strike chosen dropped)).map Job.id =
      network.jobs.map Job.id := by
    rw [List.map_map]
    exact List.map_congr_left fun job _ => strike_id chosen dropped job
  have total := books.total_cancelJobs chosen dropped
  refine { books with
    ids := ?_, awaited := ?_, told := ?_, lookups := ?_, openings := ?_, opens := ?_, room := ?_,
    shut := ?_, total := total, limit := ?_, sockets := ?_, single := ?_, tokens := ?_, gave := ?_,
    used := ?_ }
  · change ((network.jobs.map (Job.strike chosen dropped)).map Job.id ++ network.polled).Perm _
    rw [sameIds]
    exact books.ids
  · intro struck struckIn
    obtain ⟨job, listed, rfl⟩ := List.mem_map.mp struckIn
    rw [sent, strike_id]
    rcases books.awaited job listed with works | waits
    · exact .inl works
    · exact .inr (List.mem_append_left _ waits)
  · intro struck struckIn cancelled
    obtain ⟨job, listed, rfl⟩ := List.mem_map.mp struckIn
    rw [sent, strike_id]
    rw [strike_cancelled] at cancelled
    by_cases before : job.cancelled = true
    · exact List.mem_append_left _ (books.told job listed before)
    · rw [Bool.not_eq_true] at before
      rw [before, Bool.false_or] at cancelled
      have hit : job.isHit chosen = true := by
        unfold Job.isHit
        rw [cancelled, before]
        rfl
      exact List.mem_append_right _ (List.mem_map_of_mem (List.mem_filter.mpr ⟨listed, hit⟩))
  · have same : tally (fun job => job.lookup.toNat)
        (network.jobs.map (Job.strike chosen dropped)) =
        tally (fun job => job.lookup.toNat) network.jobs :=
      tally_strike fun job _ => by rw [strike_lookup]
    exact books.lookups.trans same.symm
  · have same : tally (fun job => job.opening.toNat)
        (network.jobs.map (Job.strike chosen dropped)) =
        tally (fun job => job.opening.toNat) network.jobs :=
      tally_strike fun job _ => by rw [strike_opening]
    exact books.openings.trans same.symm
  · intro struck struckIn opens
    obtain ⟨job, listed, rfl⟩ := List.mem_map.mp struckIn
    rw [strike_openToken] at opens
    rw [strike_opening]
    exact books.opens job listed opens
  · intro profile installed
    have before := books.room profile installed
    have fewer : tally Job.opensNow (network.jobs.map (Job.strike chosen dropped)) ≤
        tally Job.opensNow network.jobs := by
      rw [tally_map]
      apply tally_le
      intro job _
      change ((job.strike chosen dropped).opening && !(job.strike chosen dropped).cancelled).toNat ≤
        (job.opening && !job.cancelled).toNat
      rw [strike_opening, strike_cancelled]
      cases job.opening <;> cases job.cancelled <;> cases chosen job <;> decide
    change network.sockets.length + _ ≤ _
    exact Nat.le_trans (Nat.add_le_add_left fewer _) before
  · intro none
    have closed := books.shut none
    refine ⟨closed.1, ?_⟩
    intro struck struckIn
    obtain ⟨job, listed, rfl⟩ := List.mem_map.mp struckIn
    rw [strike_cancelled, closed.2 job listed, Bool.true_or]
  · have before := books.limit
    change (if dropped then (network.jobs.filter (Job.isHit chosen)).foldl
        (fun total job => total - job.reservedBytes) network.queuedBytes
      else network.queuedBytes) ≤ maxQueuedTotal
    rw [foldl_sub]
    split
    · omega
    · exact before
  · intro socket opened
    have before := books.sockets socket opened
    have reserved : ∀ job ∈ network.jobs,
        (job.strike chosen dropped).reservedOn socket.token = job.reservedOn socket.token := by
      intro job listed
      unfold Job.reservedOn
      rw [strike_socketToken]
      by_cases moves : job.socketToken = some socket.token
      · rw [if_pos moves, if_pos moves]
        apply strike_reserved_kept
        intro drops
        rw [← Bool.not_eq_true]
        exact fun hit => apart drops job listed hit socket opened moves
      · rw [if_neg moves, if_neg moves]
    have queued := before.queued.trans (tally_strike reserved).symm
    have reads := (tally_strike fun job _ =>
      strike_readOn chosen dropped job socket.token).trans before.reads
    have writes := (tally_strike fun job _ =>
      strike_writeOn chosen dropped job socket.token).trans before.writes
    refine ⟨queued, reads, writes, ?_⟩
    intro struck struckIn moves
    obtain ⟨job, listed, rfl⟩ := List.mem_map.mp struckIn
    rw [strike_socketToken] at moves
    exact (strike_isOwnedLike chosen dropped job socket).mpr (before.owned job listed moves)
  · intro token
    have before := books.single token
    have reads : tally (Job.readOn token) (network.jobs.map (Job.strike chosen dropped)) =
        tally (Job.readOn token) network.jobs :=
      tally_strike fun job _ => strike_readOn chosen dropped job token
    have writes : tally (Job.writeOn token) (network.jobs.map (Job.strike chosen dropped)) =
        tally (Job.writeOn token) network.jobs :=
      tally_strike fun job _ => strike_writeOn chosen dropped job token
    exact ⟨reads.le.trans before.1, writes.le.trans before.2⟩
  · rw [sameTokens]
    exact books.tokens
  · rw [sameTokens]
    exact books.gave
  · intro struck struckIn token moves
    obtain ⟨job, listed, rfl⟩ := List.mem_map.mp struckIn
    rw [strike_socketToken] at moves
    change token ∉ (network.jobs.map (Job.strike chosen dropped)).filterMap Job.openToken ∧ _
    rw [openTokens_strike]
    exact books.used job listed token moves

/-! ## Closing -/

theorem keepSockets (kept : Socket → Bool) :
    Books { network with sockets := network.sockets.filter kept } := by
  have fewer : (network.sockets.filter kept).Sublist network.sockets := List.filter_sublist
  have fewerTokens : ({ network with
      sockets := network.sockets.filter kept } : NativeProcessNetwork).tokens.Sublist
      network.tokens := (fewer.map Socket.token).append (List.Sublist.refl _)
  have noMore : network.sockets = [] → network.sockets.filter kept = [] := by
    intro none
    rw [none]
    rfl
  have total : TotalIsRight { network with sockets := network.sockets.filter kept } := by
    rcases books.total with right | written
    · exact .inl right
    · exact .inr ⟨written.1, written.2.1, written.2.2.imp_right noMore⟩
  refine { books with
    room := ?_, shut := ?_, total := total, sockets := ?_, tokens := ?_, gave := ?_ }
  · intro profile installed
    have before := books.room profile installed
    exact Nat.le_trans (Nat.add_le_add_right fewer.length_le _) before
  · intro none
    have closed := books.shut none
    exact ⟨noMore closed.1, closed.2⟩
  · intro socket opened
    exact books.sockets socket (List.mem_of_mem_filter opened)
  · exact books.tokens.sublist fewerTokens
  · intro token listed
    exact books.gave token (fewerTokens.subset listed)

theorem closeSocket (token : Text) : Books (network.closeSocket token) := by
  apply (books.keepSockets fun socket => socket.token ≠ token).cancelJobs
  intro _ job _ chosen socket opened moves
  have differs : socket.token ≠ token := of_decide_eq_true (List.mem_filter.mp opened).2
  have belongs : job.socketToken = some token := of_decide_eq_true chosen
  rw [belongs] at moves
  exact differs (Option.some.inj moves).symm

end

theorem sockets_closeSockets (tokens : List Text) (network : NativeProcessNetwork)
    (opened : socket ∈ (tokens.foldl NativeProcessNetwork.closeSocket network).sockets) :
    socket ∈ network.sockets ∧ socket.token ∉ tokens := by
  induction tokens generalizing network with
  | nil => exact ⟨opened, List.not_mem_nil⟩
  | cons token tokens ih =>
    have further := ih (network.closeSocket token) opened
    have kept : socket ∈ network.sockets.filter fun socket => socket.token ≠ token := further.1
    have both := List.mem_filter.mp kept
    refine ⟨both.1, ?_⟩
    intro listed
    rcases List.mem_cons.mp listed with same | later
    · exact of_decide_eq_true both.2 same
    · exact further.2 later

theorem closeSockets (tokens : List Text) {network : NativeProcessNetwork}
    (books : Books network) : Books (tokens.foldl NativeProcessNetwork.closeSocket network) := by
  induction tokens generalizing network with
  | nil => exact books
  | cons token tokens ih => exact ih (books.closeSocket token)

section

variable (books : Books network)

include books

theorem withResolutions (resolutions : List Resolution) :
    Books { network with resolutions := resolutions } := { books with }

theorem closeEnvironment (generation : ℕ) (environmentId : Text) :
    Books (network.closeEnvironment generation environmentId) := by
  let kept := { network with
    resolutions := network.resolutions.filter fun resolution =>
      resolution.generation ≠ generation || resolution.environmentId ≠ environmentId }
  let tokens := (kept.sockets.filter fun socket =>
    socket.generation = generation && socket.environmentId = environmentId).map Socket.token
  have closed : Books (tokens.foldl NativeProcessNetwork.closeSocket kept) :=
    closeSockets tokens (books.withResolutions _)
  apply closed.cancelJobs
  intro _ job listed chosen socket opened moves
  rw [Bool.and_eq_true, decide_eq_true_eq, decide_eq_true_eq] at chosen
  have left := sockets_closeSockets tokens kept opened
  have owner := closed.owned listed opened moves
  have sameGeneration : socket.generation = generation := owner.1.symm.trans chosen.1
  have sameEnvironment : socket.environmentId = environmentId :=
    Option.some.inj (owner.2.symm.trans chosen.2)
  apply left.2
  apply List.mem_map_of_mem
  apply List.mem_filter.mpr
  refine ⟨left.1, ?_⟩
  rw [sameGeneration, sameEnvironment]
  simp

theorem cancel (id : ℕ) : Books (network.cancel id) :=
  books.cancelJobs _ false fun no => by cases no

theorem closeGeneration (generation : ℕ) : Books (network.closeGeneration generation) := by
  unfold NativeProcessNetwork.closeGeneration
  split
  · exact books
  · have cancelled : Books (network.cancelJobs (fun _ => true) false) :=
      books.cancelJobs (fun _ => true) false fun no => by cases no
    have closed := cancelled.keepSockets fun _ => false
    have noSockets : network.sockets.filter (fun _ => false) = [] := List.filter_false _
    have all : ∀ job ∈ (network.cancelJobs (fun _ => true) false).jobs, job.cancelled = true := by
      intro struck struckIn
      obtain ⟨job, _, rfl⟩ := List.mem_map.mp struckIn
      rw [strike_cancelled, Bool.or_true]
    have empty : Books { network.cancelJobs (fun _ => true) false with sockets := [] } := by
      rw [← noSockets]
      exact closed
    exact { empty with
      room := fun _ no => by cases no
      shut := fun _ => ⟨rfl, all⟩
      runs := fun no => by cases no
      total := .inr ⟨rfl, fun job listed _ => all job listed, .inr rfl⟩
      limit := Nat.zero_le _ }

/-! ## Requests that are answered at once -/

theorem installProfile
    (done : network.installProfile members generation builds = .ok after) : Books after := by
  unfold NativeProcessNetwork.installProfile at done
  obtain ⟨_, _, done⟩ := found_of_bind done
  obtain ⟨_, free, done⟩ := found_of_bind done
  obtain ⟨_, _, done⟩ := found_of_bind done
  obtain ⟨profile, _, done⟩ := found_of_bind done
  obtain ⟨_, _, done⟩ := found_of_bind done
  have none : network.profile = none := Option.not_isSome_iff_eq_none.mp fun some => by
    have passed := of_refuseWhen free
    rw [some] at passed
    cases passed
  have closed := books.shut none
  have idle : tally Job.opensNow network.jobs = 0 := by
    apply tally_eq_zero
    intro job listed
    unfold Job.opensNow
    rw [closed.2 job listed]
    simp
  cases done
  refine { books with
    room := ?_
    shut := fun no => by cases no
    runs := fun _ => rfl }
  intro _ _
  change network.sockets.length + tally Job.opensNow network.jobs ≤ _
  rw [closed.1, idle]
  exact Nat.zero_le _

theorem bindResolution
    (done : network.bindResolution members generation now = .ok after) : Books after := by
  unfold NativeProcessNetwork.bindResolution at done
  obtain ⟨_, _, done⟩ := found_of_bind done
  obtain ⟨_, _, done⟩ := found_of_bind done
  obtain ⟨_, _, done⟩ := found_of_bind done
  obtain ⟨_, _, done⟩ := found_of_bind done
  obtain ⟨_, _, done⟩ := found_of_bind done
  obtain ⟨_, _, done⟩ := found_of_bind done
  obtain ⟨_, _, done⟩ := found_of_bind done
  obtain ⟨_, _, done⟩ := found_of_bind done
  cases done
  exact books.withResolutions _

theorem discardResolution
    (done : network.discardResolution members generation = .ok after) : Books after := by
  unfold NativeProcessNetwork.discardResolution at done
  obtain ⟨_, _, done⟩ := found_of_bind done
  obtain ⟨token, _, done⟩ := found_of_bind done
  cases done
  apply Books.cancelJobs
  · split
    · exact books.withResolutions _
    · exact books
  · intro no
    cases no

theorem closeRequest
    (done : network.closeRequest members generation = .ok after) : Books after := by
  unfold NativeProcessNetwork.closeRequest at done
  obtain ⟨_, _, done⟩ := found_of_bind done
  obtain ⟨token, _, done⟩ := found_of_bind done
  cases done
  split
  · exact books.closeSocket token
  · exact books

/-- Every kind of request keeps the accounts. -/
theorem syncRequest
    (done : network.syncRequest members generation now builds = .ok after) : Books after := by
  unfold NativeProcessNetwork.syncRequest at done
  obtain ⟨kind, _, done⟩ := found_of_bind done
  by_cases installs : kind = js "installProfile"
  · rw [if_pos installs] at done
    exact books.installProfile done
  rw [if_neg installs] at done
  by_cases binds : kind = js "bindResolution"
  · rw [if_pos binds] at done
    exact books.bindResolution done
  rw [if_neg binds] at done
  by_cases discards : kind = js "discardResolution"
  · rw [if_pos discards] at done
    exact books.discardResolution done
  rw [if_neg discards] at done
  by_cases closes : kind = js "close"
  · rw [if_pos closes] at done
    exact books.closeRequest done
  rw [if_neg closes] at done
  by_cases environment : kind = js "closeEnvironment"
  · rw [if_pos environment] at done
    obtain ⟨_, _, done⟩ := found_of_bind done
    obtain ⟨environmentId, _, done⟩ := found_of_bind done
    cases done
    exact books.closeEnvironment generation environmentId
  rw [if_neg environment] at done
  by_cases ends : kind = js "closeGeneration"
  · rw [if_pos ends] at done
    obtain ⟨_, _, done⟩ := found_of_bind done
    cases done
    exact books.closeGeneration generation
  rw [if_neg ends] at done
  cases done

theorem sync (host : Host) (input : Text) (now : ℕ) (builds : Bool) :
    Books (network.sync host input now builds).1 := by
  unfold NativeProcessNetwork.sync
  cases done : network.syncParsed host input now builds with
  | error error => exact books
  | ok after =>
    unfold NativeProcessNetwork.syncParsed at done
    obtain ⟨_, _, done⟩ := found_of_bind done
    obtain ⟨members, _, done⟩ := found_of_bind done
    obtain ⟨generation, _, done⟩ := found_of_bind done
    exact books.syncRequest done

end

end Books

end Holonomy.HostNetwork
