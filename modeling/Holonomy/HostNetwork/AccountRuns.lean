import Holonomy.HostNetwork.AccountSteps

/-!
# The accounts over whole runs

A received message settles the accounts of its job before it is answered. The accounts hold in
every state that operations and tasks in any order reach; what is not kept is the room for openings
that were cancelled and not yet polled.
-/

namespace Holonomy.HostNetwork

open Foundation

theorem flag_without {one all : Bool} {left : ℕ} (together : one.toNat + left = all.toNat) :
    left = (all && !one).toNat := by
  cases one with
  | false => simpa using together
  | true =>
    cases all with
    | false => simp at together
    | true => simpa using together

namespace Books

variable {network : NativeProcessNetwork}

section

variable (books : Books network)

include books

/-- What a job counts for is taken out of the accounts with it. -/
theorem settled {message : Finished} {rest : List Finished}
    (waits : network.channel = message :: rest) {job : Job} (listed : job ∈ network.jobs)
    (named : job.id = message.1) : Books ({ network with channel := rest }.settle job) := by
  let left := without Job.id job.id network.jobs
  have leave (weight : Job → ℕ) :
      tally weight network.jobs = weight job + tally weight left :=
    tally_without books.jobIds listed
  have perm : network.jobs.Perm (job :: left) := perm_cons_without books.jobIds listed
  have earlier {other : Job} (otherIn : other ∈ left) : other ∈ network.jobs :=
    (of_mem_without otherIn).1
  have openTokens : (left.filterMap Job.openToken).Sublist
      (network.jobs.filterMap Job.openToken) := (without_sublist job.id).filterMap _
  have socketTokens : ({ network with channel := rest }.settle job).sockets.map Socket.token =
      network.sockets.map Socket.token := by
    change (network.sockets.map _).map Socket.token = _
    rw [List.map_map]
    apply List.map_congr_left
    intro socket _
    rw [Function.comp_apply]
    split <;> rfl
  have tokens : ({ network with channel := rest }.settle job).tokens.Sublist network.tokens := by
    change (({ network with channel := rest }.settle job).sockets.map Socket.token ++ _).Sublist _
    rw [socketTokens]
    exact (List.Sublist.refl _).append openTokens
  have stillWaits {id : ℕ} (differs : id ≠ job.id) (inChannel : id ∈ network.channel.map Prod.fst) :
      id ∈ rest.map Prod.fst := by
    rw [waits, List.map_cons, ← named] at inChannel
    exact (List.mem_cons.mp inChannel).resolve_left differs
  refine
    { ids := ?_, once := books.once, below := books.below, awaited := ?_, told := ?_, lookups := ?_,
      openings := ?_, opens := ?_, room := ?_, shut := ?_, runs := books.runs, total := ?_,
      limit := ?_, sockets := ?_, single := ?_, tokens := books.tokens.sublist tokens,
      gave := fun token tokenIn => books.gave token (tokens.subset tokenIn), used := ?_ }
  · change (left.map Job.id ++ (network.polled ++ [job.id])).Perm network.started
    have first : (network.jobs.map Job.id ++ network.polled).Perm
        (job.id :: (left.map Job.id ++ network.polled)) := (perm.map Job.id).append_right _
    have last : (left.map Job.id ++ (network.polled ++ [job.id])).Perm
        (job.id :: (left.map Job.id ++ network.polled)) := by
      rw [← List.append_assoc]
      exact List.perm_append_singleton _ _
    exact last.trans (first.symm.trans books.ids)
  · intro other otherIn
    have both := of_mem_without otherIn
    exact (books.awaited other both.1).imp_right (stillWaits both.2)
  · intro other otherIn cancelled
    have both := of_mem_without otherIn
    exact stillWaits both.2 (books.told other both.1 cancelled)
  · change network.lookups - job.lookup.toNat = tally _ left
    rw [books.lookups, leave]
    omega
  · change network.openings - job.opening.toNat = tally _ left
    rw [books.openings, leave]
    omega
  · intro other otherIn
    exact books.opens other (earlier otherIn)
  · intro profile current
    have before := books.room profile current
    have lengths : ({ network with channel := rest }.settle job).sockets.length =
        network.sockets.length := List.length_map _
    rw [leave] at before
    rw [lengths]
    change network.sockets.length + tally Job.opensNow left ≤ _
    omega
  · intro none
    have closed := books.shut none
    refine ⟨?_, fun other otherIn => closed.2 other (earlier otherIn)⟩
    change network.sockets.map _ = []
    rw [closed.1]
    rfl
  · rcases books.total with right | written
    · left
      change network.queuedBytes - job.reservedBytes = tally Job.reservedBytes left
      rw [right, leave]
      omega
    · right
      refine ⟨?_, fun other otherIn => written.2.1 other (earlier otherIn), ?_⟩
      · change network.queuedBytes - job.reservedBytes = 0
        rw [written.1]
        exact Nat.zero_sub _
      · refine written.2.2.imp_right ?_
        intro none
        change network.sockets.map _ = []
        rw [none]
        rfl
  · exact Nat.le_trans (Nat.sub_le _ _) books.limit
  · intro socket opened
    obtain ⟨before, beforeIn, rfl⟩ := List.mem_map.mp opened
    have kept := books.sockets before beforeIn
    have queued := kept.queued
    have reads := kept.reads
    have writes := kept.writes
    rw [leave] at queued reads writes
    change SocketBooks left _
    by_cases moves : job.socketToken = some before.token
    · have reserves : job.reservedOn before.token = job.reservedBytes := if_pos moves
      have isRead : job.readOn before.token = job.read.toNat := if_pos moves
      have isWrite : job.writeOn before.token = job.write.toNat := if_pos moves
      rw [reserves] at queued
      rw [isRead] at reads
      rw [isWrite] at writes
      rw [if_pos moves]
      refine ⟨?_, ?_, ?_, ?_⟩
      · change before.queuedBytes - job.reservedBytes = tally (Job.reservedOn before.token) left
        omega
      · change tally (Job.readOn before.token) left = (before.pendingRead && !job.read).toNat
        exact flag_without reads
      · change tally (Job.writeOn before.token) left = (before.pendingWrite && !job.write).toNat
        exact flag_without writes
      · intro other otherIn same
        exact kept.owned other (earlier otherIn) same
    · have reserves : job.reservedOn before.token = 0 := if_neg moves
      have isRead : job.readOn before.token = 0 := if_neg moves
      have isWrite : job.writeOn before.token = 0 := if_neg moves
      rw [reserves, Nat.zero_add] at queued
      rw [isRead, Nat.zero_add] at reads
      rw [isWrite, Nat.zero_add] at writes
      rw [if_neg moves]
      refine ⟨queued, reads, writes, ?_⟩
      intro other otherIn same
      exact kept.owned other (earlier otherIn) same
  · intro token
    have before := books.single token
    rw [leave, leave] at before
    change tally (Job.readOn token) left ≤ 1 ∧ tally (Job.writeOn token) left ≤ 1
    omega
  · intro other otherIn token moves
    have before := books.used other (earlier otherIn) token moves
    exact ⟨fun opening => before.1 (openTokens.subset opening), before.2⟩

theorem dropped {message : Finished} {rest : List Finished}
    (waits : network.channel = message :: rest)
    (gone : ∀ job ∈ network.jobs, job.id ≠ message.1) : Books { network with channel := rest } := by
  have stillWaits {job : Job} (listed : job ∈ network.jobs)
      (inChannel : job.id ∈ network.channel.map Prod.fst) : job.id ∈ rest.map Prod.fst := by
    rw [waits, List.map_cons] at inChannel
    exact (List.mem_cons.mp inChannel).resolve_left (gone job listed)
  exact { books with
    awaited := fun job listed => (books.awaited job listed).imp_right (stillWaits listed)
    told := fun job listed cancelled => stillWaits listed (books.told job listed cancelled) }

theorem openSocket {token environment : Text} {generation : ℕ}
    {kind : SocketKind} (polls : network.polling = true) (installed : network.profile ≠ none)
    (fresh : token ∉ network.tokens) (gave : network.Gave token)
    (unused : ∀ job ∈ network.jobs, job.socketToken ≠ some token)
    (room : ∀ profile, network.profile = some profile →
      network.sockets.length + 1 + tally Job.opensNow network.jobs ≤ profile.maxSockets) :
    Books { network with
      sockets := (network.sockets.filter fun socket => socket.token ≠ token) ++
        [⟨token, generation, environment, kind, false, false, 0⟩] } := by
  have unlisted : ∀ socket ∈ network.sockets, socket.token ≠ token := by
    intro socket opened same
    apply fresh
    rw [← same]
    exact List.mem_append_left _ (List.mem_map_of_mem opened)
  have kept : (network.sockets.filter fun socket => socket.token ≠ token) = network.sockets :=
    List.filter_eq_self.mpr fun socket opened => decide_eq_true (unlisted socket opened)
  rw [kept]
  let opened : Socket := ⟨token, generation, environment, kind, false, false, 0⟩
  have tokens : (({ network with sockets := network.sockets ++ [opened] } :
      NativeProcessNetwork).tokens).Perm (token :: network.tokens) := by
    change ((network.sockets ++ [opened]).map Socket.token ++ _).Perm _
    rw [List.map_append, List.append_assoc]
    exact List.perm_middle
  have total : TotalIsRight { network with sockets := network.sockets ++ [opened] } := by
    rcases books.total with right | written
    · exact .inl right
    · exact .inr ⟨written.1, written.2.1, .inl polls⟩
  refine { books with
    room := ?_, shut := fun no => absurd no installed, total := total, sockets := ?_, tokens := ?_,
    gave := ?_ }
  · intro profile current
    have before := room profile current
    change (network.sockets ++ [opened]).length + tally Job.opensNow network.jobs ≤ _
    rw [List.length_append]
    exact before
  · refine forall_mem_concat books.sockets ?_
    refine ⟨?_, ?_, ?_, ?_⟩
    · exact (tally_eq_zero fun job listed => if_neg (unused job listed)).symm
    · exact tally_eq_zero fun job listed => if_neg (unused job listed)
    · exact tally_eq_zero fun job listed => if_neg (unused job listed)
    · intro job listed moves
      exact absurd moves (unused job listed)
  · exact tokens.nodup_iff.mpr (List.nodup_cons.mpr ⟨fresh, books.tokens⟩)
  · intro other listed
    rcases List.mem_cons.mp (tokens.subset listed) with same | known
    · rw [same]
      exact gave
    · exact books.gave other known

theorem closeHttp (token : Option Text) : Books (network.closeHttp token) := by
  unfold NativeProcessNetwork.closeHttp
  cases token with
  | none => exact books
  | some token =>
    simp only
    split
    · exact books.closeSocket token
    · exact books

variable {after : NativeProcessNetwork}

theorem complete {job : Job} {completion : Completion} {now : ℕ}
    {eof : Bool}
    (done : network.complete job completion now = .ok (eof, after))
    (opens : ∀ token environment generation kind, job.openToken = some token → Books { network with
        sockets := (network.sockets.filter fun socket => socket.token ≠ token) ++
          [⟨token, generation, environment, kind, false, false, 0⟩] }) : Books after := by
  unfold NativeProcessNetwork.complete at done
  split at done
  · split at done
    · cases done
    · cases done
      exact books.withResolutions _
  · split at done
    · cases done
    · split at done
      · cases done
      · cases done
        exact books.withResolutions _
  · next token kind _ isOpen =>
    have opening : job.openToken = some token := by
      unfold Job.openToken
      rw [isOpen]
    split at done
    · cases done
      exact opens token _ _ kind opening
    · cases done
  · cases done
    exact books
  · cases done

theorem answer {job : Job} {result : Except NetworkError Completion} {now later : ℕ}
    (opens : job.cancelled = false → network.profile ≠ none →
      ∀ token environment generation kind, job.openToken = some token → Books { network with
        sockets := (network.sockets.filter fun socket => socket.token ≠ token) ++
          [⟨token, generation, environment, kind, false, false, 0⟩] }) :
    Books (network.answer job (network.outcome job result now later)) := by
  cases found : network.outcome job result now later with
  | error error => exact books.closeHttp job.socketToken
  | ok answered =>
    obtain ⟨eof, after⟩ := answered
    have kept : Books after := by
      unfold NativeProcessNetwork.outcome at found
      split at found
      · cases found
      next current =>
        split at found
        · cases found
        obtain ⟨completion, _, done⟩ := found_of_bind found
        rw [Bool.or_eq_true, not_or, Bool.not_eq_true, Bool.not_eq_true] at current
        have installed : network.profile ≠ none := by
          intro none
          have shut := current.2
          rw [none] at shut
          cases shut
        exact books.complete done (opens current.1 installed)
    cases eof with
    | false => exact kept
    | true => exact kept.closeHttp job.socketToken

theorem receive {now later : ℕ}
    (polls : network.polling = true) (done : network.receiveNext now later = some after) :
    Books after := by
  unfold NativeProcessNetwork.receiveNext at done
  cases waits : network.channel with
  | nil =>
    rw [waits] at done
    cases done
  | cons message rest =>
    rw [waits] at done
    cases done
    unfold NativeProcessNetwork.receive
    cases found : network.jobs.find? fun job => job.id = message.1 with
    | none =>
      have gone : ∀ job ∈ network.jobs, job.id ≠ message.1 := by
        intro job listed
        have differs := List.find?_eq_none.mp found job listed
        rw [decide_eq_true_eq] at differs
        exact differs
      exact books.dropped waits gone
    | some job =>
      have listed : job ∈ network.jobs := List.mem_of_find?_eq_some found
      have named : job.id = message.1 := by
        have holds := List.find?_some found
        exact of_decide_eq_true holds
      have settled := books.settled waits listed named
      apply settled.answer
      intro alive installed token environment generation kind opening
      have isOpening : job.opening = true := by
        apply books.opens job listed
        rw [opening]
        rfl
      have perm := perm_cons_without books.jobIds listed
      have listedToken : token ∈ network.jobs.filterMap Job.openToken :=
        List.mem_filterMap.mpr ⟨job, listed, opening⟩
      have apart := List.nodup_append.mp books.tokens
      have once :
          (token :: (without Job.id job.id network.jobs).filterMap Job.openToken).Nodup := by
        have openTokens := perm.filterMap Job.openToken
        rw [List.filterMap_cons, opening] at openTokens
        exact openTokens.nodup_iff.mp apart.2.1
      apply settled.openSocket polls installed
      · intro known
        rcases List.mem_append.mp known with opened | promised
        · obtain ⟨socket, socketIn, same⟩ := List.mem_map.mp opened
          obtain ⟨before, beforeIn, rfl⟩ := List.mem_map.mp socketIn
          have sameToken : before.token = token := by
            rw [← same]
            split <;> rfl
          exact apart.2.2 _ (List.mem_map_of_mem beforeIn) _ listedToken sameToken
        · exact (List.nodup_cons.mp once).1 promised
      · exact books.gave token (List.mem_append_right _ listedToken)
      · intro other otherIn moves
        have before := (of_mem_without otherIn).1
        exact (books.used other before token moves).1 listedToken
      · intro profile current
        have before := books.room profile current
        have split : tally Job.opensNow network.jobs =
            job.opensNow + tally Job.opensNow (without Job.id job.id network.jobs) :=
          tally_without books.jobIds listed
        have opensOne : job.opensNow = 1 := by
          unfold Job.opensNow
          rw [isOpening, alive]
          rfl
        have lengths : ({ network with channel := rest }.settle job).sockets.length =
            network.sockets.length := List.length_map _
        rw [lengths]
        change network.sockets.length + 1 +
          tally Job.opensNow (without Job.id job.id network.jobs) ≤ profile.maxSockets
        omega

theorem finish (id : ℕ) (result : Except NetworkError Completion) :
    Books (network.finish id result) := by
  have sent : (network.finish id result).channel.map Prod.fst =
      network.channel.map Prod.fst ++ [id] := by
    change (network.channel ++ [(id, result)]).map Prod.fst = _
    rw [List.map_append]
    rfl
  refine { books with awaited := ?_, told := ?_ }
  · intro job listed
    rw [sent]
    rcases books.awaited job listed with works | waits
    · by_cases same : job.id = id
      · rw [same]
        exact .inr (List.mem_append_right _ (List.mem_singleton.mpr rfl))
      · exact .inl (List.mem_filter.mpr ⟨works, decide_eq_true same⟩)
    · exact .inr (List.mem_append_left _ waits)
  · intro job listed cancelled
    rw [sent]
    exact List.mem_append_left _ (books.told job listed cancelled)

theorem poll : Books { network with polling := true } := by
  have total : TotalIsRight { network with polling := true } :=
    books.total.imp_right fun written => ⟨written.1, written.2.1, .inl rfl⟩
  exact { books with total := total }

theorem polled (empty : network.channel = []) : Books { network with polling := false } := by
  have alive : ∀ job ∈ network.jobs, ¬ job.cancelled = true := by
    intro job listed cancelled
    have waits := books.told job listed cancelled
    rw [empty] at waits
    cases waits
  have total : TotalIsRight { network with polling := false } := by
    left
    rcases books.total with right | written
    · exact right
    · have nothing : tally Job.reservedBytes network.jobs = 0 := by
        apply tally_eq_zero
        intro job listed
        by_contra reserves
        exact alive job listed (written.2.1 job listed reserves)
      exact written.1.trans nothing.symm
  exact { books with total := total }

/-- The order of the tables does not matter. -/
theorem reordered {jobs : List Job} {sockets : List Socket}
    (jobsPerm : jobs.Perm network.jobs) (socketsPerm : sockets.Perm network.sockets) :
    Books { network with jobs := jobs, sockets := sockets } := by
  have same (weight : Job → ℕ) : tally weight jobs = tally weight network.jobs :=
    tally_perm jobsPerm
  have openTokens : (jobs.filterMap Job.openToken).Perm (network.jobs.filterMap Job.openToken) :=
    jobsPerm.filterMap _
  have tokens : ({ network with jobs := jobs, sockets := sockets } :
      NativeProcessNetwork).tokens.Perm network.tokens :=
    (socketsPerm.map Socket.token).append openTokens
  have noSockets (none : network.sockets = []) : sockets = [] := by
    rw [none] at socketsPerm
    exact socketsPerm.eq_nil
  refine { books with
    ids := ((jobsPerm.map Job.id).append_right _).trans books.ids
    awaited := fun job listed => books.awaited job (jobsPerm.subset listed)
    told := fun job listed => books.told job (jobsPerm.subset listed)
    lookups := books.lookups.trans (same _).symm
    openings := books.openings.trans (same _).symm
    opens := fun job listed => books.opens job (jobsPerm.subset listed)
    room := ?_, shut := ?_, total := ?_, sockets := ?_, single := ?_
    tokens := tokens.nodup_iff.mpr books.tokens
    gave := fun token listed => books.gave token (tokens.subset listed)
    used := ?_ }
  · intro profile current
    change sockets.length + tally Job.opensNow jobs ≤ _
    rw [same, socketsPerm.length_eq]
    exact books.room profile current
  · intro none
    have closed := books.shut none
    exact ⟨noSockets closed.1, fun job listed => closed.2 job (jobsPerm.subset listed)⟩
  · rcases books.total with right | written
    · exact .inl (right.trans (same _).symm)
    · exact .inr ⟨written.1, fun job listed => written.2.1 job (jobsPerm.subset listed),
        written.2.2.imp_right noSockets⟩
  · intro socket opened
    have kept := books.sockets socket (socketsPerm.subset opened)
    exact ⟨kept.queued.trans (same _).symm, (same _).trans kept.reads,
      (same _).trans kept.writes, fun job listed => kept.owned job (jobsPerm.subset listed)⟩
  · intro token
    change tally (Job.readOn token) jobs ≤ 1 ∧ tally (Job.writeOn token) jobs ≤ 1
    rw [same, same]
    exact books.single token
  · intro job listed token moves
    have kept := books.used job (jobsPerm.subset listed) token moves
    exact ⟨fun opening => kept.1 (openTokens.subset opening), kept.2⟩

/-- Every event keeps the accounts. -/
theorem step {host : Host} {event : NetworkEvent}
    (stepped : network.step host event = some after) :
    Books after := by
  have called {next : Option NativeProcessNetwork} (run : network.call next = some after) :
      network.polling = false ∧ next = some after := by
    unfold NativeProcessNetwork.call at run
    by_cases polls : network.polling = true
    · rw [if_pos polls] at run
      cases run
    · rw [if_neg polls] at run
      exact ⟨Bool.not_eq_true _ ▸ polls, run⟩
  cases event with
  | sync input now builds =>
    cases (called stepped).2
    exact books.sync host input now builds
  | start input began now =>
    have run := called stepped
    exact books.startJob run.1 run.2
  | cancel id =>
    cases (called stepped).2
    exact books.cancel id
  | poll =>
    cases (called stepped).2
    exact books.poll
  | receive now later =>
    change (if network.polling = true then network.receiveNext now later else none) = _ at stepped
    by_cases polls : network.polling = true
    · rw [if_pos polls] at stepped
      exact books.receive polls stepped
    · rw [if_neg polls] at stepped
      cases stepped
  | polled =>
    change (if (network.polling && network.channel.isEmpty) = true then
      some { network with polling := false } else none) = _ at stepped
    by_cases ends : (network.polling && network.channel.isEmpty) = true
    · rw [if_pos ends] at stepped
      cases stepped
      rw [Bool.and_eq_true, List.isEmpty_iff] at ends
      exact books.polled ends.2
    · rw [if_neg ends] at stepped
      cases stepped
  | finished id result =>
    change (if id ∈ network.tasks then some (network.finish id result) else none) = _ at stepped
    by_cases works : id ∈ network.tasks
    · rw [if_pos works] at stepped
      cases stepped
      exact books.finish id result
    · rw [if_neg works] at stepped
      cases stepped
  | reordered jobs sockets =>
    change (if jobs.Perm network.jobs ∧ sockets.Perm network.sockets then
      some { network with jobs := jobs, sockets := sockets } else none) = _ at stepped
    by_cases perms : jobs.Perm network.jobs ∧ sockets.Perm network.sockets
    · rw [if_pos perms] at stepped
      cases stepped
      exact books.reordered perms.1 perms.2
    · rw [if_neg perms] at stepped
      cases stepped

end

theorem start (epoch : ℕ) : Books (.start epoch) where
  ids := List.Perm.refl _
  once := List.nodup_nil
  below := fun _ listed => by cases listed
  awaited := fun _ listed => by cases listed
  told := fun _ listed => by cases listed
  lookups := rfl
  openings := rfl
  opens := fun _ listed => by cases listed
  room := fun _ installed => by cases installed
  shut := fun _ => ⟨rfl, fun _ listed => by cases listed⟩
  runs := fun installed => by cases installed
  total := .inl rfl
  limit := Nat.zero_le _
  sockets := fun _ opened => by cases opened
  single := fun _ => ⟨Nat.zero_le _, Nat.zero_le _⟩
  tokens := List.nodup_nil
  gave := fun _ listed => by cases listed
  used := fun _ listed => by cases listed

theorem of_reaches {host : Host} {epoch : ℕ} {events : List NetworkEvent}
    (reached : (networkMachine host epoch).Reaches events network) : Books network :=
  reached.invariant (start epoch) fun _ _ _ books stepped => books.step stepped

end Books

structure AccountsExact (network : NativeProcessNetwork) : Prop where
  covers : tally (fun job => if job.cancelled then 0 else job.reservedBytes) network.jobs ≤
    network.queuedBytes
  empty : network.jobs = [] → network.queuedBytes = 0
  limit : network.queuedBytes ≤ 4 * 1024 * 1024
  socketBytes : ∀ socket ∈ network.sockets,
    socket.queuedBytes = tally (Job.reservedOn socket.token) network.jobs
  lookups : network.lookups = network.jobs.countP Job.lookup
  openings : network.openings = network.jobs.countP Job.opening
  /-- There is room for the open sockets and the openings that were not cancelled. -/
  room : ∀ profile, network.profile = some profile →
    network.sockets.length + network.jobs.countP (fun job => job.opening && !job.cancelled) ≤
      profile.maxSockets
  oneRead : ∀ token,
    network.jobs.countP (fun job => job.socketToken = some token && job.read) ≤ 1
  oneWrite : ∀ token,
    network.jobs.countP (fun job => job.socketToken = some token && job.write) ≤ 1
  results : (network.jobs.map Job.id ++ network.polled).Perm network.started
  once : network.started.Nodup
  /-- A job in the table has its task at work or its message waiting. -/
  pending : ∀ job ∈ network.jobs,
    job.id ∈ network.tasks ∨ job.id ∈ network.channel.map Prod.fst
  all : network.tasks = [] → network.channel = [] → network.polled.Perm network.started

theorem tally_toNat {α : Type} (kept : α → Bool) (items : List α) :
    tally (fun item => (kept item).toNat) items = items.countP kept := by
  induction items with
  | nil => rfl
  | cons item items ih =>
    rw [tally_cons, ih, List.countP_cons, Nat.add_comm]
    cases kept item <;> rfl

theorem tally_direction (token : Text) (direction : Job → Bool) (jobs : List Job) :
    tally (fun job => if job.socketToken = some token then (direction job).toNat else 0) jobs =
      jobs.countP fun job => job.socketToken = some token && direction job := by
  rw [← tally_toNat]
  apply tally_congr
  intro job _
  by_cases moves : job.socketToken = some token
  · simp [moves]
  · simp [moves]

theorem Books.exact_accounts {network : NativeProcessNetwork} (books : Books network) :
    AccountsExact network := by
  refine
    { covers := ?_, empty := ?_, limit := books.limit,
      socketBytes := fun socket opened => (books.sockets socket opened).queued,
      lookups := ?_, openings := ?_, room := ?_, oneRead := ?_, oneWrite := ?_,
      results := books.ids, once := books.once, pending := books.awaited, all := ?_ }
  · rcases books.total with right | written
    · rw [right]
      apply tally_le
      intro job _
      split
      · exact Nat.zero_le _
      · exact Nat.le_refl _
    · have nothing : tally (fun job => if job.cancelled then 0 else job.reservedBytes)
          network.jobs = 0 := by
        apply tally_eq_zero
        intro job listed
        by_cases cancelled : job.cancelled = true
        · rw [if_pos cancelled]
        · rw [if_neg cancelled]
          by_contra reserves
          exact cancelled (written.2.1 job listed reserves)
      rw [nothing]
      exact Nat.zero_le _
  · intro none
    rcases books.total with right | written
    · rw [right, none, tally_nil]
    · exact written.1
  · exact books.lookups.trans (tally_toNat _ _)
  · exact books.openings.trans (tally_toNat _ _)
  · intro profile current
    have room := books.room profile current
    have counts : tally Job.opensNow network.jobs =
        network.jobs.countP fun job => job.opening && !job.cancelled := tally_toNat _ _
    rw [counts] at room
    exact room
  · intro token
    have counts : tally (Job.readOn token) network.jobs =
        network.jobs.countP fun job => job.socketToken = some token && job.read :=
      tally_direction token Job.read network.jobs
    rw [← counts]
    exact (books.single token).1
  · intro token
    have counts : tally (Job.writeOn token) network.jobs =
        network.jobs.countP fun job => job.socketToken = some token && job.write :=
      tally_direction token Job.write network.jobs
    rw [← counts]
    exact (books.single token).2
  · intro noTasks noMessages
    have none : network.jobs = [] := by
      apply List.eq_nil_iff_forall_not_mem.mpr
      intro job listed
      rcases books.awaited job listed with works | waits
      · rw [noTasks] at works
        cases works
      · rw [noMessages] at waits
        cases waits
    have results := books.ids
    rw [none] at results
    exact results

section Runs

mutual

/-- A value of a parser as requests hold it. -/
def ofJson : JsonValue → Value
  | .null => .null
  | .boolean value => .boolean value
  | .number value =>
    .number (if value.den = 1 ∧ 0 ≤ value ∧ value < 2 ^ 64 then
      .unsigned (UInt64.ofNat value.num.toNat) else .float value)
  | .string value => .string value
  | .array items => .array (ofJsonItems items)
  | .object members => .object (ofJsonMembers members)

def ofJsonItems : List JsonValue → List Value
  | [] => []
  | item :: items => ofJson item :: ofJsonItems items

def ofJsonMembers : List (Text × JsonValue) → List (Text × Value)
  | [] => []
  | (key, value) :: members => (key, ofJson value) :: ofJsonMembers members

end

def smallHost : Host where
  parse text := (JsonValue.parse Kernel.decimalFormat text).map ofJson
  rounded value := value
  parseAddress text := if text = js "10.0.0.1" then some (.v4 [10, 0, 0, 1]) else none
  addressText _ := js "10.0.0.1"
  decodeBase64 text := if text = [] then some [] else none
  encodeBase64 _ := []
  parseUrl _ := none
  isMethod _ := false
  isHeaderName _ := false
  isHeaderValue _ := false

def requestText (kind : String) (generation : ℕ) (members : List (Text × JsonValue)) : Text :=
  JsonValue.stringify Kernel.decimalFormat (.object
    ((js "schemaVersion", .number 1) :: (js "kind", .string (js kind)) ::
      (js "generation", .number generation) :: members))

def zeroDigest : JsonValue := .string (List.replicate 64 0x30)

def installText (generation maxSockets : ℕ) : Text :=
  requestText "installProfile" generation
    [(js "policy", .object [(js "access", .string (js "sandboxed")), (js "network", .object
          [(js "access", .string (js "restricted")), (js "endpoints", .array [.object
                [(js "hostname", .string (js "a")), (js "ports", .array [.number 80]),
                  (js "transport", .string (js "tcp"))]]), (js "maxSockets", .number maxSockets),
            (js "privateNetwork", .string (js "allow"))])])]

def resolveText : Text :=
  requestText "resolve" 1
    [(js "environmentId", .string (js "e")), (js "hostname", .string (js "a")),
      (js "port", .number 80), (js "transport", .string (js "tcp")),
      (js "semanticResourceDigest", zeroDigest), (js "deadlineMs", .number 1000)]

def verifyText (token : String) : Text :=
  requestText "verifyResolution" 1
    [(js "resolutionToken", .string (js token)), (js "deadlineMs", .number 1000)]

def bindText (token : String) : Text :=
  requestText "bindResolution" 1
    [(js "resolutionToken", .string (js token)), (js "invocationBindingDigest", zeroDigest),
      (js "semanticResourceDigest", zeroDigest), (js "evidenceDigest", zeroDigest)]

def openText (token : String) : Text :=
  requestText "openTcp" 1
    [(js "environmentId", .string (js "e")), (js "resolutionToken", .string (js token)),
      (js "receipt", .object [(js "authorized", .boolean true), (js "generation", .number 1),
          (js "invocationBindingDigest", zeroDigest), (js "semanticResourceDigest", zeroDigest),
          (js "resolution", .object
            [(js "addresses", .array [.string (js "10.0.0.1")]), (js "evidenceDigest", zeroDigest),
              (js "expiresAtMonotonicMs", .number 30000), (js "resolverGeneration", .number 1)])]),
      (js "address", .string (js "10.0.0.1")), (js "port", .number 80),
      (js "deadlineMs", .number 1000)]

/-- The address that the endpoint is resolved to. -/
def oneAddress : Except NetworkError Completion := .ok (.addresses [.v4 [10, 0, 0, 1]])

def twoOpenings : List NetworkEvent :=
  [.sync (installText 1 2) 0 true, .start resolveText 0 0, .start resolveText 0 0,
    .finished 1 oneAddress, .finished 3 oneAddress, .poll, .receive 0 0, .receive 0 0, .polled,
    .start (verifyText "resolution-2") 0 0, .start (verifyText "resolution-4") 0 0,
    .finished 5 (.ok .verified), .finished 6 (.ok .verified), .poll, .receive 0 0, .receive 0 0,
    .polled, .sync (bindText "resolution-2") 0 true, .sync (bindText "resolution-4") 0 true,
    .start (openText "resolution-2") 0 0, .start (openText "resolution-4") 0 0]

def outlivingOpenings : List NetworkEvent :=
  twoOpenings ++
    [.sync (requestText "closeGeneration" 1 []) 0 true, .sync (installText 2 1) 0 true]

end Runs

end Holonomy.HostNetwork
