import Holonomy.HostNetwork.AccountRuns

/-!
# Starts are atomic

A start either adds one job or changes nothing but the count of numbers, and a resolution is
consumed only by an open that it allows. What can go wrong is one conversion: a deadline so far
away that no duration holds what remains makes it panic, before the kind of the request is read.
-/

namespace Holonomy.HostNetwork

open Foundation

def OpensWith (host : Host) (network : NativeProcessNetwork) (now : ℕ) (job : Job)
    (resolutions : List Resolution) : Prop :=
  ∃ resolution ∈ network.resolutions, ∃ kind address request receipt,
    job.work = .connect kind address resolution.port resolution.expires request ∧
    job.generation = resolution.generation ∧
    job.environmentId = some resolution.environmentId ∧
    resolution.verified = true ∧ now < resolution.expires ∧ address ∈ resolution.addresses ∧
    validReceipt host resolution receipt = true ∧
    resolutions = network.resolutions.filter fun other => other.token ≠ resolution.token

def AddsOneJob (host : Host) (network : NativeProcessNetwork) (now id : ℕ)
    (after : NativeProcessNetwork) : Prop :=
  ∃ job, job.id = id ∧ id ∉ network.jobs.map Job.id ∧ after.jobs = network.jobs ++ [job] ∧
    (after.resolutions = network.resolutions ∨ OpensWith host network now job after.resolutions)

def StartsAtomically (host : Host) (network : NativeProcessNetwork) (input : Text)
    (began now : ℕ) : Prop :=
  match start host input began now network with
  | .ok id after => AddsOneJob host network now id after
  | .error (.refused _) after =>
    ∃ count, network.next ≤ count ∧ after = { network with next := count }
  | .error .panicked _ => False

def convertedSeconds (host : Host) (network : NativeProcessNetwork) (input : Text) (began : ℕ) :
    Option ℚ := do
  let value ← (parse host input).toOption
  let members ← (object value).toOption
  let generation ← (common members).toOption
  let _ ← (network.profileOf generation).toOption
  let deadlineMs ← (required members (js "deadlineMs")).toOption.bind (asFloat host)
  if maxJobs ≤ network.jobs.length ∨ deadlineMs ≤ elapsedMs host network.epoch began then none
  else some (remainingSeconds host deadlineMs (elapsedMs host network.epoch began))

variable {host : Host} {network : NativeProcessNetwork} {input : Text} {began now : ℕ}

theorem toOption_eq_some {ε α : Type} {result : Except ε α} {value : α} :
    result.toOption = some value ↔ result = .ok value := by
  cases result with
  | ok other =>
    constructor
    · intro same
      rw [Option.some.inj same]
    · intro same
      cases same
      rfl
  | error error =>
    constructor
    · intro no
      cases no
    · intro no
      cases no

theorem deadline_panics_iff (host : Host) (members : Members) (epoch began : ℕ) :
    deadline host members epoch began = .error .panicked ↔
      ∃ value, (required members (js "deadlineMs")).toOption.bind (asFloat host) = some value ∧
        ¬ value ≤ elapsedMs host epoch began ∧
        fitsDuration (remainingSeconds host value (elapsedMs host epoch began)) = false := by
  unfold deadline
  cases (required members (js "deadlineMs")).toOption.bind (asFloat host) with
  | none => simp
  | some value =>
    by_cases late : value ≤ elapsedMs host epoch began
    · simp [late]
    · cases fits : fitsDuration (remainingSeconds host value (elapsedMs host epoch began)) with
      | true => simp [late, fits]
      | false =>
        have early := lt_of_not_ge late
        simp [late, fits, early]

theorem overflows_iff (host : Host) (network : NativeProcessNetwork) (input : Text) (began : ℕ) :
    Overflows host network input began ↔
      ∃ seconds, convertedSeconds host network input began = some seconds ∧
        fitsDuration seconds = false := by
  unfold convertedSeconds Overflows
  constructor
  · rintro ⟨value, members, generation, profile, parsed, isObject, versioned, current, few, panics⟩
    obtain ⟨deadlineMs, given, early, fits⟩ := (deadline_panics_iff ..).mp panics
    refine ⟨_, ?_, fits⟩
    have going : ¬ (maxJobs ≤ network.jobs.length ∨
        deadlineMs ≤ elapsedMs host network.epoch began) := by
      rintro (full | late)
      · omega
      · exact early late
    rw [parsed]
    simp only [Except.toOption, Option.bind_eq_bind, Option.bind_some, isObject, versioned, current]
    simp only [Except.toOption] at given
    rw [given, Option.bind_some, if_neg going]
  · rintro ⟨seconds, converted, fits⟩
    simp only [Option.bind_eq_bind, Option.bind_eq_some_iff, toOption_eq_some] at converted
    obtain ⟨value, parsed, members, isObject, generation, versioned, profile, current, deadlineMs,
      given, converted⟩ := converted
    by_cases stops : maxJobs ≤ network.jobs.length ∨ deadlineMs ≤ elapsedMs host network.epoch began
    · rw [if_pos stops] at converted
      cases converted
    · rw [if_neg stops] at converted
      cases converted
      have few : network.jobs.length < maxJobs := by
        by_contra full
        exact stops (.inl (Nat.le_of_not_lt full))
      refine ⟨value, members, generation, profile, parsed, isObject, versioned, current, few, ?_⟩
      apply (deadline_panics_iff ..).mpr
      refine ⟨deadlineMs, ?_, fun late => stops (.inr late), fits⟩
      rw [Option.bind_eq_some_iff]
      simpa only [toOption_eq_some] using given

theorem start_panics (now : ℕ) (overflows : Overflows host network input began) :
    start host input began now network = .error .panicked network := by
  obtain ⟨value, members, generation, profile, parsed, isObject, versioned, current, few, panics⟩ :=
    overflows
  have room : refuseWhen (maxJobs ≤ network.jobs.length) .quota = .ok () := by
    have passes : decide (maxJobs ≤ network.jobs.length) = false :=
      decide_eq_false (Nat.not_le_of_lt few)
    rw [passes]
    rfl
  unfold start
  rw [parsed]
  change (check (object value) >>= _) network = _
  rw [isObject]
  change (check (common members) >>= _) network = _
  rw [versioned]
  change (check (network.profileOf generation) >>= _) network = _
  rw [current]
  change (check (refuseWhen (maxJobs ≤ network.jobs.length) .quota) >>= _) network = _
  rw [room]
  change (attempt (deadline host members network.epoch began) >>= _) network = _
  rw [panics]
  rfl

theorem Started.addsOneJob {after : NativeProcessNetwork} {id : ℕ} (books : Books network)
    (started : Started host network now id after) : AddsOneJob host network now id after := by
  obtain ⟨profile, deadline, job, drafted, _, fresh, draft, spawned⟩ := started
  have unused : id ∉ network.jobs.map Job.id := by
    intro listed
    obtain ⟨other, otherIn, same⟩ := List.mem_map.mp listed
    have known := books.job_started otherIn
    rw [same, fresh] at known
    exact books.next_fresh known
  have named : job.id = id := draft.same.1
  rw [spawned]
  refine ⟨job, named, unused, ?_, ?_⟩
  · cases draft with
    | _ => rfl
  · cases draft with
    | looks _ _ => exact .inl rfl
    | moves _ _ _ _ => exact .inl rfl
    | @opens kind environment address receipt resolution request found openable room =>
      right
      unfold isOpenable at openable
      simp only [Bool.and_eq_true, decide_eq_true_eq] at openable
      obtain ⟨⟨⟨⟨⟨⟨generation, owner⟩, _⟩, verified⟩, unexpired⟩, listed⟩, matching⟩ := openable
      exact ⟨resolution, found, _, address, request, receipt, rfl, generation.symm,
        congrArg some owner.symm, verified, unexpired, listed, matching, rfl⟩

theorem startJob_of_atomic (atomic : StartsAtomically host network input began now) :
    (network.startJob host input began now).isSome = true := by
  unfold NativeProcessNetwork.startJob
  unfold StartsAtomically at atomic
  cases result : start host input began now network with
  | ok id after => rfl
  | error fault after =>
    rw [result] at atomic
    cases fault with
    | refused error => rfl
    | panicked => exact atomic.elim

theorem not_atomic_of_crash {epoch : ℕ} {events : List NetworkEvent}
    (reached : (networkMachine host epoch).Reaches events network)
    (crashed : (network.startJob host input began now).isSome = false) :
    ¬ ∀ (host : Host) (epoch : ℕ) (events : List NetworkEvent) (network : NativeProcessNetwork),
      (networkMachine host epoch).Reaches events network →
      ∀ (input : Text) (began now : ℕ), StartsAtomically host network input began now := by
  intro claimed
  have atomic := claimed host epoch events network reached input began now
  rw [startJob_of_atomic atomic] at crashed
  cases crashed

/-- In every state that is reached, a start is atomic and does not crash exactly where the seconds
that it converts fit a duration. -/
theorem startsAtomically_iff (host : Host) (epoch : ℕ) (events : List NetworkEvent)
    (network : NativeProcessNetwork)
    (reached : (networkMachine host epoch).Reaches events network) (input : Text)
    (began now : ℕ) :
    StartsAtomically host network input began now ↔
      ∀ seconds, convertedSeconds host network input began = some seconds →
        0 ≤ seconds ∧ seconds < 2 ^ 64 := by
  have books := Books.of_reaches reached
  have ends := start_ends host network input began now books.runs
  have fits_iff (seconds : ℚ) : fitsDuration seconds = true ↔ 0 ≤ seconds ∧ seconds < 2 ^ 64 := by
    unfold fitsDuration
    rw [Bool.and_eq_true, decide_eq_true_eq, decide_eq_true_eq]
  constructor
  · intro atomic seconds converted
    rw [← fits_iff]
    by_contra unfit
    rw [Bool.not_eq_true] at unfit
    have overflows := (overflows_iff host network input began).mpr ⟨seconds, converted, unfit⟩
    unfold StartsAtomically at atomic
    rw [start_panics now overflows] at atomic
    exact atomic
  · intro fits
    unfold StartsAtomically
    cases result : start host input began now network with
    | ok id after => exact (ends.of_ok result).addsOneJob books
    | error fault after =>
      rcases ends.of_error result with untouched | ⟨panicked, overflows⟩
      · obtain ⟨⟨error, refused⟩, unchanged⟩ := untouched
        rw [refused]
        exact unchanged
      · obtain ⟨seconds, converted, unfit⟩ := (overflows_iff host network input began).mp overflows
        have fit := (fits_iff seconds).mpr (fits seconds converted)
        rw [unfit] at fit
        cases fit

section Starts

/-- The second of two opens is started atomically. -/
theorem startsAtomically_opens :
    ∃ network, network.openings = 1 ∧
      StartsAtomically smallHost network (openText "resolution-4") 0 0 := by
  have ran : ((networkMachine smallHost 0).run twoOpenings.dropLast).map (fun network =>
      (network.openings, convertedSeconds smallHost network (openText "resolution-4") 0)) =
      some (1, some 1) := by decide +kernel
  obtain ⟨network, same, counts⟩ := Option.map_eq_some_iff.mp ran
  rw [Prod.mk.injEq] at counts
  have reached : (networkMachine smallHost 0).Reaches twoOpenings.dropLast network :=
    Machine.reaches_of_run same
  have atomic := startsAtomically_iff smallHost 0 twoOpenings.dropLast network reached
    (openText "resolution-4") 0 0
  apply Exists.intro network
  apply And.intro counts.1
  rw [atomic]
  intro seconds found
  rw [counts.2, Option.some.injEq] at found
  rw [← found]
  norm_num

/-- A request with a deadline in four million million years. -/
def farText : Text :=
  js "\x7b\"schemaVersion\":1,\"kind\":\"readTcp\",\"generation\":1," ++
    js "\"deadlineMs\":147573952589676412928000\x7d"

def profileInstalled : List NetworkEvent := [.sync (installText 1 2) 0 true]

/-- A start may crash the host. -/
theorem start_crashes :
    ¬ ∀ (host : Host) (epoch : ℕ) (events : List NetworkEvent) (network : NativeProcessNetwork),
      (networkMachine host epoch).Reaches events network →
      ∀ (input : Text) (began now : ℕ), StartsAtomically host network input began now := by
  have ran : ((networkMachine smallHost 0).run profileInstalled).map
      (fun network => (network.startJob smallHost farText 0 0).isSome) = some false := by
    decide +kernel
  obtain ⟨network, same, crashed⟩ := Option.map_eq_some_iff.mp ran
  have reached : (networkMachine smallHost 0).Reaches profileInstalled network :=
    Machine.reaches_of_run same
  exact not_atomic_of_crash reached crashed

end Starts

end Holonomy.HostNetwork
