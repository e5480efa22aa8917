import Holonomy.Foundation.JsonEquality
import Holonomy.Service.Recovery
import Holonomy.Service.Mutations

/-!
# The books of the mutations

The record of every run that was begun is in memory and in the file until it expires, and tells what
became of the run as far as it is known. So a call that comes again finds the record and is answered
with it.
-/

namespace Holonomy.Service

open Foundation Network

/-! ## What the records tell

A record tells of its run what the coordinator asks of it, in memory and as it is read back from the
file, until it expires.
-/

section Inputs

variable {numbers : NumberFormat}

theorem propertyOrder_separates {members : List (Text × JsonValue)}
    (distinct : (members.map Prod.fst).Nodup) : propertyOrder.Separates members := by
  intro left leftIn right rightIn before behind
  have forth : keyOrder.before left.1 right.1 := before
  have back : keyOrder.before right.1 left.1 := behind
  have same : left.1 = right.1 := by
    simp only [keyOrder, Precedence.andThen, Precedence.comap, Precedence.ofLinear] at forth back
    grind
  exact List.inj_on_of_nodup_map distinct leftIn rightIn same

theorem normalizeJson_of_equals {left right : JsonValue} (equals : JsonValue.Equals left right)
    (proper : left.Proper numbers) : normalizeJson left = normalizeJson right := by
  induction equals with
  | array pairs each ih =>
    cases proper with
    | array _ items =>
      have same : pairs.map (normalizeJson ∘ Prod.fst) = pairs.map (normalizeJson ∘ Prod.snd) := by
        apply List.map_congr_left
        intro pair pairIn
        exact ih pair pairIn (items pair.1 (List.mem_map_of_mem pairIn))
      rw [normalizeJson, normalizeJson, normalizeItems_eq, normalizeItems_eq, List.map_map,
        List.map_map, same]
  | @object left right entries leftPerm rightPerm each ih =>
    cases proper with
    | object _ distinct values =>
      have perm := JsonValue.map_perm_of_pairs leftPerm rightPerm fun entry entryIn listed =>
        ih entry entryIn (values _ listed)
      have keys : ((left.map (Prod.map id normalizeJson)).map Prod.fst).Nodup := by
        rw [List.map_map]
        exact distinct
      have kept := perm.filter fun member => decide (member.1 ≠ protoKey)
      have sorted := propertyOrder.sort_eq_of_perm kept
        (propertyOrder_separates (keys.sublist (List.filter_sublist.map Prod.fst)))
      rw [normalizeJson, normalizeJson, normalizeMembers_eq, normalizeMembers_eq]
      exact congrArg JsonValue.object sorted
  | _ => rfl

/-- The inputs differ at most in the order of members. -/
def sameInput {numbers : NumberFormat} (left right : Input numbers) : Prop :=
  JsonValue.Equals left.1 right.1

theorem fingerprint_of_sameInput {left right : Input numbers} (same : sameInput left right) :
    fingerprintJson numbers left.1 = fingerprintJson numbers right.1 := by
  unfold fingerprintJson canonicalJson
  rw [normalizeJson_of_equals same left.2]

end Inputs

section Reading

variable {table record : JsonValue} {key : Text}

theorem isObject_withMember (object : ∃ members, table = .object members) :
    ∃ members, withMember table key record = .object members := by
  obtain ⟨members, rfl⟩ := object
  simp only [withMember]
  split
  · exact ⟨_, rfl⟩
  · exact ⟨_, rfl⟩

theorem memberOf_set {wanted : Text} (object : ∃ members, table = .object members) :
    memberOf (withMember table key record) wanted =
      if wanted = key then some record else memberOf table wanted := by
  obtain ⟨members, rfl⟩ := object
  exact memberOf_withMember members key wanted record

theorem requireString_value {value : Option JsonValue} {label : String} {max : ℕ} {text : Text}
    (found : requireString value label max = .ok text) : value = some (.string text) := by
  cases value with
  | none => cases found
  | some content =>
    cases content with
    | string given =>
      rw [requireString] at found
      split at found
      · cases found
      · rw [Except.ok.inj found]
    | _ => cases found

theorem textAt_normalizeJson (value : JsonValue) (plain : key ≠ protoKey) :
    textAt (normalizeJson value) key = textAt value key := by
  rw [textAt, textAt, memberOf_normalizeJson value plain]
  cases memberOf value key with
  | none => rfl
  | some content => cases content <;> rfl

theorem recordedError_normalizeJson (record : JsonValue) :
    recordedError (normalizeJson record) = recordedError record := by
  have error : ((memberOf (normalizeJson record) (js "error")).getD .null) =
      normalizeJson ((memberOf record (js "error")).getD .null) := by
    rw [memberOf_normalizeJson record (by decide)]
    cases memberOf record (js "error") with
    | none => rfl
    | some content => rfl
  unfold recordedError
  rw [error]
  generalize (memberOf record (js "error")).getD .null = content
  simp only
  rw [textAt_normalizeJson content (by decide), textAt_normalizeJson content (by decide),
    numberAt_normalizeJson content (by decide), memberOf_normalizeJson content (by decide)]
  cases memberOf content (js "retryable") with
  | none => rfl
  | some flag => cases flag <;> rfl

theorem recordedError_toJson {error : ThrownError}
    (recorded : memberOf record (js "error") = some error.toJson) :
    recordedError record = error := by
  unfold recordedError
  rw [recorded]
  rfl

end Reading

/-- What the record of a run says. -/
structure Tells {numbers : NumberFormat} (record : JsonValue) (run : Run numbers) : Prop where
  isObject : ∃ members, record = .object members
  expires : memberOf record (js "expiresAt") = some (.number run.expiresAt)
  prints : textAt record (js "fingerprint") = some run.fingerprint
  ends : textAt record (js "state") = some (js "pending") ∨
    (textAt record (js "state") = some (js "succeeded") ∧
      ∃ response, run.outcome = some (.resolved (some response)) ∧
        memberOf record (js "response") = some (cloneJson response)) ∨
    (textAt record (js "state") = some (js "failed") ∧
      ∃ error, run.outcome = some (.rejected error) ∧ recordedError record = error)

namespace Tells

variable {numbers : NumberFormat} {record : JsonValue} {run : Run numbers}

variable {now : ℕ}

theorem normal (tells : Tells record run) : Tells (normalizeJson record) run where
  isObject := by
    obtain ⟨members, rfl⟩ := tells.isObject
    exact ⟨_, rfl⟩
  expires := by
    rw [memberOf_normalizeJson record (by decide), tells.expires]
    rfl
  prints := by
    rw [textAt_normalizeJson record (by decide)]
    exact tells.prints
  ends := by
    rw [textAt_normalizeJson record (by decide), memberOf_normalizeJson record (by decide),
      recordedError_normalizeJson]
    refine tells.ends.imp_right (Or.imp_left fun ⟨state, response, outcome, member⟩ => ?_)
    refine ⟨state, response, outcome, ?_⟩
    rw [member, Option.map_some, cloneJson, normalizeJson_normalizeJson]

theorem of_pending (recordIs :
    record = pendingRecord run.expiresAt run.fingerprint run.scope) : Tells record run where
  isObject := ⟨_, recordIs⟩
  expires := by
    rw [recordIs]
    rfl
  prints := by
    rw [recordIs]
    rfl
  ends := by
    left
    rw [recordIs]
    rfl

theorem noted (tells : Tells record run) (unknown : run.outcome = none)
    (outcome : Option WorkOutcome) : Tells record { run with outcome := outcome } where
  isObject := tells.isObject
  expires := tells.expires
  prints := tells.prints
  ends := by
    rcases tells.ends with pending | ⟨-, response, known, -⟩ | ⟨-, error, known, -⟩
    · exact .inl pending
    · rw [unknown] at known
      cases known
    · rw [unknown] at known
      cases known

theorem memberOf_assigned {members : List (Text × JsonValue)} {key wanted : Text}
    {content state : JsonValue} :
    memberOf (withMember (withMember (.object members) key content) (js "state") state) wanted =
      if wanted = js "state" then some state
      else if wanted = key then some content
      else memberOf (.object members) wanted := by
  rw [memberOf_set (isObject_withMember ⟨members, rfl⟩), memberOf_set ⟨members, rfl⟩]

section

variable (tells : Tells record run)

include tells

theorem succeeds {response : JsonValue}
    (resolved : run.outcome = some (.resolved (some response))) :
    Tells (succeeded record response) run := by
  obtain ⟨members, rfl⟩ := tells.isObject
  constructor
  · exact isObject_withMember (isObject_withMember ⟨members, rfl⟩)
  · rw [succeeded, memberOf_assigned, if_neg (by decide), if_neg (by decide)]
    exact tells.expires
  · rw [textAt, succeeded, memberOf_assigned, if_neg (by decide), if_neg (by decide)]
    exact tells.prints
  · right
    left
    constructor
    · rw [textAt, succeeded, memberOf_assigned, if_pos rfl]
    · refine ⟨response, resolved, ?_⟩
      rw [succeeded, memberOf_assigned, if_neg (by decide), if_pos rfl]

theorem fails {error : ThrownError}
    (rejected : run.outcome = some (.rejected error)) : Tells (failed record error) run := by
  obtain ⟨members, rfl⟩ := tells.isObject
  constructor
  · exact isObject_withMember (isObject_withMember ⟨members, rfl⟩)
  · rw [failed, memberOf_assigned, if_neg (by decide), if_neg (by decide)]
    exact tells.expires
  · rw [textAt, failed, memberOf_assigned, if_neg (by decide), if_neg (by decide)]
    exact tells.prints
  · right
    right
    constructor
    · rw [textAt, failed, memberOf_assigned, if_pos rfl]
    · refine ⟨error, rejected, recordedError_toJson ?_⟩
      rw [failed, memberOf_assigned, if_neg (by decide), if_pos rfl]

theorem unexpired (early : now < run.expiresAt) :
    Service.unexpired now record = true := by
  unfold Service.unexpired numberAt
  rw [tells.expires]
  simp only [decide_eq_true_eq, Nat.cast_lt]
  exact early

theorem retained (early : now < run.expiresAt)
    (exact_ : run.expiresAt ≤ maxSafeInteger) : Service.retained now record = true := by
  unfold Service.retained
  rw [tells.expires, Option.bind_some, safeInteger?_number exact_]
  simp only [decide_eq_true_eq, Nat.cast_lt]
  exact early

end

end Tells

section Tables

variable {table : JsonValue} {now : ℕ}

theorem memberOf_prune {record : JsonValue} {key : Text} (found : memberOf table key = some record)
    (kept : retained now record = true) : memberOf (prune now table) key = some record := by
  cases table with
  | object members =>
    simp only [memberOf, prune] at found ⊢
    rw [Option.map_eq_some_iff] at found ⊢
    obtain ⟨entry, first, rfl⟩ := found
    refine ⟨entry, ?_, rfl⟩
    induction members with
    | nil => cases first
    | cons member members ih =>
      rw [List.find?_cons] at first
      by_cases own : member.1 = key
      · rw [decide_eq_true own] at first
        cases first
        rw [List.filter_cons, if_pos kept, List.find?_cons, decide_eq_true own]
      · rw [decide_eq_false own] at first
        have later := ih first
        rw [List.filter_cons]
        split
        · rw [List.find?_cons, decide_eq_false own]
          exact later
        · exact later
  | _ => cases found

theorem recordKey_plain {numbers : NumberFormat} (scope key : Text) :
    recordKeyOf numbers scope key ≠ protoKey := by
  intro same
  have digest := Kernel.sha256Hex_isDigest
    (encodeUtf8 (canonicalJson numbers (.array [.string scope, .string key])))
  change Kernel.isDigest (recordKeyOf numbers scope key) = true at digest
  rw [same] at digest
  exact absurd digest (by decide)

theorem loadRecords_persisted {records : JsonValue} (object : ∃ members, table = .object members)
    (loaded : loadRecords now (some (normalizeJson (historyJson table))) = .ok records) :
    records = prune now (normalizeJson table) := by
  obtain ⟨members, rfl⟩ := object
  have member : memberOf (normalizeJson (historyJson (.object members))) (js "records") =
      some (normalizeJson (.object members)) := by
    rw [memberOf_normalizeJson _ (by decide)]
    rfl
  have isHistory : ∃ entries, normalizeJson (historyJson (.object members)) = .object entries :=
    ⟨_, rfl⟩
  obtain ⟨entries, written⟩ := isHistory
  rw [written] at loaded member
  unfold loadRecords at loaded
  simp only [member] at loaded
  rw [normalizeJson] at loaded
  simp only at loaded
  split at loaded
  · cases loaded
    rw [normalizeJson]
  · cases loaded

end Tables

variable {numbers : NumberFormat}

def Held (table : JsonValue) (run : Run numbers) : Prop :=
  ∃ record, memberOf table run.recordKey = some record ∧ Tells record run

def Owned (runs : List (Run numbers)) (members : List (Text × JsonValue)) : Prop :=
  ∀ entry ∈ members, textAt entry.2 (js "state") = some (js "pending") ∨
    ∃ run ∈ runs, run.recordKey = entry.1 ∧ Tells entry.2 run

def Filed (durable : Bool) (runs : List (Run numbers)) (file : Option JsonValue) (clock : ℕ) :
    Prop :=
  (file = none ∧ (durable = true → ∀ run ∈ runs, run.expiresAt ≤ clock)) ∨
    ∃ members, file = some (normalizeJson (historyJson (.object members))) ∧
      Owned runs members ∧
      (durable = true → ∀ run ∈ runs, clock < run.expiresAt → Held (.object members) run)

theorem Filed.later {durable : Bool} {runs : List (Run numbers)} {file : Option JsonValue}
    {clock later : ℕ} (filed : Filed durable runs file clock) (passed : clock ≤ later) :
    Filed durable runs file later := by
  rcases filed with ⟨empty, expired⟩ | ⟨members, written, owned, held⟩
  · exact .inl ⟨empty, fun hasFile run listed => (expired hasFile run listed).trans passed⟩
  · exact .inr ⟨members, written, owned, fun hasFile run listed early =>
      held hasFile run listed (lt_of_le_of_lt passed early)⟩

namespace Owned

variable {runs : List (Run numbers)} {members : List (Text × JsonValue)}

variable {key : Text} {record : JsonValue} {after : List (Text × JsonValue)}

section

variable (owned : Owned runs members)

include owned

theorem found (found : memberOf (.object members) key = some record) :
    textAt record (js "state") = some (js "pending") ∨
      ∃ run ∈ runs, run.recordKey = key ∧ Tells record run := by
  simp only [memberOf] at found
  rw [Option.map_eq_some_iff] at found
  obtain ⟨entry, first, rfl⟩ := found
  have named := List.find?_some first
  have same : entry.1 = key := of_decide_eq_true named
  rw [← same]
  exact owned entry (List.mem_of_find?_eq_some first)

theorem append (run : Run numbers) : Owned (runs ++ [run]) members :=
  fun entry listed => (owned entry listed).imp_right fun ⟨other, otherIn, rest⟩ =>
    ⟨other, List.mem_append_left _ otherIn, rest⟩

theorem note {place : ℕ} {run : Run numbers}
    (here : runs[place]? = some run) (unknown : run.outcome = none) (outcome : WorkOutcome) :
    Owned (runs.modify place fun run => { run with outcome := some outcome }) members := by
  intro entry listed
  refine (owned entry listed).imp_right fun ⟨other, otherIn, key, tells⟩ => ?_
  obtain ⟨id, there⟩ := List.mem_iff_getElem?.mp otherIn
  by_cases same : place = id
  · subst same
    rw [here] at there
    cases there
    have changed : (runs.modify place fun run => { run with outcome := some outcome })[place]? =
        some { run with outcome := some outcome } := by
      rw [List.getElem?_modify_eq, here]
      rfl
    exact ⟨_, List.mem_of_getElem? changed, key, tells.noted unknown (some outcome)⟩
  · exact ⟨other, List.mem_of_getElem? ((List.getElem?_modify_ne _ runs same).trans there), key,
      tells⟩

theorem set (right : textAt record (js "state") = some (js "pending") ∨
      ∃ run ∈ runs, run.recordKey = key ∧ Tells record run)
    (made : withMember (.object members) key record = .object after) : Owned runs after := by
  intro entry listed
  simp only [withMember] at made
  split at made
  · cases made
    obtain ⟨given, givenIn, same⟩ := List.mem_map.mp listed
    by_cases own : given.1 = key
    · rw [if_pos own] at same
      cases same
      exact right
    · rw [if_neg own] at same
      cases same
      exact owned entry givenIn
  · cases made
    rcases List.mem_append.mp listed with before | now
    · exact owned entry before
    · cases List.mem_singleton.mp now
      exact right

theorem prune {now : ℕ}
    (made : Service.prune now (.object members) = .object after) : Owned runs after := by
  cases made
  exact fun entry listed => owned entry (List.mem_filter.mp listed).1

theorem normal (made : normalizeJson (.object members) = .object after) : Owned runs after := by
  rw [normalizeJson, normalizeMembers_eq] at made
  cases made
  intro entry listed
  have sorted := (propertyOrder.mem_sort _ entry).mp listed
  obtain ⟨given, givenIn, rfl⟩ := List.mem_map.mp (List.mem_filter.mp sorted).1
  rcases owned given givenIn with pending | ⟨run, runIn, key, tells⟩
  · left
    rw [textAt_normalizeJson given.2 (by decide)]
    exact pending
  · exact .inr ⟨run, runIn, key, tells.normal⟩

end

end Owned

namespace Run

/-- The data of a run belong together. -/
structure Sound (run : Run numbers) (clock : ℕ) : Prop where
  scopeValid : requireString (some (.string run.scope)) "Mutation scope" 256 = .ok run.scope
  keyValid : requireString (some (.string run.key)) "Idempotency key" 200 = .ok run.key
  checked : run.checked ≤ clock
  retained : run.checked + retentionMs ≤ run.expiresAt
  exact_ : run.expiresAt ≤ maxSafeInteger
  recordKey : run.recordKey = recordKeyOf numbers run.scope run.key
  fingerprint : run.fingerprint = fingerprintJson numbers run.input.1

theorem Sound.later {run : Run numbers} {clock later : ℕ} (sound : run.Sound clock)
    (passed : clock ≤ later) : run.Sound later :=
  { sound with checked := sound.checked.trans passed }

/-- A call for the scope and the key of an earlier run is about the same record. -/
theorem Sound.recordKey_eq {run earlier : Run numbers} {clock : ℕ} (sound : earlier.Sound clock)
    (own : run.recordKey = recordKeyOf numbers run.scope run.key)
    (scope : run.call.scope = some (.string earlier.scope))
    (key : run.call.key = some (.string earlier.key)) : earlier.recordKey = run.recordKey := by
  have scopeIs : run.scope = earlier.scope := JsonValue.string.inj (Option.some.inj scope)
  have keyIs : run.key = earlier.key := JsonValue.string.inj (Option.some.inj key)
  rw [sound.recordKey, own, scopeIs, keyIs]

def Ends (run : Run numbers) (answer : Answer) : Prop :=
  (∃ response, run.outcome = some (.resolved (some response)) ∧ answer = .response response) ∨
    ∃ error, run.outcome = some (.rejected error) ∧
      (answer = .failure error ∨ ∃ failure, answer = .unwritten failure)

def Replays (run : Run numbers) (answer : Answer) : Prop :=
  answer = .conflict ∨
    (∃ response, run.outcome = some (.resolved (some response)) ∧
      answer = .response (cloneJson response)) ∨
    ∃ error, run.outcome = some (.rejected error) ∧ answer = .failure error

def Reports (run : Run numbers) (input : Option (Input numbers)) (answer : Answer) : Prop :=
  answer = .unread ∨ (input = none ∧ ∃ failure, answer = .refused failure) ∨
    ∃ given, input = some given ∧
      ((sameInput given run.input ∧ run.Replays answer) ∨
        (¬ sameInput given run.input ∧ answer = .mismatch))

def Responds (run : Run numbers) (call : MutationCall numbers) (response : JsonValue) : Prop :=
  call.scope = some (.string run.scope) ∧ call.key = some (.string run.key) ∧
    (∃ given, call.input = some given ∧ sameInput given run.input) ∧
    ∃ resolved, run.outcome = some (.resolved (some resolved)) ∧
      cloneJson response = cloneJson resolved

end Run

structure Judged (runs : List (Run numbers)) (entry : Answered numbers) : Prop where
  before : entry.before ≤ runs.length
  own : ∀ id, entry.own = some id → ∃ run, runs[id]? = some run ∧ entry.call = run.call ∧
    run.Ends entry.answer
  later : entry.own = none → ∀ (id : ℕ) (run : Run numbers), runs[id]? = some run →
    id < entry.before → entry.call.scope = some (.string run.scope) →
      entry.call.key = some (.string run.key) → entry.time < run.expiresAt →
        run.Reports entry.call.input entry.answer
  responds : ∀ response, entry.answer = .response response →
    ∃ run ∈ runs, run.Responds entry.call response

namespace Judged

variable {runs : List (Run numbers)} {entry : Answered numbers}

theorem append (judged : Judged runs entry) (run : Run numbers) :
    Judged (runs ++ [run]) entry where
  before := by
    have before := judged.before
    rw [List.length_append]
    omega
  own id owned := by
    obtain ⟨found, here, rest⟩ := judged.own id owned
    have inside : id < runs.length := (List.getElem?_eq_some_iff.mp here).1
    exact ⟨found, (List.getElem?_append_left inside).trans here, rest⟩
  later foreign id found here earlier := by
    have inside : id < runs.length := lt_of_lt_of_le earlier judged.before
    rw [List.getElem?_append_left inside] at here
    exact judged.later foreign id found here earlier
  responds response answered := by
    obtain ⟨found, listed, rest⟩ := judged.responds response answered
    exact ⟨found, List.mem_append_left _ listed, rest⟩

/-- An answer stays right when it becomes known how a run ended. -/
theorem note (judged : Judged runs entry) {place : ℕ} {run : Run numbers}
    (here : runs[place]? = some run) (unknown : run.outcome = none) (outcome : WorkOutcome) :
    Judged (runs.modify place fun run => { run with outcome := some outcome }) entry where
  before := by
    rw [List.length_modify]
    exact judged.before
  own id owned := by
    obtain ⟨found, there, call, ends⟩ := judged.own id owned
    have differs : place ≠ id := by
      rintro rfl
      rw [here] at there
      cases there
      rcases ends with ⟨response, known, -⟩ | ⟨error, known, -⟩
      · rw [unknown] at known
        cases known
      · rw [unknown] at known
        cases known
    exact ⟨found, (List.getElem?_modify_ne _ runs differs).trans there, call, ends⟩
  later foreign id found there earlier scope key early := by
    by_cases same : place = id
    · subst same
      rw [List.getElem?_modify_eq, here] at there
      cases there
      rcases judged.later foreign place run here earlier scope key early with
        unread | refused | ⟨given, asked, ⟨same, replays⟩ | differs⟩
      · exact .inl unread
      · exact .inr (.inl refused)
      · refine .inr (.inr ⟨given, asked, .inl ⟨same, ?_⟩⟩)
        rcases replays with conflict | ⟨response, known, -⟩ | ⟨error, known, -⟩
        · exact .inl conflict
        · rw [unknown] at known
          cases known
        · rw [unknown] at known
          cases known
      · exact .inr (.inr ⟨given, asked, .inr differs⟩)
    · rw [List.getElem?_modify_ne _ runs same] at there
      exact judged.later foreign id found there earlier scope key early
  responds response answered := by
    obtain ⟨found, listed, rest⟩ := judged.responds response answered
    obtain ⟨id, there⟩ := List.mem_iff_getElem?.mp listed
    have differs : place ≠ id := by
      rintro rfl
      rw [here] at there
      cases there
      obtain ⟨-, -, -, resolved, known, -⟩ := rest
      rw [unknown] at known
      cases known
    exact ⟨found, List.mem_of_getElem? ((List.getElem?_modify_ne _ runs differs).trans there), rest⟩

end Judged

namespace Coordinator

/-- What the books say about the call whose turn it is. -/
def Staged (durable : Bool) (coordinator : Coordinator numbers) : Prop :=
  match coordinator.stage with
  | .idle => True
  | .loading _ => durable = true
  | .opening run => coordinator.loaded = true ∧ run.Sound coordinator.clock ∧
      run.outcome = none ∧ coordinator.clock < run.expiresAt ∧ Held coordinator.records run ∧
      ∀ earlier ∈ coordinator.runs, earlier.recordKey = run.recordKey →
        earlier.expiresAt ≤ run.checked
  | .working id => coordinator.loaded = true ∧ ∃ run, coordinator.runs[id]? = some run ∧
      run.outcome = none ∧ coordinator.clock < run.expiresAt
  | .succeeding id response => coordinator.loaded = true ∧
      ∃ run, coordinator.runs[id]? = some run ∧ run.outcome = some (.resolved (some response))
  | .failing id error => coordinator.loaded = true ∧
      ∃ run, coordinator.runs[id]? = some run ∧ run.outcome = some (.rejected error)

/-- What the books say about the coordinator. -/
structure Kept (durable : Bool) (coordinator : Coordinator numbers) : Prop where
  table : ∃ members, coordinator.records = .object members ∧ Owned coordinator.runs members
  sound : ∀ run ∈ coordinator.runs, run.Sound coordinator.clock
  apart : coordinator.runs.Pairwise fun earlier later =>
    earlier.recordKey = later.recordKey → earlier.expiresAt ≤ later.checked
  told : coordinator.loaded = true → ∀ run ∈ coordinator.runs,
    coordinator.clock < run.expiresAt → Held coordinator.records run
  filed : Filed durable coordinator.runs coordinator.file coordinator.clock
  memory : durable = false → coordinator.loaded = true ∨
    ∀ run ∈ coordinator.runs, run.expiresAt ≤ coordinator.clock
  staged : coordinator.Staged durable
  judged : ∀ entry ∈ coordinator.answers, Judged coordinator.runs entry

variable {durable : Bool} {coordinator next : Coordinator numbers}

theorem kept_new : (new : Coordinator numbers).Kept durable where
  table := ⟨[], rfl, fun _ listed => absurd listed List.not_mem_nil⟩
  sound _ listed := absurd listed List.not_mem_nil
  apart := .nil
  told _ _ listed := absurd listed List.not_mem_nil
  filed := .inl ⟨rfl, fun _ _ listed => absurd listed List.not_mem_nil⟩
  memory _ := .inr fun _ listed => absurd listed List.not_mem_nil
  staged := trivial
  judged _ listed := absurd listed List.not_mem_nil

theorem Kept.respond (kept : coordinator.Kept durable) {call : MutationCall numbers} {time : ℕ}
    {own : Option ℕ} {answer : Answer}
    (right : Judged coordinator.runs ⟨call, time, coordinator.runs.length, own, answer⟩) :
    (coordinator.respond call time own answer).Kept durable :=
  { kept with
    staged := trivial
    judged := by
      exact forall_mem_concat kept.judged right }

theorem Kept.unlike (kept : coordinator.Kept durable) {first second : ℕ} {run twin : Run numbers}
    (here : coordinator.runs[first]? = some run) (there : coordinator.runs[second]? = some twin)
    (differ : first ≠ second) (early : coordinator.clock < run.expiresAt)
    (earlyToo : coordinator.clock < twin.expiresAt) : run.recordKey ≠ twin.recordKey := by
  obtain ⟨firstIn, runIs⟩ := List.getElem?_eq_some_iff.mp here
  obtain ⟨secondIn, twinIs⟩ := List.getElem?_eq_some_iff.mp there
  have runSound := kept.sound run (List.mem_of_getElem? here)
  have twinSound := kept.sound twin (List.mem_of_getElem? there)
  intro same
  have apart := List.pairwise_iff_getElem.mp kept.apart
  rcases Nat.lt_or_gt_of_ne differ with less | more
  · have ordered := apart first second firstIn secondIn less
    rw [runIs, twinIs] at ordered
    have over' := ordered same
    have checked := twinSound.checked
    omega
  · have ordered := apart second first secondIn firstIn more
    rw [runIs, twinIs] at ordered
    have over' := ordered same.symm
    have checked := runSound.checked
    omega

end Coordinator

end Holonomy.Service
