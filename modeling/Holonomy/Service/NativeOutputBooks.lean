import Holonomy.Foundation.Json
import Holonomy.Foundation.Machine
import Holonomy.Foundation.Tallies

/-!
# The books of the pool of native output

The pool's counts are those of its entries, and each record holds its entries in their order.
Eviction takes the first event of a record out of both, and making room ends with room.
-/

namespace Holonomy.Service

open Foundation

/-! ## The pool of native output

Adapters stage the output of processes in records of one pool.
-/

/-- The limits of a pool. -/
structure OutputLimits where
  maxBytes : ℕ
  maxRecordBytes : ℕ
  maxEvents : ℕ
  maxRecordEvents : ℕ

structure OutputEvent where
  chunk : Text
  sequence : ℕ
  stream : Text
deriving DecidableEq

/-- What the pool and its owner keep of one process. -/
structure OutputRecord where
  logs : List OutputEvent
  logBytes : ℕ
  nextSequence : ℕ
  outputRetired : Bool

def OutputRecord.new : OutputRecord := ⟨[], 0, 1, false⟩

structure PoolEntry where
  record : ℕ
  event : OutputEvent
  bytes : ℕ
deriving DecidableEq

def PoolEntry.key (entry : PoolEntry) : ℕ × ℕ := (entry.record, entry.event.sequence)

structure NativeOutputPool where
  entries : List PoolEntry
  bytes : ℕ
  records : ℕ → OutputRecord

namespace NativeOutputPool

def new : NativeOutputPool := ⟨[], 0, fun _ => .new⟩

def setRecord (pool : NativeOutputPool) (record : ℕ) (content : OutputRecord) : NativeOutputPool :=
  { pool with records := Function.update pool.records record content }

def evict (pool : NativeOutputPool) (record : ℕ) (event : OutputEvent) : NativeOutputPool :=
  match pool.entries.find? fun entry => entry.key = (record, event.sequence) with
  | none => pool
  | some entry =>
    let kept := pool.records entry.record
    { entries := without PoolEntry.key (record, event.sequence) pool.entries
      bytes := pool.bytes - entry.bytes
      records := Function.update pool.records entry.record
        { kept with logs := kept.logs.tail, logBytes := kept.logBytes - entry.bytes } }

/-- The number of bytes that a chunk counts for. -/
def sizeOf (chunk : Text) : ℕ := utf8ByteLength chunk + 64

def makeRecordRoom (limits : OutputLimits) (record bytes : ℕ) :
    ℕ → NativeOutputPool → NativeOutputPool
  | 0, pool => pool
  | turns + 1, pool =>
    let kept := pool.records record
    match kept.logs with
    | [] => pool
    | first :: _ =>
      if kept.logBytes + bytes > limits.maxRecordBytes ∨ kept.logs.length ≥ limits.maxRecordEvents
      then makeRecordRoom limits record bytes turns (pool.evict record first)
      else pool

def makePoolRoom (limits : OutputLimits) (bytes : ℕ) : ℕ → NativeOutputPool → NativeOutputPool
  | 0, pool => pool
  | turns + 1, pool =>
    match pool.entries with
    | [] => pool
    | first :: _ =>
      if pool.bytes + bytes > limits.maxBytes ∨ pool.entries.length ≥ limits.maxEvents
      then makePoolRoom limits bytes turns (pool.evict first.record first.event)
      else pool

def insert (pool : NativeOutputPool) (record bytes : ℕ) (event : OutputEvent) : NativeOutputPool :=
  let kept := pool.records record
  { entries := pool.entries ++ [⟨record, event, bytes⟩]
    bytes := pool.bytes + bytes
    records := Function.update pool.records record
      { kept with logs := kept.logs ++ [event], logBytes := kept.logBytes + bytes } }

def takeNumber (pool : NativeOutputPool) (record : ℕ) : NativeOutputPool :=
  pool.setRecord record
    { pool.records record with nextSequence := (pool.records record).nextSequence + 1 }

def nextEvent (pool : NativeOutputPool) (record : ℕ) (stream chunk : Text) : OutputEvent :=
  ⟨chunk, (pool.records record).nextSequence, stream⟩

/-- No room can be made for the chunk. -/
def isTooLarge (limits : OutputLimits) (chunk : Text) : Bool :=
  sizeOf chunk > limits.maxRecordBytes || sizeOf chunk > limits.maxBytes

def append (limits : OutputLimits) (pool : NativeOutputPool) (record : ℕ) (stream chunk : Text) :
    NativeOutputPool :=
  if (pool.records record).outputRetired then pool
  else
    let numbered := pool.takeNumber record
    if isTooLarge limits chunk then numbered
    else
      let bytes := sizeOf chunk
      let roomy := makeRecordRoom limits record bytes (numbered.records record).logs.length numbered
      let free := makePoolRoom limits bytes roomy.entries.length roomy
      free.insert record bytes (pool.nextEvent record stream chunk)

def evictAll (record : ℕ) : ℕ → NativeOutputPool → NativeOutputPool
  | 0, pool => pool
  | turns + 1, pool =>
    match (pool.records record).logs with
    | [] => pool
    | first :: _ => evictAll record turns (pool.evict record first)

def release (pool : NativeOutputPool) (record : ℕ) : NativeOutputPool :=
  let retired := pool.setRecord record { pool.records record with outputRetired := true }
  evictAll record (pool.records record).logs.length retired

end NativeOutputPool

section Paging

variable (numbers : NumberFormat)

def maxPageBytes : ℕ := 512 * 1024

def OutputEvent.json (event : OutputEvent) : JsonValue :=
  .object [(js "chunk", .string event.chunk), (js "sequence", .number event.sequence),
    (js "stream", .string event.stream)]

/-- What an event adds to a page. -/
def OutputEvent.cost (event : OutputEvent) : ℕ :=
  utf8ByteLength (JsonValue.stringify numbers event.json) + 1

def dropNotice (first count : ℕ) : OutputEvent where
  sequence := first - 1
  stream := js "stderr"
  chunk := js "[Holonomy Native output dropped " ++ numbers.write count ++
    js " source events]" ++ [0x0A]

def pageEvents (after limit : ℕ) : ℕ → ℕ → List OutputEvent → List OutputEvent
  | _, _, [] => []
  | count, bytes, event :: logs =>
    if event.sequence ≤ after then pageEvents after limit count bytes logs
    else if count ≥ limit ∨ bytes + event.cost numbers > maxPageBytes then []
    else event :: pageEvents after limit (count + 1) (bytes + event.cost numbers) logs

def OutputRecord.first (record : OutputRecord) : ℕ :=
  match record.logs with
  | [] => record.nextSequence
  | event :: _ => event.sequence

def OutputRecord.dropped (record : OutputRecord) (after limit : ℕ) : ℕ :=
  if record.first > after + 1 ∧ limit > 0 then record.first - after - 1 else 0

/-- The notice at the head of a page. -/
def OutputRecord.notice (record : OutputRecord) (after limit : ℕ) : List OutputEvent :=
  if record.dropped after limit = 0 then []
  else [dropNotice numbers record.first (record.dropped after limit)]

def OutputRecord.taken (record : OutputRecord) (after limit : ℕ) : List OutputEvent :=
  let notice := record.notice numbers after limit
  pageEvents numbers after limit notice.length (128 + tally (OutputEvent.cost numbers) notice)
    record.logs

def OutputRecord.page (record : OutputRecord) (after limit : ℕ) : List OutputEvent :=
  record.notice numbers after limit ++ record.taken numbers after limit

def OutputRecord.cursor (record : OutputRecord) (after limit : ℕ) : ℕ :=
  match (record.page numbers after limit).getLast? with
  | none => after
  | some event => event.sequence

end Paging

inductive Received where
  | event (event : OutputEvent)
  | dropped (after count : ℕ)
deriving DecidableEq

/-- The numbers that something given accounts for. -/
def Received.numbers : Received → List ℕ
  | .event found => [found.sequence]
  | .dropped after count => List.range' (after + 1) count

structure Reading where
  pool : NativeOutputPool
  cursors : ℕ → ℕ
  appended : ℕ → List OutputEvent
  given : ℕ → List Received

/-- What happens to a pool. -/
inductive PoolEvent where
  | append (record : ℕ) (stream chunk : Text)
  | release (record : ℕ)
  | page (record limit : ℕ)

namespace Reading

def pageGives (numbers : NumberFormat) (record : OutputRecord) (after limit : ℕ) : List Received :=
  (if record.dropped after limit = 0 then [] else [.dropped after (record.dropped after limit)]) ++
    (record.taken numbers after limit).map .event

def step (numbers : NumberFormat) (limits : OutputLimits) (state : Reading) :
    PoolEvent → Option Reading
  | .append record stream chunk =>
    if (state.pool.records record).outputRetired then some state
    else some { state with
      pool := state.pool.append limits record stream chunk
      appended := Function.update state.appended record
        (state.appended record ++ [state.pool.nextEvent record stream chunk]) }
  | .release record => some { state with pool := state.pool.release record }
  | .page record limit =>
    let after := state.cursors record
    let content := state.pool.records record
    if limit < 2 then none
    else some { state with
      cursors := Function.update state.cursors record (content.cursor numbers after limit)
      given := Function.update state.given record
        (state.given record ++ pageGives numbers content after limit) }

def machine (numbers : NumberFormat) (limits : OutputLimits) : Machine Reading PoolEvent where
  start := ⟨.new, fun _ => 0, fun _ => [], fun _ => []⟩
  step := step numbers limits

end Reading

namespace NativeOutputPool

def entriesOf (pool : NativeOutputPool) (record : ℕ) : List PoolEntry :=
  pool.entries.filter fun entry => entry.record = record

/-- The counts are those of the entries. -/
structure Balanced (pool : NativeOutputPool) : Prop where
  once : (pool.entries.map PoolEntry.key).Nodup
  fresh : ∀ entry ∈ pool.entries,
    entry.event.sequence < (pool.records entry.record).nextSequence
  logs : ∀ record, (pool.records record).logs = (pool.entriesOf record).map PoolEntry.event
  logBytes : ∀ record, (pool.records record).logBytes = tally PoolEntry.bytes
    (pool.entriesOf record)
  bytes : pool.bytes = tally PoolEntry.bytes pool.entries

structure Within (limits : OutputLimits) (pool : NativeOutputPool) : Prop where
  bytes : pool.bytes ≤ limits.maxBytes
  events : pool.entries.length ≤ limits.maxEvents
  recordBytes : ∀ record, (pool.records record).logBytes ≤ limits.maxRecordBytes
  recordEvents : ∀ record, (pool.records record).logs.length ≤ limits.maxRecordEvents

/-- Events were taken out, the first ones of each record; nothing else has changed. -/
structure Trims (pool trimmed : NativeOutputPool) : Prop where
  entries : trimmed.entries.Sublist pool.entries
  bytes : trimmed.bytes ≤ pool.bytes
  logs : ∀ record, ∃ count, (trimmed.records record).logs = (pool.records record).logs.drop count
  logBytes : ∀ record, (trimmed.records record).logBytes ≤ (pool.records record).logBytes
  nextSequence : ∀ record,
    (trimmed.records record).nextSequence = (pool.records record).nextSequence
  retired : ∀ record, (trimmed.records record).outputRetired = (pool.records record).outputRetired

theorem Trims.refl (pool : NativeOutputPool) : Trims pool pool :=
  ⟨.refl _, le_rfl, fun _ => ⟨0, rfl⟩, fun _ => le_rfl, fun _ => rfl, fun _ => rfl⟩

theorem Trims.trans {first second third : NativeOutputPool} (left : Trims first second)
    (right : Trims second third) : Trims first third where
  entries := right.entries.trans left.entries
  bytes := right.bytes.trans left.bytes
  logs record := by
    obtain ⟨count, one⟩ := left.logs record
    obtain ⟨more, other⟩ := right.logs record
    exact ⟨count + more, by rw [other, one, List.drop_drop]⟩
  logBytes record := (right.logBytes record).trans (left.logBytes record)
  nextSequence record := (right.nextSequence record).trans (left.nextSequence record)
  retired record := (right.retired record).trans (left.retired record)

variable {pool : NativeOutputPool} {record : ℕ}

theorem Balanced.first (balanced : pool.Balanced)
    {first : OutputEvent} {rest : List OutputEvent}
    (head : (pool.records record).logs = first :: rest) :
    ∃ entry ∈ pool.entries, entry.record = record ∧ entry.event = first ∧
      (pool.entries.find? fun entry => entry.key = (record, first.sequence)) = some entry ∧
      ∃ others, pool.entriesOf record = entry :: others ∧ others.map PoolEntry.event = rest := by
  have listed := balanced.logs record
  rw [head] at listed
  cases found : pool.entriesOf record with
  | nil =>
    rw [found] at listed
    cases listed
  | cons entry others =>
    rw [found, List.map_cons, List.cons.injEq] at listed
    have member : entry ∈ pool.entriesOf record := by
      rw [found]
      exact List.mem_cons_self
    have both := List.mem_filter.mp member
    have owner : entry.record = record := of_decide_eq_true both.2
    have key : entry.key = (record, first.sequence) := by
      rw [PoolEntry.key, owner, listed.1]
    refine ⟨entry, both.1, owner, listed.1.symm, ?_, others, rfl, listed.2.symm⟩
    cases search : pool.entries.find? fun entry => entry.key = (record, first.sequence) with
    | none =>
      have absent := List.find?_eq_none.mp search entry both.1
      exact absurd (decide_eq_true key) absent
    | some other =>
      have keyToo := List.find?_some search
      have otherKey : other.key = (record, first.sequence) := of_decide_eq_true keyToo
      have otherIn := List.mem_of_find?_eq_some search
      rw [List.inj_on_of_nodup_map balanced.once otherIn both.1 (otherKey.trans key.symm)]

theorem filter_without {entries : List PoolEntry} (record : ℕ) (key : ℕ × ℕ) :
    (without PoolEntry.key key entries).filter (fun entry => entry.record = record) =
      without PoolEntry.key key (entries.filter fun entry => entry.record = record) := by
  unfold without
  rw [List.filter_filter, List.filter_filter]
  apply List.filter_congr
  intro entry _
  exact Bool.and_comm _ _

theorem Balanced.evict (balanced : pool.Balanced)
    {first : OutputEvent} {rest : List OutputEvent}
    (head : (pool.records record).logs = first :: rest) :
    (pool.evict record first).Balanced ∧ Trims pool (pool.evict record first) ∧
      (pool.evict record first).entries.length + 1 = pool.entries.length ∧
      ((pool.evict record first).records record).logs = rest := by
  obtain ⟨entry, entryIn, owner, isFirst, found, others, list, tail⟩ := balanced.first head
  have key : entry.key = (record, first.sequence) := by rw [PoolEntry.key, owner, isFirst]
  have outcome : pool.evict record first =
      { entries := without PoolEntry.key (record, first.sequence) pool.entries
        bytes := pool.bytes - entry.bytes
        records := Function.update pool.records record
          { pool.records record with
            logs := (pool.records record).logs.tail
            logBytes := (pool.records record).logBytes - entry.bytes } } := by
    rw [NativeOutputPool.evict, found]
    simp only [owner]
  have weighs : tally PoolEntry.bytes pool.entries = entry.bytes +
      tally PoolEntry.bytes (without PoolEntry.key entry.key pool.entries) :=
    tally_without balanced.once entryIn
  have perm := perm_cons_without balanced.once entryIn
  rw [key] at weighs perm
  have ownEntries : without PoolEntry.key (record, first.sequence) (pool.entriesOf record) =
      others := by
    have once : ((pool.entriesOf record).map PoolEntry.key).Nodup :=
      balanced.once.sublist (List.filter_sublist.map _)
    rw [list, List.map_cons, List.nodup_cons] at once
    rw [list, without, List.filter_cons_of_neg (by rw [key]; simp)]
    apply List.filter_eq_self.mpr
    intro other otherIn
    apply decide_eq_true
    intro clash
    rw [key] at once
    exact once.1 (List.mem_map.mpr ⟨other, otherIn, clash⟩)
  have foreign : ∀ other, other ≠ record →
      without PoolEntry.key (record, first.sequence) (pool.entriesOf other) =
        pool.entriesOf other := by
    intro other differs
    apply List.filter_eq_self.mpr
    intro item itemIn
    apply decide_eq_true
    intro clash
    have itemOwner : item.record = other := of_decide_eq_true (List.mem_filter.mp itemIn).2
    exact differs (itemOwner.symm.trans (congrArg Prod.fst clash))
  have ownBytes := balanced.logBytes record
  rw [list, tally_cons] at ownBytes
  rw [outcome]
  refine ⟨⟨?_, ?_, ?_, ?_, ?_⟩, ⟨?_, ?_, ?_, ?_, ?_, ?_⟩, ?_, ?_⟩
  · exact balanced.once.sublist ((without_sublist _).map _)
  · intro item itemIn
    have fresh := balanced.fresh item (of_mem_without itemIn).1
    simp only [Function.update_apply]
    split_ifs with same
    · rw [same] at fresh
      exact fresh
    · exact fresh
  · intro other
    simp only [entriesOf, filter_without, Function.update_apply]
    split_ifs with same
    · rw [same]
      change (pool.records record).logs.tail =
        (without PoolEntry.key (record, first.sequence) (pool.entriesOf record)).map PoolEntry.event
      rw [ownEntries, tail, head, List.tail_cons]
    · have kept := foreign other same
      unfold entriesOf at kept
      rw [kept]
      exact balanced.logs other
  · intro other
    simp only [entriesOf, filter_without, Function.update_apply]
    split_ifs with same
    · rw [same]
      change (pool.records record).logBytes - entry.bytes =
        tally PoolEntry.bytes
          (without PoolEntry.key (record, first.sequence) (pool.entriesOf record))
      rw [ownEntries, ownBytes, Nat.add_sub_cancel_left]
    · have kept := foreign other same
      unfold entriesOf at kept
      rw [kept]
      exact balanced.logBytes other
  · simp only
    rw [balanced.bytes, weighs, Nat.add_sub_cancel_left]
  · exact without_sublist _
  · exact Nat.sub_le _ _
  · intro other
    simp only [Function.update_apply]
    split_ifs with same
    · rw [same]
      exact ⟨1, List.drop_one.symm⟩
    · exact ⟨0, rfl⟩
  · intro other
    simp only [Function.update_apply]
    split_ifs with same
    · rw [same]
      exact Nat.sub_le _ _
    · exact le_rfl
  · intro other
    simp only [Function.update_apply]
    split_ifs with same
    · rw [same]
    · rfl
  · intro other
    simp only [Function.update_apply]
    split_ifs with same
    · rw [same]
    · rfl
  · have lengths := perm.length_eq
    rw [List.length_cons] at lengths
    exact lengths.symm
  · simp only [Function.update_self, head, List.tail_cons]

def hasRecordRoom (limits : OutputLimits) (bytes : ℕ) (record : OutputRecord) : Prop :=
  record.logBytes + bytes ≤ limits.maxRecordBytes ∧ record.logs.length < limits.maxRecordEvents

theorem Balanced.makeRecordRoom (limits : OutputLimits) (record bytes : ℕ) {turns : ℕ}
    (balanced : pool.Balanced)
    (enough : (pool.records record).logs.length ≤ turns) :
    (makeRecordRoom limits record bytes turns pool).Balanced ∧
      Trims pool (makeRecordRoom limits record bytes turns pool) ∧
      (((makeRecordRoom limits record bytes turns pool).records record).logs = [] ∨
        hasRecordRoom limits bytes
          ((makeRecordRoom limits record bytes turns pool).records record)) := by
  induction turns generalizing pool with
  | zero =>
    have empty := List.eq_nil_of_length_eq_zero (Nat.le_zero.mp enough)
    exact ⟨balanced, .refl pool, .inl empty⟩
  | succ turns ih =>
    rw [NativeOutputPool.makeRecordRoom]
    cases head : (pool.records record).logs with
    | nil => exact ⟨balanced, .refl pool, .inl head⟩
    | cons first rest =>
      simp only
      split_ifs with full
      · obtain ⟨still, trims, -, left⟩ := balanced.evict head
        rw [head, List.length_cons] at enough
        have fewer : ((pool.evict record first).records record).logs.length ≤ turns := by
          rw [left]
          omega
        have more := ih still fewer
        exact ⟨more.1, trims.trans more.2.1, more.2.2⟩
      · refine ⟨balanced, .refl pool, .inr ?_⟩
        rw [← head] at full
        constructor
        · omega
        · omega

theorem Balanced.makePoolRoom (limits : OutputLimits) (bytes : ℕ) {turns : ℕ}
    (balanced : pool.Balanced) (enough : pool.entries.length ≤ turns) :
    (makePoolRoom limits bytes turns pool).Balanced ∧
      Trims pool (makePoolRoom limits bytes turns pool) ∧
      ((makePoolRoom limits bytes turns pool).entries = [] ∨
        (makePoolRoom limits bytes turns pool).bytes + bytes ≤ limits.maxBytes ∧
          (makePoolRoom limits bytes turns pool).entries.length < limits.maxEvents) := by
  induction turns generalizing pool with
  | zero =>
    have empty := List.eq_nil_of_length_eq_zero (Nat.le_zero.mp enough)
    exact ⟨balanced, .refl pool, .inl empty⟩
  | succ turns ih =>
    rw [NativeOutputPool.makePoolRoom]
    cases whole : pool.entries with
    | nil => exact ⟨balanced, .refl pool, .inl whole⟩
    | cons first rest =>
      simp only
      split_ifs with full
      · have head : (pool.records first.record).logs =
            first.event :: ((rest.filter fun entry => entry.record = first.record).map
              PoolEntry.event) := by
          rw [balanced.logs, entriesOf, whole, List.filter_cons_of_pos (by simp), List.map_cons]
        obtain ⟨still, trims, fewer, -⟩ := balanced.evict head
        have more := ih still (by omega)
        exact ⟨more.1, trims.trans more.2.1, more.2.2⟩
      · refine ⟨balanced, .refl pool, .inr ?_⟩
        rw [← whole] at full
        constructor
        · omega
        · omega

theorem Balanced.takeNumber (balanced : pool.Balanced) (record : ℕ) :
    (pool.takeNumber record).Balanced where
  once := balanced.once
  fresh entry entryIn := by
    have fresh := balanced.fresh entry entryIn
    simp only [NativeOutputPool.takeNumber, setRecord, Function.update_apply]
    split_ifs with same
    · rw [same] at fresh
      exact Nat.lt_succ_of_lt fresh
    · exact fresh
  logs other := by
    simp only [NativeOutputPool.takeNumber, setRecord, Function.update_apply]
    split_ifs with same
    · rw [same]
      exact balanced.logs record
    · exact balanced.logs other
  logBytes other := by
    simp only [NativeOutputPool.takeNumber, setRecord, Function.update_apply]
    split_ifs with same
    · rw [same]
      exact balanced.logBytes record
    · exact balanced.logBytes other
  bytes := balanced.bytes

/-- Putting in an event of a new number keeps the books. -/
theorem Balanced.insert (balanced : pool.Balanced) {record bytes : ℕ}
    {event : OutputEvent} (fresh : event.sequence < (pool.records record).nextSequence)
    (unused : (record, event.sequence) ∉ pool.entries.map PoolEntry.key) :
    (pool.insert record bytes event).Balanced where
  once := by
    change ((pool.entries ++ [PoolEntry.mk record event bytes]).map PoolEntry.key).Nodup
    rw [List.map_append, List.map_singleton]
    have front : ((record, event.sequence) :: pool.entries.map PoolEntry.key).Nodup :=
      List.nodup_cons.mpr ⟨unused, balanced.once⟩
    exact List.nodup_append_comm.mp front
  fresh entry entryIn := by
    have numbers : ((pool.insert record bytes event).records entry.record).nextSequence =
        (pool.records entry.record).nextSequence := by
      simp only [NativeOutputPool.insert, Function.update_apply]
      split_ifs with same
      · rw [same]
      · rfl
    rw [numbers]
    have listed : entry ∈ pool.entries ++ [⟨record, event, bytes⟩] := entryIn
    exact forall_mem_concat balanced.fresh fresh entry listed
  logs other := by
    simp only [NativeOutputPool.insert, entriesOf, Function.update_apply, List.filter_append]
    split_ifs with same
    · rw [same, List.filter_singleton, decide_eq_true rfl, List.map_append]
      exact congrArg (· ++ [event]) (balanced.logs record)
    · have differs : ¬ record = other := fun clash => same clash.symm
      rw [List.filter_singleton, decide_eq_false differs, cond_false, List.append_nil]
      exact balanced.logs other
  logBytes other := by
    simp only [NativeOutputPool.insert, entriesOf, Function.update_apply, List.filter_append]
    split_ifs with same
    · rw [same, List.filter_singleton, decide_eq_true rfl, tally_append]
      exact congrArg (· + bytes) (balanced.logBytes record)
    · have differs : ¬ record = other := fun clash => same clash.symm
      rw [List.filter_singleton, decide_eq_false differs, cond_false, List.append_nil]
      exact balanced.logBytes other
  bytes := by
    simp only [NativeOutputPool.insert, tally_append, balanced.bytes, tally_cons, tally_nil,
      Nat.add_zero]

theorem Balanced.weightless (balanced : pool.Balanced)
    (nothing : (pool.records record).logs = []) : (pool.records record).logBytes = 0 := by
  have listed := balanced.logs record
  rw [nothing] at listed
  rw [balanced.logBytes, List.map_eq_nil_iff.mp listed.symm, tally_nil]

variable {limits : OutputLimits}

theorem Within.trims {pool trimmed : NativeOutputPool}
    (within : pool.Within limits) (trims : Trims pool trimmed) : trimmed.Within limits where
  bytes := trims.bytes.trans within.bytes
  events := trims.entries.length_le.trans within.events
  recordBytes record := (trims.logBytes record).trans (within.recordBytes record)
  recordEvents record := by
    obtain ⟨count, left⟩ := trims.logs record
    rw [left, List.length_drop]
    exact (Nat.sub_le _ _).trans (within.recordEvents record)

structure HasRoom (limits : OutputLimits) (record bytes : ℕ) (pool : NativeOutputPool) : Prop where
  balanced : pool.Balanced
  recordBytes : (pool.records record).logBytes + bytes ≤ limits.maxRecordBytes
  recordEvents : (pool.records record).logs.length < limits.maxRecordEvents
  bytes : pool.bytes + bytes ≤ limits.maxBytes
  events : pool.entries.length < limits.maxEvents

theorem append_cases (record : ℕ) (stream chunk : Text) (balanced : pool.Balanced)
    (open' : (pool.records record).outputRetired = false)
    (some' : isTooLarge limits chunk = false → 0 < limits.maxEvents ∧ 0 < limits.maxRecordEvents) :
    (isTooLarge limits chunk = true ∧
      pool.append limits record stream chunk = pool.takeNumber record) ∨
    isTooLarge limits chunk = false ∧ ∃ free : NativeOutputPool,
      free.HasRoom limits record (sizeOf chunk) ∧ Trims (pool.takeNumber record) free ∧
      pool.append limits record stream chunk =
        free.insert record (sizeOf chunk) (pool.nextEvent record stream chunk) := by
  cases large : isTooLarge limits chunk with
  | true =>
    left
    simp [append, open', large]
  | false =>
    right
    have fits : sizeOf chunk ≤ limits.maxRecordBytes ∧ sizeOf chunk ≤ limits.maxBytes := by
      simpa [isTooLarge] using large
    have numbered := balanced.takeNumber record
    obtain ⟨first, firstTrims, firstRoom⟩ :=
      numbered.makeRecordRoom limits record (sizeOf chunk) le_rfl
    obtain ⟨second, secondTrims, secondRoom⟩ := first.makePoolRoom limits (sizeOf chunk) le_rfl
    obtain ⟨count, left⟩ := secondTrims.logs record
    have lighter := secondTrims.logBytes record
    have shorter := congrArg List.length left
    rw [List.length_drop] at shorter
    refine ⟨rfl, _, ⟨second, ?_, ?_, ?_, ?_⟩, firstTrims.trans secondTrims, ?_⟩
    · rcases firstRoom with nothing | room
      · have weightless := first.weightless nothing
        omega
      · have space := room.1
        omega
    · rcases firstRoom with nothing | room
      · have positive := (some' large).2
        rw [nothing, List.length_nil] at shorter
        omega
      · have space := room.2
        omega
    · rcases secondRoom with nothing | room
      · rw [second.bytes, nothing, tally_nil]
        omega
      · exact room.1
    · rcases secondRoom with nothing | room
      · rw [nothing]
        exact (some' large).1
      · exact room.2
    · simp [append, open', large]

theorem Balanced.unused (balanced : pool.Balanced) (record : ℕ) :
    (record, (pool.records record).nextSequence) ∉ pool.entries.map PoolEntry.key := by
  intro listed
  obtain ⟨entry, entryIn, key⟩ := List.mem_map.mp listed
  have fresh := balanced.fresh entry entryIn
  have owner : entry.record = record := congrArg Prod.fst key
  have number : entry.event.sequence = (pool.records record).nextSequence := congrArg Prod.snd key
  rw [owner, number] at fresh
  exact Nat.lt_irrefl _ fresh

theorem nextSequence_takeNumber (pool : NativeOutputPool) (record other : ℕ) :
    ((pool.takeNumber record).records other).nextSequence =
      (pool.records other).nextSequence + if other = record then 1 else 0 := by
  simp only [takeNumber, setRecord, Function.update_apply]
  split_ifs with same
  · rw [same]
  · rfl

theorem takeNumber_records (pool : NativeOutputPool) (record other : ℕ) :
    ((pool.takeNumber record).records other).logs = (pool.records other).logs ∧
      ((pool.takeNumber record).records other).logBytes = (pool.records other).logBytes ∧
      ((pool.takeNumber record).records other).outputRetired =
        (pool.records other).outputRetired := by
  simp only [takeNumber, setRecord, Function.update_apply]
  split_ifs with same
  · rw [same]
    exact ⟨rfl, rfl, rfl⟩
  · exact ⟨rfl, rfl, rfl⟩

theorem Balanced.append (balanced : pool.Balanced)
    (within : pool.Within limits) (record : ℕ) (stream chunk : Text)
    (some' : (pool.records record).outputRetired = false → isTooLarge limits chunk = false →
      0 < limits.maxEvents ∧ 0 < limits.maxRecordEvents) :
    (pool.append limits record stream chunk).Balanced ∧
      (pool.append limits record stream chunk).Within limits := by
  have numberedWithin : (pool.takeNumber record).Within limits := by
    refine ⟨within.bytes, within.events, fun other => ?_, fun other => ?_⟩
    · rw [(takeNumber_records pool record other).2.1]
      exact within.recordBytes other
    · rw [(takeNumber_records pool record other).1]
      exact within.recordEvents other
  cases retired : (pool.records record).outputRetired with
  | true =>
    have same : pool.append limits record stream chunk = pool := by
      simp [NativeOutputPool.append, retired]
    rw [same]
    exact ⟨balanced, within⟩
  | false =>
    rcases append_cases record stream chunk balanced retired (some' retired) with
      ⟨-, same⟩ | ⟨-, free, room, trims, same⟩
    · rw [same]
      exact ⟨balanced.takeNumber record, numberedWithin⟩
    · rw [same]
      have next : (free.records record).nextSequence = (pool.records record).nextSequence + 1 := by
        rw [trims.nextSequence, nextSequence_takeNumber, if_pos rfl]
      constructor
      · apply room.balanced.insert
        · rw [next]
          exact Nat.lt_succ_self _
        · intro listed
          exact balanced.unused record ((trims.entries.map PoolEntry.key).subset listed)
      · have freeWithin := numberedWithin.trims trims
        refine ⟨room.bytes, ?_, fun other => ?_, fun other => ?_⟩
        · simp only [NativeOutputPool.insert, List.length_append, List.length_singleton]
          exact room.events
        · simp only [NativeOutputPool.insert, Function.update_apply]
          split_ifs with own
          · exact room.recordBytes
          · exact freeWithin.recordBytes other
        · simp only [NativeOutputPool.insert, Function.update_apply]
          split_ifs with own
          · simp only [List.length_append, List.length_singleton]
            exact room.recordEvents
          · exact freeWithin.recordEvents other

theorem Balanced.evictAll {record turns : ℕ} (balanced : pool.Balanced)
    (enough : (pool.records record).logs.length ≤ turns) :
    (evictAll record turns pool).Balanced ∧ Trims pool (evictAll record turns pool) ∧
      ((evictAll record turns pool).records record).logs = [] := by
  induction turns generalizing pool with
  | zero => exact ⟨balanced, .refl pool, List.eq_nil_of_length_eq_zero (Nat.le_zero.mp enough)⟩
  | succ turns ih =>
    rw [NativeOutputPool.evictAll]
    cases head : (pool.records record).logs with
    | nil => exact ⟨balanced, .refl pool, head⟩
    | cons first rest =>
      obtain ⟨still, trims, -, left⟩ := balanced.evict head
      rw [head, List.length_cons] at enough
      have more := ih still (by rw [left]; omega)
      exact ⟨more.1, trims.trans more.2.1, more.2.2⟩

def retire (pool : NativeOutputPool) (record : ℕ) : NativeOutputPool :=
  pool.setRecord record { pool.records record with outputRetired := true }

theorem retire_records (pool : NativeOutputPool) (record other : ℕ) :
    ((pool.retire record).records other).logs = (pool.records other).logs ∧
      ((pool.retire record).records other).logBytes = (pool.records other).logBytes ∧
      ((pool.retire record).records other).nextSequence = (pool.records other).nextSequence := by
  simp only [retire, setRecord, Function.update_apply]
  split_ifs with same
  · rw [same]
    exact ⟨rfl, rfl, rfl⟩
  · exact ⟨rfl, rfl, rfl⟩

theorem Balanced.release (balanced : pool.Balanced) (record : ℕ) :
    (pool.release record).Balanced ∧ Trims (pool.retire record) (pool.release record) ∧
      ((pool.release record).records record).logs = [] := by
  have same := retire_records pool record
  have retired : (pool.retire record).Balanced := by
    refine ⟨balanced.once, fun entry entryIn => ?_, fun other => ?_, fun other => ?_,
      balanced.bytes⟩
    · rw [(same _).2.2]
      exact balanced.fresh entry entryIn
    · rw [(same other).1]
      exact balanced.logs other
    · rw [(same other).2.1]
      exact balanced.logBytes other
  apply retired.evictAll
  rw [(same record).1]

theorem Balanced.new : NativeOutputPool.new.Balanced :=
  ⟨List.nodup_nil, fun _ entryIn => absurd entryIn List.not_mem_nil, fun _ => rfl,
    fun _ => rfl, rfl⟩

theorem Balanced.sums (balanced : pool.Balanced) {records : List ℕ}
    (once : records.Nodup) (all : ∀ record, (pool.records record).logs ≠ [] → record ∈ records) :
    pool.bytes = tally (fun record => (pool.records record).logBytes) records ∧
      pool.entries.length = tally (fun record => (pool.records record).logs.length) records := by
  have owners : ∀ entry ∈ pool.entries, entry.record ∈ records := by
    intro entry entryIn
    apply all
    rw [balanced.logs]
    intro empty
    have member : entry ∈ pool.entriesOf entry.record :=
      List.mem_filter.mpr ⟨entryIn, decide_eq_true rfl⟩
    rw [List.map_eq_nil_iff.mp empty] at member
    cases member
  have bytes := tally_by_key PoolEntry.record once owners PoolEntry.bytes
  have counts := tally_by_key PoolEntry.record once owners fun _ => 1
  constructor
  · rw [balanced.bytes, bytes]
    apply tally_congr
    intro record _
    rw [balanced.logBytes, entriesOf]
  · have length : pool.entries.length = tally (fun _ => 1) pool.entries := by simp [tally]
    rw [length, counts]
    apply tally_congr
    intro record _
    rw [balanced.logs, List.length_map, entriesOf]
    simp [tally]

end NativeOutputPool

end Holonomy.Service
