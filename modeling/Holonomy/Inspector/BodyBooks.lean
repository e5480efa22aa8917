import Holonomy.Foundation.Histories
import Holonomy.Inspector.BodyAccumulator

/-!
# The books of the accumulator

The bytes that are counted are those of the pending requests, for each process and for the
service, and stay within the limits, whatever events come in whatever order. No operation but the
arrival of a chunk puts anything to a request.
-/

namespace Holonomy.Inspector

open Foundation

namespace BodyAccumulator

variable {left middle : BodyAccumulator} {key : RequestKey} {entry : PendingBody}
  {change : PendingBody → PendingBody} {event : BodyEvent}

theorem key_emptied (entry : PendingBody) : entry.emptied.key = entry.key := rfl

theorem key_spoiled (entry : PendingBody) : entry.spoiled.key = entry.key := rfl

/-- What a request counts for a process. -/
def bytesFor (process : Text) (entry : PendingBody) : ℕ :=
  if entry.key.1 = process then entry.bytes else 0

/-- The counts are those of the pending requests. -/
structure Books (accumulator : BodyAccumulator) : Prop where
  once : (accumulator.pending.map PendingBody.key).Nodup
  total : accumulator.totalBytes = tally PendingBody.bytes accumulator.pending
  process : ∀ process,
    accumulator.processBytes process = tally (bytesFor process) accumulator.pending
  sized : ∀ entry ∈ accumulator.pending, entry.bytes = entry.chunks.flatten.length

structure Within (limits : BodyLimits) (accumulator : BodyAccumulator) : Prop where
  total : accumulator.totalBytes ≤ limits.maxTotalBytes
  process : ∀ process, accumulator.processBytes process ≤ limits.maxProcessBytes
  response : ∀ entry ∈ accumulator.pending, entry.bytes ≤ limits.maxResponseBytes
  requests : accumulator.pending.length ≤ limits.maxPendingTotal
  requestsOf : ∀ process, accumulator.requestsOf process ≤ limits.maxPendingPerProcess

/-- An entry has not gained anything. -/
structure Lesser (entry left : PendingBody) : Prop where
  key : left.key = entry.key
  bytes : left.bytes ≤ entry.bytes
  available : left.unavailable = false → entry.unavailable = false ∧ left.chunks = entry.chunks

/-- No request has gained anything. -/
structure Fades (accumulator left : BodyAccumulator) : Prop where
  total : left.totalBytes ≤ accumulator.totalBytes
  process : ∀ process, left.processBytes process ≤ accumulator.processBytes process
  keys : (left.pending.map PendingBody.key).Sublist (accumulator.pending.map PendingBody.key)
  entries : ∀ entry ∈ left.pending, ∃ kept ∈ accumulator.pending, Lesser kept entry
  stored : left.stored = accumulator.stored

theorem Fades.refl (accumulator : BodyAccumulator) : Fades accumulator accumulator :=
  ⟨le_rfl, fun _ => le_rfl, .refl _, fun entry listed => ⟨entry, listed, rfl, le_rfl,
    fun open' => ⟨open', rfl⟩⟩, rfl⟩

theorem Fades.trans {first second third : BodyAccumulator} (left : Fades first second)
    (right : Fades second third) : Fades first third := by
  refine ⟨right.total.trans left.total, fun process => (right.process process).trans
    (left.process process), right.keys.trans left.keys, fun entry listed => ?_,
    right.stored.trans left.stored⟩
  obtain ⟨middle, middleIn, later⟩ := right.entries entry listed
  obtain ⟨kept, keptIn, earlier⟩ := left.entries middle middleIn
  refine ⟨kept, keptIn, later.key.trans earlier.key, later.bytes.trans earlier.bytes,
    fun open' => ?_⟩
  have one := later.available open'
  have two := earlier.available one.1
  exact ⟨two.1, one.2.trans two.2⟩

theorem requestsOf_eq (accumulator : BodyAccumulator) (process : Text) :
    accumulator.requestsOf process =
      (accumulator.pending.map PendingBody.key).countP fun key => key.1 = process := by
  rw [requestsOf, List.countP_map]
  rfl

theorem Within.fades {limits : BodyLimits} {accumulator : BodyAccumulator}
    (within : accumulator.Within limits) (fades : Fades accumulator left) : left.Within limits where
  total := fades.total.trans within.total
  process process := (fades.process process).trans (within.process process)
  response entry listed := by
    obtain ⟨kept, keptIn, lesser⟩ := fades.entries entry listed
    exact lesser.bytes.trans (within.response kept keptIn)
  requests := by
    have shorter := fades.keys.length_le
    rw [List.length_map, List.length_map] at shorter
    exact shorter.trans within.requests
  requestsOf process := by
    have fewer := fades.keys.countP_le (p := fun key => decide (key.1 = process))
    rw [← requestsOf_eq, ← requestsOf_eq] at fewer
    exact fewer.trans (within.requestsOf process)

variable {limits : BodyLimits} {accumulator : BodyAccumulator}

theorem find_some (found : accumulator.find key = some entry) :
    entry ∈ accumulator.pending ∧ entry.key = key := by
  have holds := List.find?_some found
  exact ⟨List.mem_of_find?_eq_some found, of_decide_eq_true holds⟩

theorem find_none (missing : accumulator.find key = none) :
    ∀ entry ∈ accumulator.pending, entry.key ≠ key := by
  intro entry listed same
  exact List.find?_eq_none.mp missing entry listed (decide_eq_true same)

theorem Books.modify (books : accumulator.Books) (key : RequestKey)
    (same : ∀ entry, (change entry).key = entry.key ∧ (change entry).bytes = entry.bytes ∧
      (change entry).chunks = entry.chunks) : (accumulator.modify key change).Books := by
  have keys : ∀ entry, (change entry).key = entry.key := fun entry => (same entry).1
  have weighs : ∀ weight : PendingBody → ℕ, (∀ entry, weight (change entry) = weight entry) →
      tally weight (modifyAt PendingBody.key key change accumulator.pending) =
        tally weight accumulator.pending := by
    intro weight still
    rw [modifyAt, tally_map]
    apply tally_congr
    intro entry _
    rw [Function.comp_apply]
    split_ifs
    · exact still entry
    · rfl
  refine ⟨?_, ?_, fun process => ?_, fun entry listed => ?_⟩
  · change ((modifyAt PendingBody.key key change accumulator.pending).map PendingBody.key).Nodup
    rw [map_modifyAt keys]
    exact books.once
  · exact books.total.trans (weighs _ fun entry => (same entry).2.1).symm
  · refine (books.process process).trans (weighs _ fun entry => ?_).symm
    rw [bytesFor, bytesFor, (same entry).1, (same entry).2.1]
  · obtain ⟨kept, keptIn, equal⟩ := mem_modifyAt.mp listed
    rw [← equal]
    split_ifs
    · rw [(same kept).2.1, (same kept).2.2]
      exact books.sized kept keptIn
    · exact books.sized kept keptIn

theorem fades_modify (key : RequestKey) (lesser : ∀ entry, Lesser entry (change entry)) :
    Fades accumulator (accumulator.modify key change) := by
  refine ⟨le_rfl, fun _ => le_rfl, ?_, fun entry listed => ?_, rfl⟩
  · change ((modifyAt PendingBody.key key change accumulator.pending).map PendingBody.key).Sublist _
    rw [map_modifyAt fun entry => (lesser entry).key]
  · obtain ⟨kept, keptIn, equal⟩ := mem_modifyAt.mp listed
    refine ⟨kept, keptIn, ?_⟩
    rw [← equal]
    split_ifs
    · exact lesser kept
    · exact ⟨rfl, le_rfl, fun open' => ⟨open', rfl⟩⟩

/-- Letting go of the bytes of a request keeps the books. -/
theorem Books.release (books : accumulator.Books) (listed : entry ∈ accumulator.pending) :
    (accumulator.release entry).Books := by
  unfold BodyAccumulator.release
  split_ifs with empty
  · exact books
  have weighs : ∀ weight : PendingBody → ℕ,
      tally weight (modifyAt PendingBody.key entry.key .emptied accumulator.pending) +
        weight entry = tally weight accumulator.pending + weight entry.emptied :=
    fun _ => tally_modifyAt books.once listed key_emptied
  refine ⟨?_, ?_, fun process => ?_, fun other otherIn => ?_⟩
  · change ((modifyAt PendingBody.key entry.key _ accumulator.pending).map PendingBody.key).Nodup
    rw [map_modifyAt key_emptied]
    exact books.once
  · have total := weighs PendingBody.bytes
    have empty' : entry.emptied.bytes = 0 := rfl
    rw [empty', ← books.total] at total
    change accumulator.totalBytes - entry.bytes =
      tally PendingBody.bytes (modifyAt PendingBody.key entry.key .emptied accumulator.pending)
    omega
  · have counts := weighs (bytesFor process)
    have nothing : bytesFor process entry.emptied = 0 := ite_self 0
    rw [nothing, ← books.process process] at counts
    change Function.update accumulator.processBytes entry.key.1 _ process =
      tally (bytesFor process) (modifyAt PendingBody.key entry.key .emptied accumulator.pending)
    rw [Function.update_apply]
    split_ifs with own
    · rw [bytesFor, if_pos own.symm, own] at counts
      rw [own]
      omega
    · rw [bytesFor, if_neg fun clash => own clash.symm] at counts
      omega
  · obtain ⟨kept, keptIn, equal⟩ := mem_modifyAt.mp otherIn
    rw [← equal]
    split_ifs
    · rfl
    · exact books.sized kept keptIn

theorem drop_some (found : accumulator.find key = some entry) : accumulator.drop key =
      { accumulator with
        pending := without PendingBody.key key accumulator.pending
        totalBytes := accumulator.totalBytes - entry.bytes
        processBytes := Function.update accumulator.processBytes entry.key.1
          (accumulator.processBytes entry.key.1 - entry.bytes) } := by
  have own := (find_some found).2
  simp only [BodyAccumulator.drop, found, BodyAccumulator.release]
  split_ifs with empty
  · rw [empty, Nat.sub_zero, Nat.sub_zero, Function.update_eq_self]
  · simp only [BodyAccumulator.modify, own]
    rw [without_modifyAt key_emptied]

section

variable (books : accumulator.Books)

include books

theorem Books.drop (key : RequestKey) :
    (accumulator.drop key).Books ∧ Fades accumulator (accumulator.drop key) ∧
      ∀ entry ∈ (accumulator.drop key).pending, entry.key ≠ key := by
  cases found : accumulator.find key with
  | none =>
    have same : accumulator.drop key = accumulator := by
      simp only [BodyAccumulator.drop, found]
    rw [same]
    exact ⟨books, .refl _, find_none found⟩
  | some entry =>
    obtain ⟨listed, own⟩ := find_some found
    have weighs : ∀ weight : PendingBody → ℕ, tally weight accumulator.pending =
        weight entry + tally weight (without PendingBody.key key accumulator.pending) := by
      intro weight
      rw [← own]
      exact tally_without books.once listed
    rw [drop_some found]
    refine ⟨⟨?_, ?_, fun process => ?_, fun other otherIn => ?_⟩,
      ⟨Nat.sub_le _ _, fun process => ?_, ?_, fun other otherIn => ?_, rfl⟩,
      fun other otherIn => (of_mem_without otherIn).2⟩
    · exact books.once.sublist ((without_sublist key).map _)
    · have total := weighs PendingBody.bytes
      rw [← books.total] at total
      change accumulator.totalBytes - entry.bytes =
        tally PendingBody.bytes (without PendingBody.key key accumulator.pending)
      omega
    · have counts := weighs (bytesFor process)
      rw [← books.process process] at counts
      simp only [Function.update_apply]
      split_ifs with same
      · rw [bytesFor, if_pos same.symm, same] at counts
        rw [same]
        omega
      · rw [bytesFor, if_neg fun clash => same clash.symm] at counts
        omega
    · exact books.sized other (of_mem_without otherIn).1
    · simp only [Function.update_apply]
      split_ifs with same
      · rw [same]
        exact Nat.sub_le _ _
      · exact le_rfl
    · exact (without_sublist key).map _
    · exact ⟨other, (of_mem_without otherIn).1, rfl, le_rfl, fun open' => ⟨open', rfl⟩⟩

theorem Books.dropAll (entries : List PendingBody) :
    (accumulator.dropAll entries).Books ∧ Fades accumulator (accumulator.dropAll entries) ∧
      ∀ entry ∈ entries, ∀ left ∈ (accumulator.dropAll entries).pending, left.key ≠ entry.key := by
  induction entries generalizing accumulator with
  | nil =>
    refine ⟨books, .refl _, fun entry listed => ?_⟩
    cases listed
  | cons first rest ih =>
    obtain ⟨still, fades, gone⟩ := books.drop first.key
    obtain ⟨finally', later, others⟩ := ih still
    refine ⟨finally', fades.trans later, fun entry listed left leftIn => ?_⟩
    rcases List.mem_cons.mp listed with same | behind
    · obtain ⟨kept, keptIn, lesser⟩ := later.entries left leftIn
      rw [lesser.key, same]
      exact gone kept keptIn
    · exact others entry behind left leftIn

theorem Books.prune (limits : BodyLimits) (now : ℤ) :
    (accumulator.prune limits now).Books ∧ Fades accumulator (accumulator.prune limits now) := by
  have both := books.dropAll (accumulator.pending.filter fun entry =>
    entry.updatedAt ≤ now - limits.ttlMs)
  exact ⟨both.1, both.2.1⟩

theorem Books.clear (process : Text) :
    (accumulator.clear process).Books ∧ Fades accumulator (accumulator.clear process) := by
  obtain ⟨still, fades, gone⟩ := books.dropAll (accumulator.pending.filter fun entry =>
    entry.key.1 = process)
  have nothing : (accumulator.dropAll (accumulator.pending.filter fun entry =>
      entry.key.1 = process)).processBytes process = 0 := by
    rw [still.process]
    apply tally_eq_zero
    intro left leftIn
    apply if_neg
    intro own
    obtain ⟨kept, keptIn, lesser⟩ := fades.entries left leftIn
    rw [lesser.key] at own
    exact gone kept (List.mem_filter.mpr ⟨keptIn, decide_eq_true own⟩) left leftIn lesser.key
  have same : accumulator.clear process = accumulator.dropAll (accumulator.pending.filter
      fun entry => entry.key.1 = process) := by
    simp only [BodyAccumulator.clear]
    rw [← nothing, Function.update_eq_self]
  rw [same]
  exact ⟨still, fades⟩

/-- A body that becomes unavailable keeps the books and lets nothing gain. -/
theorem Books.spoil (listed : entry ∈ accumulator.pending) :
    (accumulator.spoil entry).Books ∧ Fades accumulator (accumulator.spoil entry) ∧
      ∀ left ∈ (accumulator.spoil entry).pending, left.key = entry.key →
        left.unavailable = true := by
  have released := books.release listed
  refine ⟨released.modify entry.key fun _ => ⟨rfl, rfl, rfl⟩, ?_, fun left leftIn own => ?_⟩
  · have lesser : ∀ left ∈ (accumulator.spoil entry).pending,
        ∃ kept ∈ accumulator.pending, Lesser kept left := by
      intro left leftIn
      obtain ⟨middle, middleIn, equal⟩ := mem_modifyAt.mp leftIn
      unfold BodyAccumulator.release at middleIn
      split_ifs at middleIn with empty
      · refine ⟨middle, middleIn, ?_⟩
        rw [← equal]
        split_ifs
        · exact ⟨rfl, le_rfl, fun open' => by cases open'⟩
        · exact ⟨rfl, le_rfl, fun open' => ⟨open', rfl⟩⟩
      · obtain ⟨kept, keptIn, before⟩ := mem_modifyAt.mp middleIn
        refine ⟨kept, keptIn, ?_⟩
        rw [← equal, ← before]
        by_cases mine : kept.key = entry.key
        · have mineToo : kept.emptied.key = entry.key := mine
          rw [if_pos mine, if_pos mineToo]
          exact ⟨rfl, Nat.zero_le _, fun open' => by cases open'⟩
        · rw [if_neg mine, if_neg mine]
          exact ⟨rfl, le_rfl, fun open' => ⟨open', rfl⟩⟩
    have keys : (accumulator.spoil entry).pending.map PendingBody.key =
        accumulator.pending.map PendingBody.key := by
      change (modifyAt PendingBody.key entry.key .spoiled _).map PendingBody.key = _
      rw [map_modifyAt key_spoiled]
      unfold BodyAccumulator.release
      split_ifs with empty
      · rfl
      · exact map_modifyAt key_emptied
    refine ⟨?_, fun process => ?_, ?_, lesser, ?_⟩
    · change (accumulator.release entry).totalBytes ≤ _
      unfold BodyAccumulator.release
      split_ifs with empty
      · exact le_rfl
      · exact Nat.sub_le _ _
    · change (accumulator.release entry).processBytes process ≤ _
      unfold BodyAccumulator.release
      split_ifs with empty
      · exact le_rfl
      · simp only [Function.update_apply]
        split_ifs with same
        · rw [same]
          exact Nat.sub_le _ _
        · exact le_rfl
    · rw [keys]
    · change (accumulator.release entry).stored = _
      unfold BodyAccumulator.release
      split_ifs with empty
      · rfl
      · rfl
  · obtain ⟨middle, -, equal⟩ := mem_modifyAt.mp leftIn
    rw [← equal]
    by_cases mine : middle.key = entry.key
    · rw [if_pos mine]
      rfl
    · rw [if_neg mine] at equal
      rw [equal] at mine
      exact absurd own mine

theorem Books.hear (key : RequestKey) (now : ℤ) : (accumulator.modify key (.heard now)).Books ∧
      Fades accumulator (accumulator.modify key (.heard now)) :=
  ⟨books.modify key fun _ => ⟨rfl, rfl, rfl⟩,
    fades_modify key fun _ => ⟨rfl, le_rfl, fun open' => ⟨open', rfl⟩⟩⟩

theorem Books.put (within : accumulator.Within limits)
    (listed : entry ∈ accumulator.pending) {chunk : List UInt8}
    (fits : accumulator.exceeds limits entry chunk = false) :
    (accumulator.put entry chunk).Books ∧ (accumulator.put entry chunk).Within limits := by
  have same : ∀ kept : PendingBody, (kept.extended chunk).key = kept.key := fun _ => rfl
  have weighs : ∀ weight : PendingBody → ℕ,
      tally weight (modifyAt PendingBody.key entry.key (.extended chunk) accumulator.pending) +
        weight entry = tally weight accumulator.pending + weight (entry.extended chunk) :=
    fun _ => tally_modifyAt books.once listed same
  have room : entry.bytes + chunk.length ≤ limits.maxResponseBytes ∧
      accumulator.processBytes entry.key.1 + chunk.length ≤ limits.maxProcessBytes ∧
      accumulator.totalBytes + chunk.length ≤ limits.maxTotalBytes := by
    simp only [exceeds, Bool.or_eq_false_iff, decide_eq_false_iff_not] at fits
    omega
  have keys : (accumulator.put entry chunk).pending.map PendingBody.key =
      accumulator.pending.map PendingBody.key := map_modifyAt same
  refine ⟨⟨?_, ?_, fun process => ?_, fun other otherIn => ?_⟩,
    ⟨room.2.2, fun process => ?_, fun other otherIn => ?_, ?_, fun process => ?_⟩⟩
  · rw [keys]
    exact books.once
  · have total := weighs PendingBody.bytes
    have more : (entry.extended chunk).bytes = entry.bytes + chunk.length := rfl
    rw [more, ← books.total] at total
    change accumulator.totalBytes + chunk.length =
      tally PendingBody.bytes (modifyAt PendingBody.key entry.key (.extended chunk) _)
    omega
  · have counts := weighs (bytesFor process)
    rw [← books.process process] at counts
    change Function.update accumulator.processBytes entry.key.1 _ process =
      tally (bytesFor process) (modifyAt PendingBody.key entry.key (.extended chunk) _)
    rw [Function.update_apply]
    split_ifs with own
    · have more : bytesFor process (entry.extended chunk) =
          bytesFor process entry + chunk.length := by
        rw [bytesFor, bytesFor, if_pos own.symm, same, if_pos own.symm]
        rfl
      rw [more] at counts
      rw [← own]
      omega
    · have none' : bytesFor process (entry.extended chunk) = bytesFor process entry := by
        rw [bytesFor, bytesFor, same, if_neg fun clash => own clash.symm,
          if_neg fun clash => own clash.symm]
      rw [none'] at counts
      omega
  · obtain ⟨kept, keptIn, equal⟩ := mem_modifyAt.mp otherIn
    have sized := books.sized kept keptIn
    rw [← equal]
    split_ifs
    · change kept.bytes + chunk.length = (kept.chunks ++ [chunk]).flatten.length
      rw [sized, List.flatten_append, List.length_append, List.flatten_singleton]
    · exact sized
  · change Function.update accumulator.processBytes entry.key.1 _ process ≤ _
    rw [Function.update_apply]
    split_ifs
    · exact room.2.1
    · exact within.process process
  · obtain ⟨kept, keptIn, equal⟩ := mem_modifyAt.mp otherIn
    rw [← equal]
    split_ifs with own
    · rw [List.inj_on_of_nodup_map books.once keptIn listed own]
      exact room.1
    · exact within.response kept keptIn
  · have count := congrArg List.length keys
    rw [List.length_map, List.length_map] at count
    rw [count]
    exact within.requests
  · rw [requestsOf_eq, keys, ← requestsOf_eq]
    exact within.requestsOf process

end

def bodyBehind (body : List UInt8) : BodyEvent → Option (List UInt8)
  | .requestWillBeSent => some []
  | .dataReceived none false => some body
  | .dataReceived (some text) false => (base64Decode text).map (body ++ ·)
  | .dataReceived _ true => none
  | .loadingFinished => none
  | .loadingFailed => none
  | .other => some body

structure Takes (accumulator left : BodyAccumulator) (key : RequestKey) (event : BodyEvent) :
    Prop where
  others : ∀ entry ∈ left.pending, entry.key ≠ key → ∃ kept ∈ accumulator.pending, Lesser kept entry
  own : ∀ entry ∈ left.pending, entry.key = key → entry.unavailable = false →
    event = .requestWillBeSent ∧ entry.chunks = [] ∨
    ∃ kept ∈ accumulator.pending, kept.key = key ∧ kept.unavailable = false ∧
      bodyBehind kept.chunks.flatten event = some entry.chunks.flatten

theorem Fades.takes (fades : Fades accumulator left) (key : RequestKey)
    (alone : ∀ body, bodyBehind body event = some body) : Takes accumulator left key event := by
  refine ⟨fun entry listed _ => fades.entries entry listed, fun entry listed own open' => .inr ?_⟩
  obtain ⟨kept, keptIn, lesser⟩ := fades.entries entry listed
  have same := lesser.available open'
  exact ⟨kept, keptIn, lesser.key.symm.trans own, same.1, by rw [alone, same.2]⟩

theorem Fades.takesGone (fades : Fades accumulator left) (event : BodyEvent)
    (gone : ∀ entry ∈ left.pending, entry.key = key → entry.unavailable = true) :
    Takes accumulator left key event := by
  refine ⟨fun entry listed _ => fades.entries entry listed, fun entry listed own open' => ?_⟩
  rw [gone entry listed own] at open'
  cases open'

theorem Takes.behind (fades : Fades accumulator middle) (takes : Takes middle left key event) :
    Takes accumulator left key event := by
  refine ⟨fun entry listed other => ?_, fun entry listed own open' => ?_⟩
  · obtain ⟨between, betweenIn, later⟩ := takes.others entry listed other
    obtain ⟨kept, keptIn, earlier⟩ := fades.entries between betweenIn
    refine ⟨kept, keptIn, later.key.trans earlier.key, later.bytes.trans earlier.bytes,
      fun open' => ?_⟩
    have one := later.available open'
    have two := earlier.available one.1
    exact ⟨two.1, one.2.trans two.2⟩
  · rcases takes.own entry listed own open' with announced | ⟨between, betweenIn, same, free, body⟩
    · exact .inl announced
    · obtain ⟨kept, keptIn, earlier⟩ := fades.entries between betweenIn
      have before := earlier.available free
      exact .inr ⟨kept, keptIn, earlier.key.symm.trans same, before.1, by rw [← before.2, body]⟩

theorem Books.append (books : accumulator.Books) (within : accumulator.Within limits)
    (listed : entry ∈ accumulator.pending) (dataBase64 : Option Text) (bodyUnavailable : Bool) :
    let taken := accumulator.append limits entry dataBase64 bodyUnavailable
    taken.Books ∧ taken.Within limits ∧ taken.stored = accumulator.stored ∧
      Takes accumulator taken entry.key (.dataReceived dataBase64 bodyUnavailable) := by
  intro taken
  obtain ⟨spoiledBooks, spoiledFades, spoiled⟩ := books.spoil listed
  have spoils : taken = accumulator.spoil entry → taken.Books ∧ taken.Within limits ∧
      taken.stored = accumulator.stored ∧
      Takes accumulator taken entry.key (.dataReceived dataBase64 bodyUnavailable) := by
    intro same
    rw [same]
    exact ⟨spoiledBooks, within.fades spoiledFades, spoiledFades.stored,
      spoiledFades.takesGone _ spoiled⟩
  have outcome : taken = accumulator.append limits entry dataBase64 bodyUnavailable := rfl
  cases bodyUnavailable with
  | true =>
    apply spoils
    rw [outcome]
    cases dataBase64 with
    | none => rfl
    | some text => rfl
  | false =>
    cases dataBase64 with
    | none =>
      have same : taken = accumulator := rfl
      rw [same]
      exact ⟨books, within, rfl, (Fades.refl _).takes _ fun _ => rfl⟩
    | some text =>
      rw [BodyAccumulator.append] at outcome
      simp only [Bool.false_or, if_neg Bool.false_ne_true] at outcome
      cases spent : entry.unavailable with
      | true =>
        rw [if_pos spent] at outcome
        rw [outcome]
        refine ⟨books, within, rfl, (Fades.refl _).takesGone _ fun other otherIn own => ?_⟩
        rw [List.inj_on_of_nodup_map books.once otherIn listed own, spent]
      | false =>
        rw [if_neg (by rw [spent]; exact Bool.false_ne_true)] at outcome
        cases decoded : base64Decode text with
        | none =>
          apply spoils
          rw [outcome, decoded]
        | some chunk =>
          rw [decoded] at outcome
          cases large : accumulator.exceeds limits entry chunk with
          | true =>
            apply spoils
            exact outcome.trans (if_pos large)
          | false =>
            simp only [large, if_neg Bool.false_ne_true] at outcome
            rw [outcome]
            obtain ⟨still, inside⟩ := books.put within listed large
            refine ⟨still, inside, rfl, ⟨fun other otherIn foreign => ?_,
              fun other otherIn own _ => .inr ⟨entry, listed, rfl, spent, ?_⟩⟩⟩
            · obtain ⟨kept, keptIn, equal⟩ := mem_modifyAt.mp otherIn
              refine ⟨kept, keptIn, ?_⟩
              by_cases mine : kept.key = entry.key
              · rw [if_pos mine] at equal
                rw [← equal] at foreign
                exact absurd mine foreign
              · rw [if_neg mine] at equal
                rw [equal]
                exact ⟨rfl, le_rfl, fun open' => ⟨open', rfl⟩⟩
            · obtain ⟨kept, keptIn, equal⟩ := mem_modifyAt.mp otherIn
              by_cases mine : kept.key = entry.key
              · rw [if_pos mine, List.inj_on_of_nodup_map books.once keptIn listed mine] at equal
                rw [← equal, bodyBehind, decoded, Option.map_some]
                change some (entry.chunks.flatten ++ chunk) = some (entry.chunks ++ [chunk]).flatten
                rw [List.flatten_append, List.flatten_singleton]
              · rw [if_neg mine] at equal
                rw [equal] at mine
                exact absurd own mine

theorem Books.announce (books : accumulator.Books) (within : accumulator.Within limits)
    (key : RequestKey) (now : ℤ) :
    let left := accumulator.announce limits now key
    left.Books ∧ left.Within limits ∧ left.stored = accumulator.stored ∧
      Takes accumulator left key .requestWillBeSent := by
  intro left
  obtain ⟨still, fades, gone⟩ := books.drop key
  have inside := within.fades fades
  have outcome : left = accumulator.announce limits now key := rfl
  simp only [BodyAccumulator.announce] at outcome
  split_ifs at outcome with full
  · rw [outcome]
    exact ⟨still, inside, fades.stored,
      fades.takesGone _ fun entry listed own => absurd own (gone entry listed)⟩
  · have pending : left.pending = (accumulator.drop key).pending ++ [⟨key, 0, [], false, now⟩] := by
      rw [outcome]
    have weighs : ∀ weight : PendingBody → ℕ, weight ⟨key, 0, [], false, now⟩ = 0 →
        tally weight left.pending = tally weight (accumulator.drop key).pending := by
      intro weight nothing
      rw [pending, tally_append, tally_cons, tally_nil, nothing, Nat.add_zero]
    refine ⟨⟨?_, ?_, fun process => ?_, fun entry listed => ?_⟩,
      ⟨?_, fun process => ?_, fun entry listed => ?_, ?_, fun process => ?_⟩, ?_,
      ⟨fun entry listed foreign => ?_, fun entry listed own _ => .inl ⟨rfl, ?_⟩⟩⟩
    · rw [pending, List.map_append, List.map_singleton]
      refine nodup_concat still.once fun known => ?_
      obtain ⟨entry, listed, own⟩ := List.mem_map.mp known
      exact gone entry listed own
    · rw [weighs _ rfl, ← still.total, outcome]
    · rw [weighs _ (ite_self 0), ← still.process process, outcome]
    · rw [pending] at listed
      exact forall_mem_concat still.sized rfl entry listed
    · rw [outcome]
      exact inside.total
    · rw [outcome]
      exact inside.process process
    · rw [pending] at listed
      exact forall_mem_concat inside.response (Nat.zero_le _) entry listed
    · rw [pending, List.length_append, List.length_singleton]
      omega
    · have before := inside.requestsOf process
      unfold requestsOf at before full ⊢
      rw [pending, List.countP_append, List.countP_singleton]
      by_cases own : key.1 = process
      · rw [own] at full
        split_ifs
        · omega
        · omega
      · rw [if_neg (by simpa using own)]
        exact before
    · rw [outcome]
      exact fades.stored
    · rw [pending] at listed
      rcases List.mem_append.mp listed with old | new'
      · exact fades.entries entry old
      · rw [List.mem_singleton.mp new'] at foreign
        exact absurd rfl foreign
    · rw [pending] at listed
      rcases List.mem_append.mp listed with old | new'
      · exact absurd own (gone entry old)
      · rw [List.mem_singleton.mp new']

/-- What taking an event comes to. -/
structure Ingests (limits : BodyLimits) (accumulator left : BodyAccumulator) (key : RequestKey)
    (event : BodyEvent) : Prop where
  books : left.Books
  within : left.Within limits
  takes : Takes accumulator left key event
  stored : left.stored = accumulator.stored ∨ event = .loadingFinished ∧
    ∃ entry ∈ accumulator.pending, entry.key = key ∧ entry.unavailable = false ∧
      left.stored = accumulator.stored ++ [(key, entry.chunks.flatten)]

theorem Books.commit (books : accumulator.Books) (entry : PendingBody) :
    (accumulator.commit entry).Books := ⟨books.once, books.total, books.process, books.sized⟩

theorem Books.ends (books : accumulator.Books) (within : accumulator.Within limits)
    (key : RequestKey) (event : BodyEvent) :
    Ingests limits accumulator (accumulator.drop key) key event := by
  obtain ⟨still, fades, gone⟩ := books.drop key
  exact ⟨still, within.fades fades,
    fades.takesGone _ fun entry listed own => absurd own (gone entry listed), .inl fades.stored⟩

theorem Ingests.behind (fades : Fades accumulator middle)
    (ingests : Ingests limits middle left key event) :
    Ingests limits accumulator left key event := by
  refine ⟨ingests.books, ingests.within, ingests.takes.behind fades, ?_⟩
  rw [← fades.stored]
  rcases ingests.stored with same | ⟨finished, entry, listed, own, free, more⟩
  · exact .inl same
  · obtain ⟨kept, keptIn, lesser⟩ := fades.entries entry listed
    have before := lesser.available free
    exact .inr ⟨finished, kept, keptIn, lesser.key.symm.trans own,
      before.1, by rw [← before.2, more]⟩

theorem Books.ingest (books : accumulator.Books) (within : accumulator.Within limits)
    (key : RequestKey) (event : BodyEvent) (now later : ℤ) :
    Ingests limits accumulator (accumulator.ingest limits key event now later) key event := by
  obtain ⟨pruned, pruning⟩ := books.prune limits now
  have inside := within.fades pruning
  apply Ingests.behind pruning
  by_cases announces : event = .requestWillBeSent
  · rw [announces]
    obtain ⟨announced, room, stored, takes⟩ := pruned.announce inside key later
    exact ⟨announced, room, takes, .inl stored⟩
  · cases found : (accumulator.prune limits now).find key with
    | none =>
      have same : accumulator.ingest limits key event now later =
          accumulator.prune limits now := by
        cases event with
        | requestWillBeSent => exact absurd rfl announces
        | _ => simp only [BodyAccumulator.ingest, found]
      rw [same]
      exact ⟨pruned, inside, (Fades.refl _).takesGone _ fun entry listed own =>
        absurd own (find_none found entry listed), .inl rfl⟩
    | some entry =>
      obtain ⟨listed, own⟩ := find_some found
      obtain ⟨heard, hearing⟩ := pruned.hear key later
      have insideToo := inside.fades hearing
      have listedToo : entry.heard later ∈
          ((accumulator.prune limits now).modify key (.heard later)).pending :=
        mem_modifyAt.mpr ⟨entry, listed, if_pos own⟩
      have ownToo : (entry.heard later).key = key := own
      apply Ingests.behind hearing
      cases event with
      | requestWillBeSent => exact absurd rfl announces
      | dataReceived dataBase64 bodyUnavailable =>
        simp only [BodyAccumulator.ingest, found]
        obtain ⟨taken, room, stored, takes⟩ :=
          heard.append insideToo listedToo dataBase64 bodyUnavailable
        rw [ownToo] at takes
        exact ⟨taken, room, takes, .inl stored⟩
      | loadingFinished =>
        simp only [BodyAccumulator.ingest, found]
        split_ifs with spent
        · exact heard.ends insideToo key _
        · have insideThere : (((accumulator.prune limits now).modify key (.heard later)).commit
              (entry.heard later)).Within limits :=
            ⟨insideToo.total, insideToo.process, insideToo.response, insideToo.requests,
              insideToo.requestsOf⟩
          obtain ⟨ended, room, takes, stored⟩ :=
            (heard.commit (entry.heard later)).ends insideThere key .other
          have fades := ((heard.commit (entry.heard later)).drop key).2
          refine ⟨ended, room, ⟨fun other otherIn foreign => ?_, fun other otherIn mine => ?_⟩, ?_⟩
          · exact fades.1.entries other otherIn
          · exact absurd mine (fades.2 other otherIn)
          · refine .inr ⟨rfl, entry.heard later, listedToo, ownToo,
              Bool.eq_false_of_not_eq_true spent, ?_⟩
            rw [fades.1.stored, BodyAccumulator.commit, ownToo]
      | loadingFailed =>
        simp only [BodyAccumulator.ingest, found]
        exact heard.ends insideToo key _
      | other =>
        simp only [BodyAccumulator.ingest, found]
        exact ⟨heard, insideToo, (Fades.refl _).takes key fun _ => rfl, .inl rfl⟩

section Calls

inductive BodyCall where
  | ingest (key : RequestKey) (event : BodyEvent) (now later : ℤ)
  | clear (process : Text)
  /-- The counts are read once old requests are forgotten. -/
  | snapshot (now : ℤ)

def call (limits : BodyLimits) (accumulator : BodyAccumulator) : BodyCall → BodyAccumulator
  | .ingest key event now later => accumulator.ingest limits key event now later
  | .clear process => accumulator.clear process
  | .snapshot now => accumulator.prune limits now

/-- The counts are exact and within the limits, and so is every body in the cache. -/
structure Bounded (limits : BodyLimits) (accumulator : BodyAccumulator) : Prop where
  books : accumulator.Books
  within : accumulator.Within limits
  stored : ∀ body ∈ accumulator.stored, body.2.length ≤ limits.maxResponseBytes

theorem Bounded.fades (bounded : accumulator.Bounded limits) (books : left.Books)
    (fades : Fades accumulator left) : left.Bounded limits :=
  ⟨books, bounded.within.fades fades, fades.stored ▸ bounded.stored⟩

theorem Bounded.call (bounded : accumulator.Bounded limits) (made : BodyCall) :
    (accumulator.call limits made).Bounded limits := by
  cases made with
  | ingest key event now later =>
    obtain ⟨books, within, -, stored⟩ :=
      bounded.books.ingest bounded.within key event now later
    refine ⟨books, within, ?_⟩
    rcases stored with same | ⟨-, entry, entryIn, -, -, added⟩
    · exact same ▸ bounded.stored
    · have small := bounded.within.response entry entryIn
      rw [bounded.books.sized entry entryIn] at small
      exact added ▸ forall_mem_concat bounded.stored small
  | clear process =>
    obtain ⟨books, fades⟩ := bounded.books.clear process
    exact bounded.fades books fades
  | snapshot now =>
    obtain ⟨books, fades⟩ := bounded.books.prune limits now
    exact bounded.fades books fades

/-- Whatever is called, in whatever order and at whatever times, the counts are those of the pending
requests and within the limits, and no body over the limit is handed to the cache. -/
theorem calls_bounded (limits : BodyLimits) (calls : List BodyCall) :
    (calls.foldl (call limits) .new).Bounded limits := by
  refine List.foldlRecOn calls _ ?_ fun _ bounded made _ => bounded.call made
  exact ⟨⟨List.nodup_nil, rfl, fun _ => rfl, fun _ listed => absurd listed List.not_mem_nil⟩,
    ⟨Nat.zero_le _, fun _ => Nat.zero_le _, fun _ listed => absurd listed List.not_mem_nil,
      Nat.zero_le _, fun _ => Nat.zero_le _⟩, fun _ listed => absurd listed List.not_mem_nil⟩

end Calls

end BodyAccumulator

end Holonomy.Inspector
