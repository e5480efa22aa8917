import Holonomy.Network.ResponseBody

/-!
# Readers see the exact body

What a reader got is a prefix of what was accepted from its first cursor on, all of it when it got
the end, and nothing is accepted after the stream broke, as long as no data event makes the read
throw and no reader starts after the end where chunks were thrown away.
-/

namespace Holonomy.Network

open Foundation

namespace SharedNativeResponseBody

def received (body : SharedNativeResponseBody) (readerId : ℕ) : List Chunk :=
  (body.returned.filter fun entry => entry.1 = readerId).map Prod.snd

structure ExactBody (body : SharedNativeResponseBody) : Prop where
  /-- Readers got the accepted chunks in order, each once and none skipped. -/
  inOrder : ∀ reader ∈ body.made, body.received reader.1 <+: body.accepted.drop reader.2
  known : ∀ entry ∈ body.returned, ∃ first, (entry.1, first) ∈ body.made
  ends : ∀ readerId ∈ body.endings, body.ended = true ∧
    ∃ first, (readerId, first) ∈ body.made ∧
      body.received readerId = body.accepted.drop first
  /-- No reader got a chunk that arrived after the stream broke. -/
  nothingAfter : ∀ broken, body.brokenAt = some broken →
    ∀ entry ∈ body.returned, entry.2.number < broken
  closedOnce : body.brokenAt.isSome = true → body.closings = 1 ∧ body.releases = 1

def readable (body : SharedNativeResponseBody) : StreamResult → Bool
  | .data value _ =>
    match body.filling with
    | some (.reading cancellationEpoch) =>
      !body.isPullCurrent cancellationEpoch || ((decodeNetworkValue value).bind readRecord).isSome
    | _ => true
  | _ => true

/-- An event neither makes a read throw nor starts a reader after the end where chunks were thrown
away. -/
def isOrderly (body : SharedNativeResponseBody) : ResponseEvent → Bool
  | .settled result => body.readable result
  | .createReader =>
    !(body.done && body.readers.isEmpty && body.baseCursor < body.accepted.length)
  | _ => true

/-- A reader got what lies before its cursor. -/
def Serves (body : SharedNativeResponseBody) (reader : ℕ × ℕ) : Prop :=
  body.baseCursor ≤ reader.2 ∧ reader.2 ≤ body.accepted.length ∧
    ∃ first, (reader.1, first) ∈ body.made ∧ first ≤ reader.2 ∧
      body.received reader.1 = (body.accepted.drop first).take (reader.2 - first)

def Window (body : SharedNativeResponseBody) : Prop :=
  body.chunks = body.accepted.drop body.baseCursor ∨
    body.chunks = [] ∧ body.closed = true ∧ (body.done = true → body.readers = [])

structure Sealed (body : SharedNativeResponseBody) : Prop where
  resource : body.resourceClosed = body.closed
  lease : body.released = body.closed
  closings : body.closings = if body.closed then 1 else 0
  releases : body.releases = if body.closed then 1 else 0

/-- What holds wherever the stream broke. -/
structure Sound (body : SharedNativeResponseBody) : Prop extends Sealed body where
  window : body.Window
  base : body.baseCursor ≤ body.accepted.length
  numbered : ∀ index (chunk : Chunk), body.accepted[index]? = some chunk → chunk.number = index
  serves : ∀ reader ∈ body.readers, body.Serves reader
  distinct : (body.readers.map Prod.fst).Nodup
  fresh : ∀ reader ∈ body.made, reader.1 < body.nextReaderId
  once : (body.made.map Prod.fst).Nodup
  inOrder : ∀ reader ∈ body.made, body.received reader.1 <+: body.accepted.drop reader.2
  known : ∀ entry ∈ body.returned, (∃ first, (entry.1, first) ∈ body.made) ∧
    entry.2 ∈ body.accepted
  ends : ∀ readerId ∈ body.endings, body.ended = true ∧
    ∃ first, (readerId, first) ∈ body.made ∧ body.received readerId = body.accepted.drop first
  endedDone : body.ended = body.done
  doneClosed : body.done = true → body.closed = true
  failureClosed : body.failure = true → body.closed = true

/-- What orderly events keep. -/
structure Kept (body : SharedNativeResponseBody) : Prop extends Sound body where
  broken : ∀ broken, body.brokenAt = some broken →
    body.closed = true ∧ body.accepted.length = broken

variable {body : SharedNativeResponseBody}

def shut (body : SharedNativeResponseBody) : SharedNativeResponseBody :=
  { body with
    closed := true
    resourceClosed := true
    released := true
    closings := 1
    releases := 1 }

variable {cursor readerId cancellationEpoch : ℕ} {chunk : Chunk} {next : SharedNativeResponseBody}
  {result : StreamResult}

theorem Sealed.shut_of_closed (whole : Sealed body) (closed : body.closed = true) :
    body.shut = body := by
  have resource := whole.resource
  have lease := whole.lease
  have closings := whole.closings
  have releases := whole.releases
  rw [closed] at resource lease
  rw [if_pos closed] at closings releases
  cases body
  simp only at closed resource lease closings releases
  subst closed resource lease closings releases
  rfl

theorem Sealed.close_eq (whole : Sealed body) : body.close = body.shut := by
  unfold SharedNativeResponseBody.close
  by_cases closed : body.closed = true
  · rw [if_pos closed, whole.shut_of_closed closed]
  · have resource := whole.resource
    have lease := whole.lease
    have closings := whole.closings
    have releases := whole.releases
    rw [Bool.eq_false_iff.mpr closed] at resource lease
    rw [if_neg closed] at closings releases
    rw [if_neg closed]
    unfold closeResource release shut
    simp only [resource, lease, closings, releases, if_neg Bool.false_ne_true, Nat.zero_add]

theorem sealed_shut (body : SharedNativeResponseBody) : Sealed body.shut where
  resource := rfl
  lease := rfl
  closings := rfl
  releases := rfl

section

variable (sound : Sound body)

include sound

theorem Sound.window_of_open (running : body.closed = false) :
    body.chunks = body.accepted.drop body.baseCursor := by
  rcases sound.window with window | ⟨_, closed, _⟩
  · exact window
  · rw [running] at closed
    cases closed

theorem Sound.shut : Sound body.shut := by
  have window : body.shut.Window := by
    rcases sound.window with window | ⟨none, _, gone⟩
    · exact .inl window
    · exact .inr ⟨none, rfl, gone⟩
  exact { sound with
    toSealed := sealed_shut body
    window := window
    doneClosed := fun _ => rfl
    failureClosed := fun _ => rfl }

theorem Sound.failed (cancellationEpoch : ℕ) :
    Sound { body.shut with failure := true, cancellationEpoch := cancellationEpoch } :=
  { sound.shut with failureClosed := fun _ => rfl }

theorem Sound.ended (running : body.closed = false) :
    Sound { body.shut with done := true, ended := true } :=
  { sound.shut with
    window := .inl (sound.window_of_open running)
    ends := fun readerId listed => ⟨rfl, (sound.ends readerId listed).2⟩
    endedDone := rfl
    doneClosed := fun _ => rfl }

theorem Sound.cancelled (going : body.done = false)
    {readers : List (ℕ × ℕ)} (fewer : readers.Sublist body.readers) (cancellationEpoch : ℕ) :
    Sound { body.shut with
      readers := readers, chunks := [], cancellationEpoch := cancellationEpoch } :=
  { sound.shut with
    window := .inr ⟨rfl, rfl, fun done => by
      have clash : body.done = true := done
      rw [going] at clash
      cases clash⟩
    serves := fun reader listed => sound.serves reader (fewer.subset listed)
    distinct := sound.distinct.sublist (fewer.map Prod.fst) }

theorem Sound.addReader (above : body.baseCursor ≤ cursor) (within : cursor ≤ body.accepted.length)
    (intact : body.done = true → body.chunks = body.accepted.drop body.baseCursor) :
    Sound (body.addReader cursor) := by
  unfold SharedNativeResponseBody.addReader
  by_cases full : maxResponseReaders ≤ body.readers.length
  · rw [if_pos full]
    exact sound
  rw [if_neg full]
  have unknown : ∀ first, (body.nextReaderId, first) ∉ body.made := by
    intro first listed
    have less := sound.fresh _ listed
    exact lt_irrefl _ less
  have nothing : body.received body.nextReaderId = [] := by
    unfold received
    rw [List.map_eq_nil_iff, List.filter_eq_nil_iff]
    intro entry listed same
    obtain ⟨⟨first, made⟩, _⟩ := sound.known entry listed
    rw [of_decide_eq_true same] at made
    exact unknown first made
  have window : Window { body with
      nextReaderId := body.nextReaderId + 1
      readers := body.readers ++ [(body.nextReaderId, cursor)]
      made := body.made ++ [(body.nextReaderId, cursor)] } := by
    by_cases done : body.done = true
    · exact .inl (intact done)
    · rcases sound.window with window | ⟨none, closed, _⟩
      · exact .inl window
      · exact .inr ⟨none, closed, fun ended => absurd ended done⟩
  exact { sound with
    window := window
    serves := fun reader listed => by
      rcases List.mem_append.mp listed with old | new
      · obtain ⟨base, bound, first, made, below, got⟩ := sound.serves reader old
        exact ⟨base, bound, first, List.mem_append_left _ made, below, got⟩
      · rw [List.mem_singleton.mp new]
        refine ⟨above, within, cursor, List.mem_append_right _ (List.mem_singleton.mpr rfl),
          le_rfl, ?_⟩
        rw [Nat.sub_self, List.take_zero]
        exact nothing
    distinct := by
      rw [List.map_append]
      refine nodup_concat sound.distinct fun listed => ?_
      obtain ⟨reader, old, same⟩ := List.mem_map.mp listed
      obtain ⟨_, _, first, made, _⟩ := sound.serves reader old
      rw [same] at made
      exact unknown first made
    fresh := forall_mem_concat (fun reader old => Nat.lt_succ_of_lt (sound.fresh reader old))
      (Nat.lt_succ_self _)
    once := by
      rw [List.map_append]
      refine nodup_concat sound.once fun listed => ?_
      obtain ⟨reader, old, same⟩ := List.mem_map.mp listed
      have less := sound.fresh reader old
      rw [same] at less
      exact lt_irrefl _ less
    inOrder := by
      refine forall_mem_concat sound.inOrder ?_
      change body.received body.nextReaderId <+: _
      rw [nothing]
      exact List.nil_prefix
    known := fun entry listed => by
      obtain ⟨⟨first, made⟩, accepted⟩ := sound.known entry listed
      exact ⟨⟨first, List.mem_append_left _ made⟩, accepted⟩
    ends := fun readerId listed => by
      obtain ⟨ended, first, made, got⟩ := sound.ends readerId listed
      exact ⟨ended, first, List.mem_append_left _ made, got⟩ }

end

theorem pruneChunks_eq (body : SharedNativeResponseBody) : ∃ chunks base,
    body.pruneChunks = { body with chunks := chunks, baseCursor := base } := by
  unfold SharedNativeResponseBody.pruneChunks
  split
  · exact ⟨[], body.baseCursor, rfl⟩
  · split
    · exact ⟨body.chunks, body.baseCursor, rfl⟩
    · exact ⟨_, _, rfl⟩

/-- Forgetting chunks that every reader got keeps what is sound. -/
theorem Sound.prune (sound : Sound body) (idle : body.readers = [] → body.closed = true) :
    Sound body.pruneChunks := by
  unfold SharedNativeResponseBody.pruneChunks
  cases least : (body.readers.map Prod.snd).min? with
  | none =>
    have empty : body.readers = [] := List.map_eq_nil_iff.mp (List.min?_eq_none_iff.mp least)
    exact { sound with window := .inr ⟨rfl, idle empty, fun _ => empty⟩ }
  | some minimum =>
    obtain ⟨member, lowest⟩ := List.min?_eq_some_iff.mp least
    obtain ⟨slowest, listed, same⟩ := List.mem_map.mp member
    by_cases low : minimum ≤ body.baseCursor
    · simp only [if_pos low]
      exact sound
    simp only [if_neg low]
    have bound : minimum ≤ body.accepted.length := by
      rw [← same]
      exact (sound.serves slowest listed).2.1
    have higher : body.baseCursor + (minimum - body.baseCursor) = minimum := by omega
    have window : Window { body with
        chunks := body.chunks.drop (minimum - body.baseCursor), baseCursor := minimum } := by
      rcases sound.window with window | ⟨none, closed, gone⟩
      · apply Or.inl
        change body.chunks.drop (minimum - body.baseCursor) = body.accepted.drop minimum
        rw [window, List.drop_drop, higher]
      · apply Or.inr
        refine ⟨?_, closed, gone⟩
        change body.chunks.drop (minimum - body.baseCursor) = []
        rw [none, List.drop_nil]
    exact { sound with
      window := window
      base := bound
      serves := fun reader served => by
        obtain ⟨_, rest⟩ := sound.serves reader served
        exact ⟨lowest reader.2 (List.mem_map_of_mem served), rest⟩ }

theorem Sound.delete (sound : Sound body) (readerId : ℕ) : Sound (body.delete readerId) := by
  have fewer : (body.delete readerId).readers.Sublist body.readers := List.filter_sublist
  have window : (body.delete readerId).Window := by
    rcases sound.window with window | ⟨none, closed, gone⟩
    · exact .inl window
    · refine .inr ⟨none, closed, fun done => ?_⟩
      have empty := gone done
      change body.readers.filter _ = []
      rw [empty, List.filter_nil]
  exact { sound with
    window := window
    serves := fun reader listed => sound.serves reader (fewer.subset listed)
    distinct := sound.distinct.sublist (fewer.map Prod.fst) }

theorem Sound.leave (sound : Sound body) (closed : body.closed = true) (readerId : ℕ) :
    Sound (body.leave readerId) :=
  (sound.delete readerId).prune fun _ => closed

theorem mem_of_cursorOf (found : body.cursorOf readerId = some cursor) :
    (readerId, cursor) ∈ body.readers := by
  obtain ⟨reader, first, same⟩ := Option.map_eq_some_iff.mp found
  have wanted := List.find?_some first
  have named : reader.1 = readerId := of_decide_eq_true wanted
  have listed := List.mem_of_find?_eq_some first
  rw [← named, ← same]
  exact listed

theorem received_advance (readerId other : ℕ) (chunk : Chunk) :
    (body.advance readerId chunk).received other =
      if other = readerId then body.received other ++ [chunk] else body.received other := by
  unfold received advance
  rw [List.filter_append, List.map_append]
  by_cases same : other = readerId
  · rw [if_pos same, same]
    congr 1
    simp
  · have apart : ¬ readerId = other := fun equal => same equal.symm
    rw [if_neg same]
    simp [apart]

section

variable (sound : Sound body)

include sound

theorem Sound.accepted_of_chunkAt (found : body.chunkAt cursor = some chunk) :
    body.accepted[cursor]? = some chunk := by
  unfold chunkAt at found
  by_cases above : body.baseCursor ≤ cursor
  · rw [if_pos above] at found
    rcases sound.window with window | ⟨none, _⟩
    · rw [window, List.getElem?_drop] at found
      have higher : body.baseCursor + (cursor - body.baseCursor) = cursor := by omega
      rw [higher] at found
      exact found
    · rw [none] at found
      cases found
  · rw [if_neg above] at found
    cases found

theorem Sound.started_once {first second : ℕ}
    (one : (readerId, first) ∈ body.made) (other : (readerId, second) ∈ body.made) :
    first = second := by
  have same := List.inj_on_of_nodup_map sound.once one other rfl
  exact (Prod.mk.inj same).2

theorem Sound.advance (found : body.cursorOf readerId = some cursor)
    (next : body.chunkAt cursor = some chunk) : Sound (body.advance readerId chunk) := by
  have listed := mem_of_cursorOf found
  have taken := sound.accepted_of_chunkAt next
  have less : cursor < body.accepted.length := (List.getElem?_eq_some_iff.mp taken).1
  obtain ⟨base, bound, first, made, below, got⟩ := sound.serves _ listed
  have more : (body.accepted.drop first).take (cursor + 1 - first) =
      (body.accepted.drop first).take (cursor - first) ++ [chunk] := by
    have here : (body.accepted.drop first)[cursor - first]? = some chunk := by
      rw [List.getElem?_drop]
      have higher : first + (cursor - first) = cursor := by omega
      rw [higher]
      exact taken
    have longer : cursor + 1 - first = cursor - first + 1 := by omega
    rw [longer, List.take_add_one, here]
    rfl
  have gets : (body.advance readerId chunk).received readerId =
      (body.accepted.drop first).take (cursor + 1 - first) := by
    rw [received_advance, if_pos rfl, got, more]
  have names : (body.advance readerId chunk).readers.map Prod.fst = body.readers.map Prod.fst := by
    change (body.readers.map _).map Prod.fst = _
    rw [List.map_map]
    apply List.map_congr_left
    intro reader _
    change (if reader.1 = readerId then (reader.1, reader.2 + 1) else reader).1 = reader.1
    split <;> rfl
  have window : (body.advance readerId chunk).Window := by
    rcases sound.window with window | ⟨none, closed, gone⟩
    · exact .inl window
    · refine .inr ⟨none, closed, fun done => ?_⟩
      have empty := gone done
      rw [empty] at listed
      cases listed
  exact { sound with
    window := window
    serves := fun reader served => by
      obtain ⟨before, old, same⟩ := List.mem_map.mp served
      by_cases mine : before.1 = readerId
      · have equal : before = (readerId, cursor) :=
          List.inj_on_of_nodup_map sound.distinct old listed mine
        rw [if_pos mine, equal] at same
        rw [← same]
        refine ⟨Nat.le_succ_of_le base, less, first, made, Nat.le_succ_of_le below, gets⟩
      · rw [if_neg mine] at same
        rw [← same]
        obtain ⟨lower, upper, start, began, under, has⟩ := sound.serves before old
        refine ⟨lower, upper, start, began, under, ?_⟩
        rw [received_advance, if_neg mine]
        exact has
    distinct := by
      rw [names]
      exact sound.distinct
    inOrder := fun reader started => by
      rw [received_advance]
      by_cases mine : reader.1 = readerId
      · have here : (readerId, reader.2) ∈ body.made := by
          rw [← mine]
          exact started
        rw [if_pos mine, mine, got, ← more, sound.started_once here made]
        exact List.take_prefix _ _
      · rw [if_neg mine]
        exact sound.inOrder reader started
    known := forall_mem_concat sound.known ⟨⟨first, made⟩, List.mem_of_getElem? taken⟩
    ends := fun ender over_ => by
      obtain ⟨ended, start, began, all⟩ := sound.ends ender over_
      refine ⟨ended, start, began, ?_⟩
      rw [received_advance]
      by_cases mine : ender = readerId
      · rw [mine] at began all
        rw [got, sound.started_once began made] at all
        have sizes := congrArg List.length all
        rw [List.length_take, List.length_drop] at sizes
        omega
      · rw [if_neg mine]
        exact all }

theorem Sound.all_of_done (found : body.cursorOf readerId = some cursor)
    (nothing : body.chunkAt cursor = none) (done : body.done = true) :
    ∃ first, (readerId, first) ∈ body.made ∧
      body.received readerId = body.accepted.drop first := by
  have listed := mem_of_cursorOf found
  obtain ⟨base, bound, first, made, below, got⟩ := sound.serves _ listed
  refine ⟨first, made, ?_⟩
  rcases sound.window with window | ⟨_, _, gone⟩
  · unfold chunkAt at nothing
    rw [if_pos base, window, List.getElem?_drop, List.getElem?_eq_none_iff] at nothing
    rw [got, List.take_of_length_le]
    rw [List.length_drop]
    omega
  · have empty := gone done
    rw [empty] at listed
    cases listed

theorem Sound.pullReader (readerId : ℕ) (throws : Bool) :
    Sound (body.pullReader readerId throws) := by
  unfold SharedNativeResponseBody.pullReader
  cases found : body.cursorOf readerId with
  | none => exact sound
  | some cursor =>
    by_cases aborted : body.abortFailure = true
    · simp only [if_pos aborted]
      exact sound
    simp only [if_neg aborted]
    cases next : body.chunkAt cursor with
    | some chunk =>
      have advanced := sound.advance found next
      apply advanced.prune
      intro empty
      have listed := mem_of_cursorOf found
      have none : body.readers = [] := List.map_eq_nil_iff.mp empty
      rw [none] at listed
      cases listed
    | none =>
      by_cases failed : body.failure = true
      · simp only [if_pos failed]
        exact sound.leave (sound.failureClosed failed) readerId
      simp only [if_neg failed]
      by_cases done : body.done = true
      · simp only [if_pos done]
        have left := sound.leave (sound.doneClosed done) readerId
        obtain ⟨first, made, all⟩ := sound.all_of_done found next done
        obtain ⟨chunks, base, same⟩ := pruneChunks_eq (body.delete readerId)
        have ended : body.ended = true := by
          rw [sound.endedDone]
          exact done
        have leaves : Sound (body.delete readerId).pruneChunks := left
        change Sound { (body.delete readerId).pruneChunks with
          endings := body.endings ++ [readerId] }
        rw [same] at leaves ⊢
        exact { leaves with
          ends := forall_mem_concat leaves.ends ⟨ended, first, made, all⟩ }
      · simp only [if_neg done]
        unfold SharedNativeResponseBody.fill SharedNativeResponseBody.readNext
        split
        · split
          · exact { sound with }
          · split <;> exact { sound with }
        · exact { sound with }

theorem Sound.cancel : Sound body.cancel := by
  unfold SharedNativeResponseBody.cancel
  by_cases closed : body.closed = true
  · rw [if_pos closed]
    exact sound
  rw [if_neg closed]
  have going : body.done = false := by
    apply Bool.eq_false_iff.mpr
    intro done
    exact closed (sound.doneClosed done)
  have fewer : (if body.abortFailure then body.readers else []).Sublist body.readers := by
    split
    · exact List.Sublist.refl _
    · exact List.nil_sublist _
  have whole : Sealed { body with
      readers := if body.abortFailure then body.readers else []
      chunks := []
      cancellationEpoch := body.cancellationEpoch + 1 } := { sound.toSealed with }
  rw [whole.close_eq]
  exact sound.cancelled going fewer (body.cancellationEpoch + 1)

theorem Sound.cancelReader (readerId : ℕ) : Sound (body.cancelReader readerId) := by
  unfold SharedNativeResponseBody.cancelReader
  by_cases unknown : (body.cursorOf readerId).isNone = true
  · rw [if_pos unknown]
    exact sound
  rw [if_neg unknown]
  by_cases closed : body.closed = true
  · have left := sound.leave closed readerId
    simp only
    split
    · exact left.cancel
    · exact left
  have running := Bool.eq_false_iff.mpr closed
  have deleted := sound.delete readerId
  by_cases empty : (body.delete readerId).readers = []
  · have left : body.leave readerId = { body.delete readerId with chunks := [] } := by
      have nobody : ((body.delete readerId).readers.map Prod.snd).min? = none := by
        rw [empty]
        rfl
      unfold SharedNativeResponseBody.leave SharedNativeResponseBody.pruneChunks
      rw [nobody]
    have going : body.done = false := by
      apply Bool.eq_false_iff.mpr
      intro done
      exact closed (sound.doneClosed done)
    have fine : body.failure = false := by
      apply Bool.eq_false_iff.mpr
      intro failed
      exact closed (sound.failureClosed failed)
    have last : ((body.leave readerId).readers.isEmpty && !(body.leave readerId).done &&
        !(body.leave readerId).failure) = true := by
      rw [left]
      change ((body.delete readerId).readers.isEmpty && !body.done && !body.failure) = true
      rw [empty, going, fine]
      rfl
    have same : (body.leave readerId).cancel = (body.delete readerId).cancel := by
      rw [left]
      unfold SharedNativeResponseBody.cancel
      have open_ : ¬ (body.delete readerId).closed = true := closed
      rw [if_neg open_, if_neg open_]
    simp only [if_pos last, same]
    exact deleted.cancel
  · have left : Sound (body.leave readerId) := deleted.prune fun none => absurd none empty
    simp only
    split
    · exact left.cancel
    · exact left

end

def Follows (body next : SharedNativeResponseBody) : Prop :=
  next.brokenAt = body.brokenAt ∧
    (body.closed = true → next.closed = true ∧ next.accepted = body.accepted)

theorem Kept.follow (kept : Kept body) (sound : Sound next) (follows : Follows body next) :
    Kept next where
  toSound := sound
  broken broken marked := by
    obtain ⟨same, stays⟩ := follows
    rw [same] at marked
    obtain ⟨closed, length⟩ := kept.broken broken marked
    obtain ⟨still, accepted⟩ := stays closed
    rw [accepted]
    exact ⟨still, length⟩

theorem follows_prune (body : SharedNativeResponseBody) : Follows body body.pruneChunks := by
  obtain ⟨chunks, base, same⟩ := pruneChunks_eq body
  rw [same]
  exact ⟨rfl, fun closed => ⟨closed, rfl⟩⟩

theorem follows_addReader (body : SharedNativeResponseBody) (cursor : ℕ) :
    Follows body (body.addReader cursor) := by
  unfold SharedNativeResponseBody.addReader
  split <;> exact ⟨rfl, fun closed => ⟨closed, rfl⟩⟩

theorem follows_pullReader (body : SharedNativeResponseBody) (readerId : ℕ) (throws : Bool) :
    Follows body (body.pullReader readerId throws) := by
  unfold SharedNativeResponseBody.pullReader
  split
  · exact ⟨rfl, fun closed => ⟨closed, rfl⟩⟩
  · split
    · exact ⟨rfl, fun closed => ⟨closed, rfl⟩⟩
    · split
      · exact follows_prune (body.advance readerId _)
      · split
        · exact follows_prune (body.delete readerId)
        · split
          · exact follows_prune (body.delete readerId)
          · unfold SharedNativeResponseBody.fill SharedNativeResponseBody.readNext
            split
            · split
              · exact ⟨rfl, fun closed => ⟨closed, rfl⟩⟩
              · split <;> exact ⟨rfl, fun closed => ⟨closed, rfl⟩⟩
            · exact ⟨rfl, fun closed => ⟨closed, rfl⟩⟩

theorem Sealed.follows_cancel (whole : Sealed body) : Follows body body.cancel := by
  unfold SharedNativeResponseBody.cancel
  by_cases closed : body.closed = true
  · rw [if_pos closed]
    exact ⟨rfl, fun closed => ⟨closed, rfl⟩⟩
  · rw [if_neg closed]
    have cancelled : Sealed { body with
        readers := if body.abortFailure then body.readers else []
        chunks := []
        cancellationEpoch := body.cancellationEpoch + 1 } := { whole with }
    rw [cancelled.close_eq]
    exact ⟨rfl, fun _ => ⟨rfl, rfl⟩⟩

theorem Follows.trans {last : SharedNativeResponseBody} (first : Follows body next)
    (second : Follows next last) : Follows body last := by
  refine ⟨second.1.trans first.1, fun closed => ?_⟩
  obtain ⟨still, accepted⟩ := first.2 closed
  obtain ⟨ends, same⟩ := second.2 still
  exact ⟨ends, same.trans accepted⟩

theorem open_of_current (current : body.isPullCurrent cancellationEpoch = true) :
    body.closed = false := by
  unfold SharedNativeResponseBody.isPullCurrent at current
  rw [Bool.and_eq_true, Bool.and_eq_true] at current
  exact (Bool.not_eq_true' _).mp current.1.1

section

variable (sound : Sound body)

include sound

theorem Sound.accept (running : body.closed = false) (data : List UInt8) :
    Sound (body.accept data) := by
  have longer : body.accepted.length ≤ (body.accept data).accepted.length := by
    change _ ≤ (body.accepted ++ [_]).length
    rw [List.length_append]
    omega
  have going : body.ended = false := by
    rw [sound.endedDone]
    apply Bool.eq_false_iff.mpr
    intro done
    have closed := sound.doneClosed done
    rw [running] at closed
    cases closed
  exact { sound with
    window := by
      apply Or.inl
      change body.chunks ++ [_] = (body.accepted ++ [_]).drop body.baseCursor
      rw [sound.window_of_open running, List.drop_append_of_le_length sound.base]
    base := Nat.le_trans sound.base longer
    numbered := fun index chunk found => by
      have added : (body.accepted ++ [⟨body.accepted.length, data⟩])[index]? = some chunk := found
      by_cases old : index < body.accepted.length
      · rw [List.getElem?_append_left old] at added
        exact sound.numbered index chunk added
      · rw [List.getElem?_append_right (Nat.le_of_not_lt old)] at added
        have bound := (List.getElem?_eq_some_iff.mp added).1
        rw [List.length_singleton] at bound
        have last : index = body.accepted.length := by omega
        rw [last, Nat.sub_self] at added
        rw [← Option.some.inj added, last]
    serves := fun reader listed => by
      obtain ⟨base, bound, first, made, below, got⟩ := sound.serves reader listed
      refine ⟨base, Nat.le_trans bound longer, first, made, below, ?_⟩
      change body.received reader.1 = ((body.accepted ++ [_]).drop first).take (reader.2 - first)
      have fits : reader.2 - first ≤ (body.accepted.drop first).length := by
        rw [List.length_drop]
        omega
      rw [List.drop_append_of_le_length (Nat.le_trans below bound),
        List.take_append_of_le_length fits]
      exact got
    inOrder := fun reader started => by
      have prefix_ := sound.inOrder reader started
      have more : body.accepted.drop reader.2 <+: (body.accept data).accepted.drop reader.2 :=
        List.IsPrefix.drop (List.prefix_append _ _) reader.2
      exact prefix_.trans more
    known := fun entry listed => by
      obtain ⟨made, taken⟩ := sound.known entry listed
      exact ⟨made, List.mem_append_left _ taken⟩
    ends := fun readerId listed => by
      have ended := (sound.ends readerId listed).1
      rw [going] at ended
      cases ended }

theorem Sound.late : Sound body.late := by
  unfold SharedNativeResponseBody.late
  rw [sound.close_eq]
  exact sound.failed body.cancellationEpoch

theorem Sound.fail_eq (running : body.closed = false) : body.fail =
    { body.shut with failure := true, cancellationEpoch := body.cancellationEpoch + 1 } := by
  have whole : Sealed { body with
      failure := true, cancellationEpoch := body.cancellationEpoch + 1 } :=
    { sound.toSealed with }
  unfold SharedNativeResponseBody.fail
  rw [if_neg (Bool.eq_false_iff.mp running), whole.close_eq]
  rfl

theorem Sound.receive (limits : ResponseLimits)
    (current : body.isPullCurrent cancellationEpoch = true) (data : List UInt8) :
    Sound (body.receive limits cancellationEpoch data) := by
  have running := open_of_current current
  have counted : Sound { body with totalBytes := body.totalBytes + data.length } :=
    { sound with }
  unfold SharedNativeResponseBody.receive
  by_cases large : limits.maxResponseBodyBytes < body.totalBytes + data.length
  · simp only [if_pos large]
    rw [counted.fail_eq running]
    exact counted.failed (body.cancellationEpoch + 1)
  · simp only [if_neg large]
    split
    · exact counted.late
    · exact counted.accept running data

theorem Sound.receive_brokenAt (running : body.closed = false)
    (limits : ResponseLimits) (cancellationEpoch : ℕ) (data : List UInt8) :
    (body.receive limits cancellationEpoch data).brokenAt = body.brokenAt := by
  have counted : Sound { body with totalBytes := body.totalBytes + data.length } :=
    { sound with }
  unfold SharedNativeResponseBody.receive
  by_cases large : limits.maxResponseBodyBytes < body.totalBytes + data.length
  · simp only [if_pos large]
    rw [counted.fail_eq running]
    rfl
  · simp only [if_neg large]
    split
    · unfold SharedNativeResponseBody.late
      rw [counted.close_eq]
      rfl
    · rfl

theorem Sound.endRead (running : body.closed = false)
    (value : Option JsonValue) : Sound (body.endRead value) := by
  unfold SharedNativeResponseBody.endRead
  by_cases decodes : (decodeNetworkValue value).isSome = true
  · have whole : Sealed { body with done := true, ended := true } := { sound.toSealed with }
    rw [if_pos decodes, whole.close_eq]
    exact sound.ended running
  · have whole : Sealed { body with failure := true } := { sound.toSealed with }
    rw [if_neg decodes, whole.close_eq]
    exact sound.failed body.cancellationEpoch

theorem Sound.goOn (limits : ResponseLimits) (cancellationEpoch : ℕ)
    (result : StreamResult) : Sound (body.goOn limits cancellationEpoch result).1 := by
  unfold SharedNativeResponseBody.goOn
  by_cases current : body.isPullCurrent cancellationEpoch = true
  · rw [current, if_neg (by decide)]
    have running := open_of_current current
    cases result with
    | error => exact sound.late
    | ended value => exact sound.endRead running value
    | data value binary =>
      change Sound (takeData limits body cancellationEpoch value binary).1
      unfold takeData
      split
      · exact sound
      · split
        · change Sound body.fail
          rw [sound.fail_eq running]
          exact sound.failed (body.cancellationEpoch + 1)
        · exact sound.receive limits current _
  · rw [Bool.eq_false_iff.mpr current]
    exact sound.late

/-- A read that goes on leaves the marks, and closed bodies as they are. -/
theorem Sound.follows_goOn (limits : ResponseLimits) (cancellationEpoch : ℕ)
    (result : StreamResult) : Follows body (body.goOn limits cancellationEpoch result).1 := by
  have late : Follows body body.late := by
    unfold SharedNativeResponseBody.late
    rw [sound.close_eq]
    exact ⟨rfl, fun _ => ⟨rfl, rfl⟩⟩
  unfold SharedNativeResponseBody.goOn
  by_cases current : body.isPullCurrent cancellationEpoch = true
  · rw [current, if_neg (by decide)]
    have running := open_of_current current
    have opens : ∀ {goal : Prop}, body.closed = true → goal := by
      intro goal closed
      rw [running] at closed
      cases closed
    cases result with
    | error => exact late
    | ended value =>
      refine ⟨?_, fun closed => opens closed⟩
      change (body.endRead value).brokenAt = body.brokenAt
      unfold SharedNativeResponseBody.endRead
      split
      · have whole : Sealed { body with done := true, ended := true } := { sound.toSealed with }
        rw [whole.close_eq]
        rfl
      · have whole : Sealed { body with failure := true } := { sound.toSealed with }
        rw [whole.close_eq]
        rfl
    | data value binary =>
      refine ⟨?_, fun closed => opens closed⟩
      change (takeData limits body cancellationEpoch value binary).1.brokenAt = body.brokenAt
      unfold takeData
      split
      · rfl
      · split
        · change body.fail.brokenAt = _
          rw [sound.fail_eq running]
          rfl
        · exact sound.receive_brokenAt running limits cancellationEpoch _
  · rw [Bool.eq_false_iff.mpr current]
    exact late

theorem Sound.closed_of_breaks (limits : ResponseLimits)
    (filling : body.filling = some (.reading cancellationEpoch))
    (readable : body.readable result = true) (breaks : body.breaks limits result = true) :
    (body.goOn limits cancellationEpoch result).1.closed = true ∧
      (body.goOn limits cancellationEpoch result).1.accepted = body.accepted := by
  have late : body.late.closed = true ∧ body.late.accepted = body.accepted := by
    unfold SharedNativeResponseBody.late
    rw [sound.close_eq]
    exact ⟨rfl, rfl⟩
  unfold SharedNativeResponseBody.goOn
  by_cases current : body.isPullCurrent cancellationEpoch = true
  case neg =>
    rw [Bool.eq_false_iff.mpr current]
    exact late
  rw [current, if_neg (by decide)]
  have running := open_of_current current
  cases result with
  | error => exact late
  | ended value =>
    have fails : ¬ (decodeNetworkValue value).isSome = true := by
      rw [Option.isNone_iff_eq_none.mp breaks]
      exact Bool.false_ne_true
    have whole : Sealed { body with failure := true } := { sound.toSealed with }
    change (body.endRead value).closed = true ∧ (body.endRead value).accepted = body.accepted
    unfold SharedNativeResponseBody.endRead
    rw [if_neg fails, whole.close_eq]
    exact ⟨rfl, rfl⟩
  | data value binary =>
    change (takeData limits body cancellationEpoch value binary).1.closed = true ∧
      (takeData limits body cancellationEpoch value binary).1.accepted = body.accepted
    have shut (total : ℕ) : ({ body with totalBytes := total } :
        SharedNativeResponseBody).fail.closed = true ∧ ({ body with totalBytes := total } :
        SharedNativeResponseBody).fail.accepted = body.accepted := by
      have counted : Sound { body with totalBytes := total } := { sound with }
      rw [counted.fail_eq running]
      exact ⟨rfl, rfl⟩
    unfold takeData
    cases decoded : (decodeNetworkValue value).bind readRecord with
    | none =>
      unfold SharedNativeResponseBody.readable at readable
      rw [filling] at readable
      have clash : (!body.isPullCurrent cancellationEpoch ||
        ((decodeNetworkValue value).bind readRecord).isSome) = true := readable
      rw [current, decoded] at clash
      cases clash
    | some record =>
      cases data : dataOf limits record binary with
      | none =>
        simp only [data]
        exact shut body.totalBytes
      | some bytes =>
        have large : limits.maxResponseBodyBytes < body.totalBytes + bytes.length := by
          have all : (((decodeNetworkValue value).bind readRecord).bind fun record =>
            dataOf limits record binary).all (fun data =>
              decide (limits.maxResponseBodyBytes < body.totalBytes + data.length)) = true := breaks
          rw [decoded, Option.bind_some, data] at all
          exact of_decide_eq_true all
        simp only [data]
        unfold SharedNativeResponseBody.receive
        simp only [if_pos large]
        exact shut (body.totalBytes + bytes.length)

end

section

variable (kept : Kept body)

include kept

theorem Kept.settle (limits : ResponseLimits)
    (filling : body.filling = some (.reading cancellationEpoch))
    (readable : body.readable result = true) :
    Kept (body.settle limits cancellationEpoch result) := by
  unfold SharedNativeResponseBody.settle markBroken
  by_cases breaks : body.breaks limits result = true
  · simp only [if_pos breaks]
    have marked : Sound { body with brokenAt := some (body.brokenAt.getD body.accepted.length) } :=
      { kept.toSound with }
    obtain ⟨closed, accepted⟩ := marked.closed_of_breaks limits filling readable breaks
    have follows := marked.follows_goOn limits cancellationEpoch result
    have gone := marked.goOn limits cancellationEpoch result
    exact { gone with
      broken := fun broken noted => by
        have same := follows.1.symm.trans noted
        refine ⟨closed, ?_⟩
        have length : body.brokenAt.getD body.accepted.length = broken := Option.some.inj same
        change (SharedNativeResponseBody.goOn limits _ cancellationEpoch result).1.accepted.length =
          broken
        rw [accepted]
        change body.accepted.length = broken
        cases before : body.brokenAt with
        | none =>
          rw [before] at length
          exact length
        | some already =>
          rw [before] at length
          rw [← length]
          exact (kept.broken already before).2 }
  · simp only [if_neg breaks]
    have gone := kept.goOn limits cancellationEpoch result
    have followed := kept.follow gone (kept.follows_goOn limits cancellationEpoch result)
    exact { followed with }

theorem Kept.abort : Kept body.abort := by
  unfold SharedNativeResponseBody.abort
  by_cases over_ : (body.closed || body.done || body.failure) = true
  · rw [if_pos over_]
    exact kept
  rw [if_neg over_]
  rw [Bool.not_eq_true, Bool.or_eq_false_iff, Bool.or_eq_false_iff] at over_
  obtain ⟨⟨running, going⟩, _⟩ := over_
  have whole : Sealed { body with
      abortFailure := true, failure := true, readers := body.readers, chunks := [],
      cancellationEpoch := body.cancellationEpoch + 1 } := { kept.toSealed with }
  have aborted : ({ body with abortFailure := true, failure := true } :
      SharedNativeResponseBody).cancel = { body.shut with
        abortFailure := true, failure := true, readers := body.readers, chunks := [],
        cancellationEpoch := body.cancellationEpoch + 1 } := by
    unfold SharedNativeResponseBody.cancel
    have open_ : ¬ ({ body with abortFailure := true, failure := true } :
        SharedNativeResponseBody).closed = true := Bool.eq_false_iff.mp running
    rw [if_neg open_]
    exact whole.close_eq
  have cancelled := kept.cancelled going (List.Sublist.refl _) (body.cancellationEpoch + 1)
  rw [aborted]
  exact { cancelled with
    failureClosed := fun _ => rfl
    broken := fun broken marked => ⟨rfl, (kept.broken broken marked).2⟩ }

theorem Kept.dispose : Kept body.dispose := by
  have stopped : Kept { body with isCurrent := false } := { kept with }
  unfold SharedNativeResponseBody.dispose
  by_cases gone : body.released = true
  · simp only [if_pos gone]
    exact stopped
  simp only [if_neg gone]
  have cancelled := stopped.toSound.cancel
  have follows := stopped.toSealed.follows_cancel
  have running : body.closed = false := by
    rw [← kept.lease]
    exact Bool.eq_false_iff.mpr gone
  have closed : ({ body with isCurrent := false } : SharedNativeResponseBody).cancel.closed =
      true := by
    have open_ : ¬ ({ body with isCurrent := false } : SharedNativeResponseBody).closed = true :=
      Bool.eq_false_iff.mp running
    have whole : Sealed { body with
        isCurrent := false
        readers := if body.abortFailure then body.readers else []
        chunks := []
        cancellationEpoch := body.cancellationEpoch + 1 } := { kept.toSealed with }
    unfold SharedNativeResponseBody.cancel
    rw [if_neg open_, whole.close_eq]
    rfl
  have resource : ({ body with isCurrent := false } :
      SharedNativeResponseBody).cancel.resourceClosed = true := by
    rw [cancelled.resource]
    exact closed
  have lease : ({ body with isCurrent := false } : SharedNativeResponseBody).cancel.released =
      true := by
    rw [cancelled.lease]
    exact closed
  have same : ({ body with isCurrent := false } :
      SharedNativeResponseBody).cancel.closeResource.release =
        ({ body with isCurrent := false } : SharedNativeResponseBody).cancel := by
    unfold closeResource release
    rw [if_pos resource, if_pos lease]
  rw [same]
  exact stopped.follow cancelled follows

theorem Kept.createReader
    (orderly : body.isOrderly .createReader = true) : Kept body.createReader := by
  have intact : body.done = true → body.chunks = body.accepted.drop body.baseCursor := by
    intro done
    rcases kept.window with window | ⟨none, _, gone⟩
    · exact window
    · change (!(body.done && body.readers.isEmpty &&
        decide (body.baseCursor < body.accepted.length))) = true at orderly
      rw [done, gone done, Bool.not_eq_true', Bool.and_eq_false_iff] at orderly
      rcases orderly with never | reached
      · cases never
      · have all := of_decide_eq_false reached
        rw [none, List.drop_eq_nil_of_le (Nat.le_of_not_lt all)]
  have added := kept.addReader le_rfl kept.base intact
  exact kept.follow added (follows_addReader body body.baseCursor)

theorem Kept.cloneReader (readerId : ℕ) : Kept (body.cloneReader readerId) := by
  unfold SharedNativeResponseBody.cloneReader
  cases found : body.cursorOf readerId with
  | none => exact kept
  | some cursor =>
    have listed := mem_of_cursorOf found
    obtain ⟨base, bound, _⟩ := kept.serves _ listed
    have intact : body.done = true → body.chunks = body.accepted.drop body.baseCursor := by
      intro done
      rcases kept.window with window | ⟨_, _, gone⟩
      · exact window
      · rw [gone done] at listed
        cases listed
    exact kept.follow (kept.addReader base bound intact) (follows_addReader body cursor)

theorem Kept.cancelReader (readerId : ℕ) : Kept (body.cancelReader readerId) := by
  apply kept.follow (kept.toSound.cancelReader readerId)
  have left : Follows body (body.leave readerId) := follows_prune (body.delete readerId)
  unfold SharedNativeResponseBody.cancelReader
  split
  · exact ⟨rfl, fun closed => ⟨closed, rfl⟩⟩
  · simp only
    split
    · have whole : Sealed (body.leave readerId) := by
        unfold SharedNativeResponseBody.leave
        obtain ⟨chunks, base, same⟩ := pruneChunks_eq (body.delete readerId)
        rw [same]
        exact { kept.toSealed with }
      exact left.trans whole.follows_cancel
    · exact left

theorem Kept.step {limits : ResponseLimits} {event : ResponseEvent}
    (orderly : body.isOrderly event = true) (stepped : body.step limits event = some next) :
    Kept next := by
  cases event with
  | createReader =>
    rw [← Option.some.inj stepped]
    exact kept.createReader orderly
  | cloneReader readerId =>
    rw [← Option.some.inj stepped]
    exact kept.cloneReader readerId
  | pullReader readerId throws =>
    rw [← Option.some.inj stepped]
    exact kept.follow (kept.pullReader readerId throws) (follows_pullReader body readerId throws)
  | settled result =>
    unfold SharedNativeResponseBody.step at stepped
    cases filling : body.filling with
    | none =>
      simp only [filling] at stepped
      cases stepped
    | some reading =>
      cases reading with
      | reading cancellationEpoch =>
        simp only [filling] at stepped
        rw [← Option.some.inj stepped]
        exact kept.settle limits filling orderly
      | settled rejects =>
        simp only [filling] at stepped
        cases stepped
  | filled =>
    unfold SharedNativeResponseBody.step at stepped
    cases filling : body.filling with
    | none =>
      simp only [filling] at stepped
      cases stepped
    | some reading =>
      cases reading with
      | reading cancellationEpoch =>
        simp only [filling] at stepped
        cases stepped
      | settled rejects =>
        simp only [filling] at stepped
        rw [← Option.some.inj stepped]
        exact { kept with }
  | resumed index throws =>
    obtain ⟨waiter, found, woke⟩ := Option.bind_eq_some_iff.mp stepped
    obtain ⟨rejects, woken, same⟩ := Option.map_eq_some_iff.mp woke
    have rest : Kept { body with waiting := body.waiting.eraseIdx index } := { kept with }
    rw [← same]
    cases rejects with
    | true => exact rest
    | false =>
      exact rest.follow (rest.pullReader waiter.readerId throws)
        (follows_pullReader _ waiter.readerId throws)
  | cancelReader readerId =>
    rw [← Option.some.inj stepped]
    exact kept.cancelReader readerId
  | cancel =>
    rw [← Option.some.inj stepped]
    exact kept.follow kept.toSound.cancel kept.follows_cancel
  | abort =>
    rw [← Option.some.inj stepped]
    exact kept.abort
  | dispose =>
    rw [← Option.some.inj stepped]
    exact kept.dispose

end

theorem Kept.begins : Kept start where
  resource := rfl
  lease := rfl
  closings := rfl
  releases := rfl
  window := .inl rfl
  base := le_rfl
  numbered index chunk found := by cases found
  serves reader listed := by cases listed
  distinct := List.nodup_nil
  fresh reader listed := by cases listed
  once := List.nodup_nil
  inOrder reader listed := by cases listed
  known entry listed := by cases listed
  ends readerId listed := by cases listed
  endedDone := rfl
  doneClosed done := by cases done
  failureClosed failed := by cases failed
  broken broken marked := by cases marked

theorem Kept.exactBody (kept : Kept body) : ExactBody body where
  inOrder := kept.inOrder
  known entry listed := (kept.known entry listed).1
  ends := kept.ends
  nothingAfter broken marked entry listed := by
    obtain ⟨index, bound, same⟩ := List.getElem_of_mem (kept.known entry listed).2
    have numbered := kept.numbered index entry.2 (by rw [List.getElem?_eq_getElem bound, same])
    have length := (kept.broken broken marked).2
    omega
  closedOnce marked := by
    obtain ⟨broken, same⟩ := Option.isSome_iff_exists.mp marked
    have closed := (kept.broken broken same).1
    rw [kept.closings, kept.releases, if_pos closed]
    exact ⟨rfl, rfl⟩

/-- In runs of orderly events, every reader sees the exact body. -/
theorem orderly_exactBody {limits : ResponseLimits} {events : List ResponseEvent}
    {body : SharedNativeResponseBody} (reached : (responseBody limits).ReachesWhen
      (fun state event => state.isOrderly event = true) events body) : ExactBody body := by
  have kept : Kept body := by
    apply reached.invariant
    · exact Kept.begins
    · intro state event next kept orderly stepped
      exact Kept.step kept orderly stepped
  exact kept.exactBody

/-- The value of a data event. -/
def bodyValue : JsonValue :=
  .object [(js "ok", .boolean true), (js "value", .object [(js "kind", .string (js "body"))])]

/-- Two readers at different cursors see one body. -/
theorem orderly_exactBody_shared : ∃ body, ExactBody body ∧
    body.received 1 = [⟨0, [1]⟩, ⟨1, [2]⟩] ∧ body.received 2 = [⟨1, [2]⟩] ∧
    body.endings = [1] ∧ body.closings = 1 := by
  have computed : (((responseBody ⟨4, 10⟩).guarded fun state event =>
      state.isOrderly event = true).run
      [.createReader, .pullReader 1 false, .settled (.data bodyValue (some [[1]])), .filled,
        .resumed 0 false, .cloneReader 1, .pullReader 1 false,
        .settled (.data bodyValue (some [[2]])), .filled, .resumed 0 false,
        .pullReader 1 false, .settled (.ended (some bodyValue)), .filled, .resumed 0 false,
        .pullReader 2 false]).map (fun body =>
          (body.received 1, body.received 2, body.endings, body.closings)) =
      some ([⟨0, [1]⟩, ⟨1, [2]⟩], [⟨1, [2]⟩], [1], 1) := by
    decide +kernel
  obtain ⟨body, reached, same⟩ := Machine.exists_of_guarded_run computed
  simp only [Prod.mk.injEq] at same
  obtain ⟨first, second, endings, closings⟩ := same
  exact ⟨body, orderly_exactBody reached, first, second, endings,
    closings⟩

/-- A data event without a record makes one pull throw, and the next one gets what comes after. -/
theorem not_exactBody : ¬ ∀ (limits : ResponseLimits) (events : List ResponseEvent)
    (body : SharedNativeResponseBody), (responseBody limits).Reaches events body →
      ExactBody body := by
  intro all
  have computed : ((responseBody ⟨4, 10⟩).run
      [.createReader, .pullReader 1 false, .settled (.data .null none), .filled,
        .resumed 0 false, .pullReader 1 false, .settled (.data bodyValue (some [[2]])), .filled,
        .resumed 0 false]).map (fun body => (body.brokenAt, body.returned)) =
      some (some 0, [(1, ⟨0, [2]⟩)]) := by
    decide +kernel
  obtain ⟨body, reached, same⟩ := Machine.exists_of_run computed
  simp only [Prod.mk.injEq] at same
  have exact_ := all ⟨4, 10⟩ _ body reached
  have late := exact_.nothingAfter 0 same.1 (1, ⟨0, [2]⟩) (by
    rw [same.2]
    exact List.mem_singleton.mpr rfl)
  exact Nat.not_lt_zero _ late

end SharedNativeResponseBody

end Holonomy.Network
