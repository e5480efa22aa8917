import Holonomy.HoloUv.EnvironmentRuntime

/-!
# Steps of the environments

The steps that end records: a closing takes its record out of the table and runs the listeners of
the abort, its promise comes when they are through, and the closing of a generation or of the
runtime goes through the records that were in the table.
-/

namespace Holonomy.HoloUv

open Foundation Kernel

/-! ## The books of the environments

A record that is done with is on its way to the one call of its environment's `close`: it waits in
the table of a closing, its abort is running, its closing waits for the environment, or the call was
made.
-/

section

/-- The records that a frame is about. -/
def Frame.names : Frame → List ℕ
  | .settling serial => [serial]
  | .mapping serials _ => serials

def EnvironmentRecord.HasEnded (record : EnvironmentRecord) (history : List Happening) : Prop :=
  record.released = true ∨ ∃ happening ∈ history, happening.ends record.generation = true

/-- What the books say about one record. -/
structure EnvironmentRecord.Sound (record : EnvironmentRecord) (serial : ℕ)
    (records : OrderedMap Text ℕ) (stack : List Frame) (history : List Happening) : Prop where
  once : record.closes + record.waiting = record.closePromise.toNat
  settledLe : record.settled ≤ record.closes
  ready : 0 < record.closes → record.progress = .ready
  aborts : record.aborted = record.closed
  promised : record.closePromise = true → record.closed = true
  settles : record.closed = true → record.closePromise = true ∨ .settling serial ∈ stack
  pending : .settling serial ∈ stack → record.closed = true ∧ record.closePromise = false
  tabled : records.get? record.environmentId = some serial ∨ record.closed = true ∨
    record.progress = .failed
  ends : record.closed = true → record.HasEnded history
  ended : record.HasEnded history → record.closed = true ∨ record.progress = .failed ∨
    ∃ serials whole, .mapping serials whole ∈ stack ∧ serial ∈ serials
  scheduled : record.progress = .scheduled →
    ∀ happening ∈ history, happening.ends record.generation = false

variable {record : EnvironmentRecord} {serial : ℕ} {records : OrderedMap Text ℕ}
  {stack : List Frame} {history happened : List Happening}

theorem EnvironmentRecord.Sound.uncalled (sound : record.Sound serial records stack history)
    (unready : record.progress ≠ .ready) : record.closes = 0 := by
  cases calls : record.closes with
  | zero => rfl
  | succ count => exact absurd (sound.ready (by omega)) unready

theorem EnvironmentRecord.Sound.unclosed (sound : record.Sound serial records stack history)
    (unpromised : record.closePromise = false) (quiet : .settling serial ∉ stack) :
    record.closed = false := by
  cases closed : record.closed with
  | false => rfl
  | true =>
    rcases sound.settles closed with promised | settling
    · rw [promised] at unpromised
      cases unpromised
    · exact absurd settling quiet

namespace HoloUvEnvironmentRuntime

/-- What the books say about the runtime. -/
structure Kept (runtime : HoloUvEnvironmentRuntime) : Prop where
  sound : ∀ (serial : ℕ) (record : EnvironmentRecord), runtime.issued[serial]? = some record →
    record.Sound serial runtime.records runtime.stack runtime.history
  alone : ∀ (serial : ℕ) (record : EnvironmentRecord) (other : ℕ) (twin : EnvironmentRecord),
    serial ≠ other → runtime.issued[serial]? = some record → runtime.issued[other]? = some twin →
      record.environmentId = twin.environmentId → record.isOver = true ∨ twin.isOver = true
  tabled : ∀ environmentId serial, runtime.records.get? environmentId = some serial →
    ∃ record, runtime.issued[serial]? = some record ∧ record.environmentId = environmentId ∧
      record.closed = false
  known : ∀ frame ∈ runtime.stack, ∀ serial ∈ frame.names, serial < runtime.issued.length
  mapped : ∀ serials whole, .mapping serials whole ∈ runtime.stack → ∀ serial ∈ serials,
    ∀ record : EnvironmentRecord, runtime.issued[serial]? = some record →
      record.HasEnded runtime.history
  nested : runtime.stack.Pairwise fun upper lower => ∀ serial ∈ upper.names,
    lower ≠ .settling serial
  barred : ∀ happening ∈ runtime.history, ∀ generation, happening.ends generation = true →
    runtime.closed = true ∨ generation ∈ runtime.closedGenerations
  promised : runtime.closePromise = true ∨ (∃ serials, .mapping serials true ∈ runtime.stack) →
    .closedRuntime ∈ runtime.history
  inOrder : runtime.history.Pairwise fun earlier later => earlier.forbids later = false

theorem kept_new : new.Kept where
  sound := by
    intro serial record found
    cases found
  alone := by
    intro serial record other twin _ found
    cases found
  tabled := by
    intro environmentId serial found
    cases found
  known := by
    intro frame listed
    cases listed
  mapped := by
    intro serials whole listed
    cases listed
  nested := .nil
  barred := by
    intro happening listed
    cases listed
  promised := by
    rintro (yes | ⟨serials, listed⟩)
    · cases yes
    · cases listed
  inOrder := .nil

end HoloUvEnvironmentRuntime

structure Changes (before after : List EnvironmentRecord) (serial : ℕ)
    (record changed : EnvironmentRecord) : Prop where
  found : before[serial]? = some record
  made : after[serial]? = some changed
  others : ∀ other : ℕ, other ≠ serial → after[other]? = before[other]?
  length : after.length = before.length

namespace Changes

variable {before middle after : List EnvironmentRecord} {serial : ℕ}
  {record between changed : EnvironmentRecord}

theorem of_modify (found : before[serial]? = some record)
    (change : EnvironmentRecord → EnvironmentRecord) :
    Changes before (before.modify serial change) serial record (change record) where
  found := found
  made := by
    rw [List.getElem?_modify_eq, found]
    rfl
  others other differs := List.getElem?_modify_ne change before differs.symm
  length := List.length_modify change before serial

theorem trans (first : Changes before middle serial record between)
    (second : Changes middle after serial between changed) :
    Changes before after serial record changed where
  found := first.found
  made := second.made
  others other differs := (second.others other differs).trans (first.others other differs)
  length := second.length.trans first.length

theorem cases_found (changes : Changes before after serial record changed) {other : ℕ}
    {found : EnvironmentRecord} (here : after[other]? = some found) :
    (other = serial ∧ found = changed) ∨ (other ≠ serial ∧ before[other]? = some found) := by
  by_cases own : other = serial
  · rw [own, changes.made] at here
    exact .inl ⟨own, (Option.some.inj here).symm⟩
  · rw [changes.others other own] at here
    exact .inr ⟨own, here⟩

theorem alone (changes : Changes before after serial record changed)
    (kept : ∀ (first : ℕ) (record : EnvironmentRecord) (second : ℕ) (twin : EnvironmentRecord),
      first ≠ second → before[first]? = some record → before[second]? = some twin →
        record.environmentId = twin.environmentId → record.isOver = true ∨ twin.isOver = true)
    (name : changed.environmentId = record.environmentId)
    (ending : record.isOver = true → changed.isOver = true) :
    ∀ (first : ℕ) (record : EnvironmentRecord) (second : ℕ) (twin : EnvironmentRecord),
      first ≠ second → after[first]? = some record → after[second]? = some twin →
        record.environmentId = twin.environmentId → record.isOver = true ∨ twin.isOver = true := by
  have traced : ∀ (place : ℕ) (found : EnvironmentRecord), after[place]? = some found →
      ∃ earlier, before[place]? = some earlier ∧
        found.environmentId = earlier.environmentId ∧
        (earlier.isOver = true → found.isOver = true) := by
    intro place found here
    rcases changes.cases_found here with ⟨rfl, rfl⟩ | ⟨-, same⟩
    · exact ⟨record, changes.found, name, ending⟩
    · exact ⟨found, same, rfl, id⟩
  intro first one second twin differ firstFound secondFound same
  obtain ⟨left, leftFound, leftName, leftOver⟩ := traced first one firstFound
  obtain ⟨right, rightFound, rightName, rightOver⟩ := traced second twin secondFound
  rw [leftName, rightName] at same
  exact (kept first left second right differ leftFound rightFound same).imp leftOver rightOver

end Changes

structure EnvironmentRecord.Advances (record after : EnvironmentRecord) : Prop where
  name : after.environmentId = record.environmentId
  generation : after.generation = record.generation
  released : after.released = record.released
  closed : after.closed = record.closed
  aborted : after.aborted = record.aborted
  closePromise : after.closePromise = record.closePromise
  failed : record.progress = .failed → after.progress = .failed
  ending : record.isOver = true → after.isOver = true
  begun : after.progress ≠ .scheduled
  once : after.closes + after.waiting = record.closes + record.waiting
  settledLe : after.settled ≤ after.closes
  ready : 0 < after.closes → after.progress = .ready

/-- What happens without closing anything. -/
def Harmless (happened : List Happening) : Prop :=
  ∀ happening ∈ happened, ∀ generation, happening.ends generation = false

theorem hasEnded_append (harmless : Harmless happened) :
    record.HasEnded (history ++ happened) ↔ record.HasEnded history := by
  constructor
  · rintro (released | ⟨happening, listed, ends⟩)
    · exact .inl released
    · rcases List.mem_append.mp listed with before | now
      · exact .inr ⟨happening, before, ends⟩
      · rw [harmless happening now] at ends
        cases ends
  · rintro (released | ⟨happening, listed, ends⟩)
    · exact .inl released
    · exact .inr ⟨happening, List.mem_append_left _ listed, ends⟩

theorem EnvironmentRecord.Sound.advance {after : EnvironmentRecord}
    (sound : record.Sound serial records stack history) (advances : record.Advances after)
    (harmless : Harmless happened) : after.Sound serial records stack (history ++ happened) := by
  have same : after.HasEnded (history ++ happened) ↔ record.HasEnded history := by
    rw [hasEnded_append harmless, HasEnded, HasEnded, advances.released, advances.generation]
  constructor
  · rw [advances.once, advances.closePromise]
    exact sound.once
  · exact advances.settledLe
  · exact advances.ready
  · rw [advances.aborted, advances.closed]
    exact sound.aborts
  · rw [advances.closePromise, advances.closed]
    exact sound.promised
  · rw [advances.closePromise, advances.closed]
    exact sound.settles
  · rw [advances.closePromise, advances.closed]
    exact sound.pending
  · rw [advances.name, advances.closed]
    exact sound.tabled.imp_right fun left => left.imp_right advances.failed
  · rw [same, advances.closed]
    exact sound.ends
  · rw [same, advances.closed]
    exact fun ended => (sound.ended ended).imp_right fun left => left.imp_left advances.failed
  · exact fun scheduled => absurd scheduled advances.begun

theorem EnvironmentRecord.Sound.happen (sound : record.Sound serial records stack history)
    (harmless : Harmless happened) : record.Sound serial records stack (history ++ happened) :=
  { sound with
    ends := fun closed => (hasEnded_append harmless).mpr (sound.ends closed)
    ended := fun ended => sound.ended ((hasEnded_append harmless).mp ended)
    scheduled := by
      intro scheduled happening listed
      rcases List.mem_append.mp listed with before | now
      · exact sound.scheduled scheduled happening before
      · exact harmless happening now record.generation }

namespace HoloUvEnvironmentRuntime

variable {runtime next : HoloUvEnvironmentRuntime} {serial : ℕ}

theorem lt_of_found {record : EnvironmentRecord} (here : runtime.issued[serial]? = some record) :
    serial < runtime.issued.length := by
  obtain ⟨inside, -⟩ := List.getElem?_eq_some_iff.mp here
  exact inside

theorem Kept.alter (kept : runtime.Kept) {possible : EnvironmentRecord → Bool}
    {changed : EnvironmentRecord → EnvironmentRecord}
    {happened : EnvironmentRecord → List Happening}
    (stepped : runtime.alter serial possible changed happened = some next)
    (advances : ∀ record : EnvironmentRecord, runtime.issued[serial]? = some record →
      possible record = true → record.Advances (changed record) ∧ Harmless (happened record) ∧
        (runtime.history ++ happened record).Pairwise
          fun earlier later => earlier.forbids later = false) :
    next.Kept := by
  unfold HoloUvEnvironmentRuntime.alter at stepped
  cases here : runtime.issued[serial]? with
  | none =>
    rw [here] at stepped
    cases stepped
  | some record =>
    rw [here] at stepped
    simp only at stepped
    split at stepped
    · next able =>
      obtain ⟨moves, harmless, inOrder⟩ := advances record here able
      cases stepped
      have changes := Changes.of_modify here changed
      constructor
      · intro other found there
        rcases changes.cases_found there with ⟨rfl, rfl⟩ | ⟨-, same⟩
        · exact (kept.sound _ _ here).advance moves harmless
        · exact (kept.sound _ _ same).happen harmless
      · exact changes.alone kept.alone moves.name moves.ending
      · intro environmentId place listed
        obtain ⟨found, there, name, isOpen⟩ := kept.tabled environmentId place listed
        by_cases own : place = serial
        · rw [own, here] at there
          cases there
          refine ⟨changed record, ?_, moves.name.trans name, moves.closed.trans isOpen⟩
          rw [own]
          exact changes.made
        · exact ⟨found, (changes.others place own).trans there, name, isOpen⟩
      · intro frame listed other named
        change other < (runtime.issued.modify serial changed).length
        rw [changes.length]
        exact kept.known frame listed other named
      · intro serials whole listed other named found there
        rcases changes.cases_found there with ⟨rfl, rfl⟩ | ⟨-, same⟩
        · have before := kept.mapped serials whole listed other named record here
          change (changed record).HasEnded (runtime.history ++ happened record)
          rw [hasEnded_append harmless]
          unfold EnvironmentRecord.HasEnded at before ⊢
          rw [moves.released, moves.generation]
          exact before
        · exact (hasEnded_append harmless).mpr
            (kept.mapped serials whole listed other named found same)
      · exact kept.nested
      · intro happening listed generation ends
        rcases List.mem_append.mp listed with before | now
        · exact kept.barred happening before generation ends
        · rw [harmless happening now] at ends
          cases ends
      · exact fun due => List.mem_append_left _ (kept.promised due)
      · exact inOrder
    · cases stepped

end HoloUvEnvironmentRuntime

end

/-- A call is left with the record it goes on with taken out of what it is still to close. -/
structure Pops (serial : ℕ) (stack lower : List Frame) : Prop where
  settling : ∀ other, .settling other ∈ lower ↔ .settling other ∈ stack
  covered : ∀ serials whole other, other ≠ serial → .mapping serials whole ∈ stack →
    other ∈ serials → ∃ serials whole, .mapping serials whole ∈ lower ∧ other ∈ serials
  within : ∀ serials whole, .mapping serials whole ∈ lower →
    ∃ more, .mapping more whole ∈ stack ∧ serials ⊆ more
  nested : lower.Pairwise fun upper lower => ∀ serial ∈ upper.names, lower ≠ .settling serial

variable {serial : ℕ} {stack : List Frame}

theorem Pops.refl
    (nested : stack.Pairwise fun upper lower => ∀ serial ∈ upper.names, lower ≠ .settling serial) :
    Pops serial stack stack where
  settling _ := Iff.rfl
  covered serials whole _ _ listed named := ⟨serials, whole, listed, named⟩
  within serials _ listed := ⟨serials, listed, List.Subset.refl serials⟩
  nested := nested

/-- A closing goes on with the first of its records. -/
theorem Pops.mapping {serials : List ℕ} {whole : Bool}
    (nested : (Frame.mapping (serial :: serials) whole :: stack).Pairwise fun upper lower =>
      ∀ serial ∈ upper.names, lower ≠ .settling serial) :
    Pops serial (.mapping (serial :: serials) whole :: stack)
      (.mapping serials whole :: stack) where
  settling other := by
    rw [List.mem_cons, List.mem_cons]
    constructor
    · rintro (same | listed)
      · cases same
      · exact .inr listed
    · rintro (same | listed)
      · cases same
      · exact .inr listed
  covered := by
    intro listed all other differs inside named
    rcases List.mem_cons.mp inside with same | later
    · cases same
      rcases List.mem_cons.mp named with own | others
      · exact absurd own differs
      · exact ⟨serials, whole, List.mem_cons_self .., others⟩
    · exact ⟨listed, all, List.mem_cons_of_mem _ later, named⟩
  within := by
    intro listed all inside
    rcases List.mem_cons.mp inside with same | later
    · cases same
      exact ⟨serial :: serials, List.mem_cons_self .., List.subset_cons_self ..⟩
    · exact ⟨listed, List.mem_cons_of_mem _ later, List.Subset.refl listed⟩
  nested := by
    rw [List.pairwise_cons] at nested ⊢
    exact ⟨fun lower listed other named =>
      nested.1 lower listed other (List.mem_cons_of_mem _ named), nested.2⟩

theorem EnvironmentRecord.Sound.pop {record : EnvironmentRecord} {other : ℕ}
    {records : OrderedMap Text ℕ} {lower : List Frame} {history : List Happening}
    (sound : record.Sound other records stack history) (pops : Pops serial stack lower)
    (covered : other ≠ serial ∨ record.closed = true) : record.Sound other records lower history :=
  { sound with
    settles := fun closed => (sound.settles closed).imp_right (pops.settling other).mpr
    pending := fun settling => sound.pending ((pops.settling other).mp settling)
    ended := by
      intro ended
      rcases covered with differs | closed
      · rcases sound.ended ended with closed | failed | ⟨serials, whole, listed, named⟩
        · exact .inl closed
        · exact .inr (.inl failed)
        · exact .inr (.inr (pops.covered serials whole other differs listed named))
      · exact .inl closed }

namespace HoloUvEnvironmentRuntime

variable {runtime next : HoloUvEnvironmentRuntime} {serial : ℕ}
  {record changed : EnvironmentRecord}

variable {environmentId name : Text} {other : ℕ} {lower stack : List Frame} {whole : Bool}

theorem get?_withdraw {other : Text} :
    (runtime.withdraw serial environmentId).records.get? other =
      if other = environmentId ∧ runtime.records.get? environmentId = some serial then none
      else runtime.records.get? other := by
  unfold withdraw
  split
  · next own =>
    rw [OrderedMap.get?_delete]
    by_cases same : other = environmentId
    · rw [if_pos same, if_pos ⟨same, own⟩]
    · rw [if_neg same, if_neg fun both => same both.1]
  · next foreign => rw [if_neg fun both => foreign both.2]

theorem get?_withdraw_other (differs : other ≠ serial)
    (tabled : runtime.records.get? name = some other) :
    (runtime.withdraw serial environmentId).records.get? name = some other := by
  rw [get?_withdraw, if_neg]
  · exact tabled
  · rintro ⟨rfl, own⟩
    rw [own] at tabled
    exact differs (Option.some.inj tabled).symm

section

variable (kept : runtime.Kept)

include kept

theorem Kept.get?_withdraw (here : runtime.issued[serial]? = some record)
    (tabled : (runtime.withdraw serial record.environmentId).records.get? name = some other) :
    other ≠ serial ∧ runtime.records.get? name = some other := by
  rw [HoloUvEnvironmentRuntime.get?_withdraw] at tabled
  split at tabled
  · cases tabled
  · next stays =>
    refine ⟨?_, tabled⟩
    rintro rfl
    obtain ⟨found, there, named, -⟩ := kept.tabled name other tabled
    rw [here] at there
    cases there
    rw [named] at stays
    exact stays ⟨rfl, tabled⟩

theorem Kept.begin_
    (pops : Pops serial runtime.stack lower)
    (unpromised : record.closePromise = false) (quiet : .settling serial ∉ runtime.stack)
    (changes : Changes runtime.issued next.issued serial record changed)
    (made : changed = { record with
      closed := true, aborted := true, released := changed.released })
    (ended : changed.HasEnded runtime.history)
    (records : next.records = (runtime.withdraw serial record.environmentId).records)
    (stack : next.stack = .settling serial :: lower) (history : next.history = runtime.history)
    (closedGenerations : next.closedGenerations = runtime.closedGenerations)
    (closed : next.closed = runtime.closed)
    (closePromise : next.closePromise = runtime.closePromise) : next.Kept := by
  have own := kept.sound serial record changes.found
  have name : changed.environmentId = record.environmentId := by rw [made]
  have same : changed.generation = record.generation := by rw [made]
  have progress : changed.progress = record.progress := by rw [made]
  have promise : changed.closePromise = false := by
    rw [made]
    exact unpromised
  have nowClosed : changed.closed = true := by rw [made]
  constructor
  · intro other found there
    rw [records, stack, history]
    rcases changes.cases_found there with ⟨rfl, rfl⟩ | ⟨differs, before⟩
    · constructor
      · rw [promise, made]
        have once := own.once
        rw [unpromised] at once
        exact once
      · rw [made]
        exact own.settledLe
      · rw [made]
        exact own.ready
      · rw [made]
      · intro _
        exact nowClosed
      · exact fun _ => .inr (List.mem_cons_self ..)
      · exact fun _ => ⟨nowClosed, promise⟩
      · exact .inr (.inl nowClosed)
      · exact fun _ => ended
      · exact fun _ => .inl nowClosed
      · rw [progress, same]
        exact own.scheduled
    · have popped := (kept.sound other found before).pop pops (.inl differs)
      refine { popped with
        settles := fun closed => (popped.settles closed).imp_right (List.mem_cons_of_mem _)
        pending := ?_
        tabled := popped.tabled.imp_left (get?_withdraw_other differs)
        ended := ?_ }
      · intro settling
        rcases List.mem_cons.mp settling with clash | listed
        · cases clash
          exact absurd rfl differs
        · exact popped.pending listed
      · intro over'
        rcases popped.ended over' with closed | failed | ⟨serials, whole, listed, named⟩
        · exact .inl closed
        · exact .inr (.inl failed)
        · exact .inr (.inr ⟨serials, whole, List.mem_cons_of_mem _ listed, named⟩)
  · refine changes.alone kept.alone name fun over' => ?_
    rw [made]
    exact over'
  · intro environmentId place tabled
    rw [records] at tabled
    obtain ⟨differs, before⟩ := kept.get?_withdraw changes.found tabled
    obtain ⟨found, there, rest⟩ := kept.tabled environmentId place before
    exact ⟨found, (changes.others place differs).trans there, rest⟩
  · intro frame listed other named
    rw [stack] at listed
    rw [changes.length]
    rcases List.mem_cons.mp listed with rfl | below
    · rw [List.mem_singleton.mp named]
      exact lt_of_found changes.found
    · cases frame with
      | settling place =>
        exact kept.known _ ((pops.settling place).mp below) other named
      | mapping serials whole =>
        obtain ⟨more, before, subset⟩ := pops.within serials whole below
        exact kept.known _ before other (subset named)
  · intro serials whole listed other named found there
    rw [stack] at listed
    rw [history]
    rcases List.mem_cons.mp listed with clash | below
    · cases clash
    · obtain ⟨more, before, subset⟩ := pops.within serials whole below
      rcases changes.cases_found there with ⟨rfl, rfl⟩ | ⟨-, earlier⟩
      · exact ended
      · exact kept.mapped more whole before other (subset named) found earlier
  · rw [stack, List.pairwise_cons]
    refine ⟨?_, pops.nested⟩
    intro frame listed other named clash
    rw [List.mem_singleton.mp named] at clash
    rw [clash] at listed
    exact quiet ((pops.settling serial).mp listed)
  · rw [history, closed, closedGenerations]
    exact kept.barred
  · rw [history, closePromise, stack]
    rintro (promised | ⟨serials, listed⟩)
    · exact kept.promised (.inl promised)
    · rcases List.mem_cons.mp listed with clash | below
      · cases clash
      · obtain ⟨more, before, -⟩ := pops.within serials true below
        exact kept.promised (.inr ⟨more, before⟩)
  · rw [history]
    exact kept.inOrder

theorem Kept.pass (pops : Pops serial runtime.stack lower)
    (here : runtime.issued[serial]? = some record) (closed : record.closed = true) :
    ({ runtime with stack := lower }).Kept := by
  constructor
  · intro other found there
    have before : runtime.issued[other]? = some found := there
    refine (kept.sound other found before).pop pops ?_
    by_cases own : other = serial
    · rw [own, here] at before
      exact .inr (Option.some.inj before ▸ closed)
    · exact .inl own
  · exact kept.alone
  · exact kept.tabled
  · intro frame listed other named
    cases frame with
    | settling place => exact kept.known _ ((pops.settling place).mp listed) other named
    | mapping serials whole =>
      obtain ⟨more, before, subset⟩ := pops.within serials whole listed
      exact kept.known _ before other (subset named)
  · intro serials whole listed other named found there
    obtain ⟨more, before, subset⟩ := pops.within serials whole listed
    exact kept.mapped more whole before other (subset named) found there
  · exact pops.nested
  · exact kept.barred
  · rintro (promised | ⟨serials, listed⟩)
    · exact kept.promised (.inl promised)
    · obtain ⟨more, before, -⟩ := pops.within serials true listed
      exact kept.promised (.inr ⟨more, before⟩)
  · exact kept.inOrder

/-- The listeners of an abort are through, the promise of the closing is there. -/
theorem Kept.settle (running : runtime.stack = .settling serial :: stack) :
    (({ runtime with stack := stack }).register serial).Kept := by
  have top : .settling serial ∈ runtime.stack := by
    rw [running]
    exact List.mem_cons_self ..
  have inside : serial < runtime.issued.length :=
    kept.known _ top serial (List.mem_singleton.mpr rfl)
  have here : runtime.issued[serial]? = some runtime.issued[serial] :=
    List.getElem?_eq_getElem inside
  have own := kept.sound serial _ here
  obtain ⟨closed, unpromised⟩ := own.pending top
  have split_ := kept.nested
  rw [running, List.pairwise_cons] at split_
  obtain ⟨above, nested⟩ := split_
  have below : ∀ frame, frame ∈ runtime.stack ↔ frame = .settling serial ∨ frame ∈ stack := by
    intro frame
    rw [running, List.mem_cons]
  have gone : .settling serial ∉ stack := fun listed =>
    above _ listed serial (List.mem_singleton.mpr rfl) rfl
  have changes := Changes.of_modify here fun record =>
    { record with closePromise := true, waiting := record.waiting + 1 }
  constructor
  · intro other found there
    rcases changes.cases_found there with ⟨rfl, rfl⟩ | ⟨differs, before⟩
    · refine { own with
        once := ?_
        promised := fun _ => closed
        settles := fun _ => .inl rfl
        pending := fun listed => absurd listed gone
        ended := fun _ => .inl closed }
      have once := own.once
      rw [unpromised] at once
      change runtime.issued[other].closes + runtime.issued[other].waiting = 0 at once
      change runtime.issued[other].closes + (runtime.issued[other].waiting + 1) = 1
      omega
    · have sound := kept.sound other found before
      refine { sound with settles := ?_, pending := ?_, ended := ?_ }
      · intro over'
        refine (sound.settles over').imp_right fun listed => ?_
        rcases (below _).mp listed with clash | later
        · cases clash
          exact absurd rfl differs
        · exact later
      · exact fun listed => sound.pending ((below _).mpr (.inr listed))
      · intro over'
        rcases sound.ended over' with closed | failed | ⟨serials, whole, listed, named⟩
        · exact .inl closed
        · exact .inr (.inl failed)
        · rcases (below _).mp listed with clash | later
          · cases clash
          · exact .inr (.inr ⟨serials, whole, later, named⟩)
  · exact changes.alone kept.alone rfl id
  · intro environmentId place tabled
    obtain ⟨found, there, name, isOpen⟩ := kept.tabled environmentId place tabled
    by_cases same : place = serial
    · rw [same, here] at there
      cases there
      rw [closed] at isOpen
      cases isOpen
    · exact ⟨found, (changes.others place same).trans there, name, isOpen⟩
  · intro frame listed other named
    have known := kept.known frame ((below _).mpr (.inr listed)) other named
    rw [← changes.length] at known
    exact known
  · intro serials whole listed other named found there
    have mapped := kept.mapped serials whole ((below _).mpr (.inr listed)) other named
    rcases changes.cases_found there with ⟨rfl, rfl⟩ | ⟨-, before⟩
    · have ended := mapped _ here
      exact ended
    · exact mapped found before
  · exact nested
  · exact kept.barred
  · rintro (promised | ⟨serials, listed⟩)
    · exact kept.promised (.inl promised)
    · exact kept.promised (.inr ⟨serials, (below _).mpr (.inr listed)⟩)
  · exact kept.inOrder

/-- A closing is through with its records. -/
theorem Kept.finish (running : runtime.stack = .mapping [] whole :: stack) :
    ({ runtime with stack := stack, closePromise := runtime.closePromise || whole }).Kept := by
  have below : ∀ frame, frame ∈ runtime.stack ↔ frame = .mapping [] whole ∨ frame ∈ stack := by
    intro frame
    rw [running, List.mem_cons]
  have nested := kept.nested
  rw [running, List.pairwise_cons] at nested
  have settling : ∀ other, .settling other ∈ runtime.stack ↔ .settling other ∈ stack := by
    intro other
    rw [below]
    constructor
    · rintro (clash | listed)
      · cases clash
      · exact listed
    · exact .inr
  constructor
  · intro other found there
    have sound := kept.sound other found there
    refine { sound with
      settles := fun closed => (sound.settles closed).imp_right (settling other).mp
      pending := fun listed => sound.pending ((settling other).mpr listed)
      ended := ?_ }
    intro over'
    rcases sound.ended over' with closed | failed | ⟨serials, all, listed, named⟩
    · exact .inl closed
    · exact .inr (.inl failed)
    · rcases (below _).mp listed with clash | later
      · cases clash
        exact absurd named List.not_mem_nil
      · exact .inr (.inr ⟨serials, all, later, named⟩)
  · exact kept.alone
  · exact kept.tabled
  · exact fun frame listed => kept.known frame ((below _).mpr (.inr listed))
  · exact fun serials all listed => kept.mapped serials all ((below _).mpr (.inr listed))
  · exact nested.2
  · exact kept.barred
  · rintro (promised | ⟨serials, listed⟩)
    · rcases (Bool.or_eq_true ..).mp promised with before | now
      · exact kept.promised (.inl before)
      · refine kept.promised (.inr ⟨[], (below _).mpr (.inl ?_)⟩)
        rw [now]
    · exact kept.promised (.inr ⟨serials, (below _).mpr (.inr listed)⟩)
  · exact kept.inOrder

end

def endsTabled (runtime : HoloUvEnvironmentRuntime) (happening : Happening) (serials : List ℕ) :
    Prop :=
  ∀ serial, serial ∈ serials ↔ serial ∈ runtime.tabled ∧
    ∃ record, runtime.issued[serial]? = some record ∧ happening.ends record.generation = true

theorem mem_tabled : serial ∈ runtime.tabled ↔
    ∃ environmentId, runtime.records.get? environmentId = some serial := by
  unfold tabled
  rw [List.mem_map]
  constructor
  · rintro ⟨⟨environmentId, place⟩, listed, rfl⟩
    exact ⟨environmentId, OrderedMap.get?_eq_some_iff.mpr listed⟩
  · rintro ⟨environmentId, found⟩
    exact ⟨(environmentId, serial), OrderedMap.get?_eq_some_iff.mp found, rfl⟩

theorem Kept.map (kept : runtime.Kept) {happening : Happening} {serials : List ℕ}
    (begun : runtime.endsTabled happening serials)
    (unscheduled : ∀ record ∈ runtime.issued, happening.ends record.generation = true →
      record.progress ≠ .scheduled)
    (unlike : ∀ earlier, Happening.forbids earlier happening = false)
    (closes : whole = true → happening = .closedRuntime)
    (issued : next.issued = runtime.issued) (records : next.records = runtime.records)
    (stack : next.stack = .mapping serials whole :: runtime.stack)
    (history : next.history = runtime.history ++ [happening])
    (closePromise : next.closePromise = runtime.closePromise)
    (barred : ∀ generation, happening.ends generation = true →
      next.closed = true ∨ generation ∈ next.closedGenerations)
    (barredStill : ∀ generation, runtime.closed = true ∨ generation ∈ runtime.closedGenerations →
      next.closed = true ∨ generation ∈ next.closedGenerations) : next.Kept := by
  have above : ∀ frame, frame ∈ next.stack ↔
      frame = .mapping serials whole ∨ frame ∈ runtime.stack := by
    intro frame
    rw [stack, List.mem_cons]
  have grown : ∀ record : EnvironmentRecord, record.HasEnded next.history ↔
      record.HasEnded runtime.history ∨ happening.ends record.generation = true := by
    intro record
    unfold EnvironmentRecord.HasEnded
    rw [history, or_assoc]
    refine or_congr_right ?_
    constructor
    · rintro ⟨one, listed, ends⟩
      rcases List.mem_append.mp listed with before | now
      · exact .inl ⟨one, before, ends⟩
      · rw [List.mem_singleton.mp now] at ends
        exact .inr ends
    · rintro (⟨one, listed, ends⟩ | ends)
      · exact ⟨one, List.mem_append_left _ listed, ends⟩
      · exact ⟨happening, List.mem_append_right _ (List.mem_singleton.mpr rfl), ends⟩
  constructor
  · intro other found there
    rw [issued] at there
    have sound := kept.sound other found there
    rw [records]
    refine { sound with settles := ?_, pending := ?_, ends := ?_, ended := ?_, scheduled := ?_ }
    · exact fun closed => (sound.settles closed).imp_right fun listed => (above _).mpr (.inr listed)
    · intro listed
      rcases (above _).mp listed with clash | before
      · cases clash
      · exact sound.pending before
    · exact fun closed => (grown found).mpr (.inl (sound.ends closed))
    · intro ended
      rcases (grown found).mp ended with before | now
      · rcases sound.ended before with closed | failed | ⟨more, all, listed, named⟩
        · exact .inl closed
        · exact .inr (.inl failed)
        · exact .inr (.inr ⟨more, all, (above _).mpr (.inr listed), named⟩)
      · rcases sound.tabled with tabled | rest
        · exact .inr (.inr ⟨serials, whole, (above _).mpr (.inl rfl),
            (begun other).mpr ⟨mem_tabled.mpr ⟨_, tabled⟩, found, there, now⟩⟩)
        · exact rest.imp_right .inl
    · intro scheduled one listed
      rw [history] at listed
      rcases List.mem_append.mp listed with before | now
      · exact sound.scheduled scheduled one before
      · rw [List.mem_singleton.mp now]
        cases ends : happening.ends found.generation with
        | false => rfl
        | true =>
          exact absurd scheduled (unscheduled found (List.mem_of_getElem? there) ends)
  · rw [issued]
    exact kept.alone
  · rw [issued, records]
    exact kept.tabled
  · intro frame listed other named
    rw [issued]
    rcases (above _).mp listed with rfl | before
    · obtain ⟨-, found, there, -⟩ := (begun other).mp named
      exact lt_of_found there
    · exact kept.known frame before other named
  · intro more all listed other named found there
    rw [issued] at there
    rcases (above _).mp listed with same | before
    · cases same
      obtain ⟨-, record, here, ends⟩ := (begun other).mp named
      rw [here] at there
      cases there
      exact (grown _).mpr (.inr ends)
    · exact (grown found).mpr (.inl (kept.mapped more all before other named found there))
  · rw [stack, List.pairwise_cons]
    refine ⟨?_, kept.nested⟩
    intro frame listed other named clash
    rw [clash] at listed
    obtain ⟨tabled, -⟩ := (begun other).mp named
    obtain ⟨environmentId, found⟩ := mem_tabled.mp tabled
    obtain ⟨record, here, -, isOpen⟩ := kept.tabled environmentId other found
    rw [((kept.sound other record here).pending listed).1] at isOpen
    cases isOpen
  · intro one listed generation ends
    rw [history] at listed
    rcases List.mem_append.mp listed with before | now
    · exact barredStill generation (kept.barred one before generation ends)
    · rw [List.mem_singleton.mp now] at ends
      exact barred generation ends
  · rw [history, closePromise]
    rintro (promised | ⟨more, listed⟩)
    · exact List.mem_append_left _ (kept.promised (.inl promised))
    · rcases (above _).mp listed with same | before
      · cases same
        exact List.mem_append_right _ (List.mem_singleton.mpr (closes rfl).symm)
      · exact List.mem_append_left _ (kept.promised (.inr ⟨more, before⟩))
  · rw [history]
    exact pairwise_concat kept.inOrder fun earlier _ => unlike earlier

theorem Kept.forget (kept : runtime.Kept) (here : runtime.issued[serial]? = some record)
    (failed : record.progress = .failed) :
    (runtime.withdraw serial record.environmentId).Kept := by
  have same : (runtime.withdraw serial record.environmentId) =
      { runtime with records := (runtime.withdraw serial record.environmentId).records } := by
    unfold withdraw
    split
    · rfl
    · rfl
  have left : ∀ name other, (runtime.withdraw serial record.environmentId).records.get? name =
      some other → runtime.records.get? name = some other :=
    fun name other tabled => (kept.get?_withdraw here tabled).2
  have stays : ∀ name other, other ≠ serial → runtime.records.get? name = some other →
      (runtime.withdraw serial record.environmentId).records.get? name = some other :=
    fun name other differs tabled => get?_withdraw_other differs tabled
  generalize (runtime.withdraw serial record.environmentId).records = records at same left stays
  rw [same]
  refine { kept with sound := ?_, tabled := ?_ }
  · intro other found there
    have sound := kept.sound other found there
    refine { sound with tabled := ?_ }
    by_cases own : other = serial
    · rw [own] at there
      have clash : some found = some record := there.symm.trans here
      cases clash
      exact .inr (.inr failed)
    · exact sound.tabled.imp_left (stays _ other own)
  · exact fun name other tabled => kept.tabled name other (left name other tabled)

/-- A new record keeps the books. -/
theorem Kept.lease (kept : runtime.Kept) {requestGeneration : ℤ}
    {requestScope : EnvironmentScope} (serving : runtime.closed = false)
    (unclosed : requestGeneration ∉ runtime.closedGenerations)
    (free : (runtime.records.get? environmentId).isSome = true ∨
      ∀ record ∈ runtime.issued, record.environmentId = environmentId → record.isOver = true) :
    (runtime.lease requestGeneration requestScope environmentId).1.Kept := by
  unfold HoloUvEnvironmentRuntime.lease
  cases absent : runtime.records.get? environmentId with
  | some serial => exact kept
  | none =>
    simp only
    have unended : ∀ happening ∈ runtime.history,
        happening.ends requestGeneration = false := by
      intro happening listed
      cases ends : happening.ends requestGeneration with
      | false => rfl
      | true =>
        rcases kept.barred happening listed requestGeneration ends with closed | barred
        · rw [serving] at closed
          cases closed
        · exact absurd barred unclosed
    have cases_found : ∀ (other : ℕ) (found : EnvironmentRecord),
        (runtime.issued ++ [newRecord environmentId requestGeneration requestScope])[other]? =
          some found →
        (other = runtime.issued.length ∧
          found = newRecord environmentId requestGeneration requestScope) ∨
        runtime.issued[other]? = some found := by
      intro other found there
      rw [List.getElem?_append] at there
      split at there
      · exact .inr there
      · next outside =>
        left
        obtain ⟨inside, -⟩ := List.getElem?_eq_some_iff.mp there
        rw [List.length_singleton] at inside
        have zero : other - runtime.issued.length = 0 := by omega
        rw [zero] at there
        exact ⟨by omega, (Option.some.inj there).symm⟩
    have earlier : ∀ (other : ℕ) (found : EnvironmentRecord),
        runtime.issued[other]? = some found →
        (runtime.issued ++ [newRecord environmentId requestGeneration requestScope])[other]? =
          some found := by
      intro other found there
      rw [List.getElem?_append_left (lt_of_found there)]
      exact there
    have fresh : ∀ frame ∈ runtime.stack, runtime.issued.length ∉ frame.names :=
      fun frame listed named => absurd (kept.known frame listed _ named) (lt_irrefl _)
    constructor
    · intro other found there
      rcases cases_found other found there with ⟨rfl, rfl⟩ | before
      · constructor
        · rfl
        · exact le_refl 0
        · exact fun called => absurd called (lt_irrefl 0)
        · rfl
        · exact fun promised => absurd promised Bool.false_ne_true
        · exact fun closed => absurd closed Bool.false_ne_true
        · exact fun listed => absurd (List.mem_singleton.mpr rfl) (fresh _ listed)
        · left
          change (runtime.records.set environmentId runtime.issued.length).get? environmentId = _
          rw [OrderedMap.get?_set, if_pos rfl]
        · exact fun closed => absurd closed Bool.false_ne_true
        · rintro (released | ⟨happening, listed, ends⟩)
          · cases released
          · change happening.ends requestGeneration = true at ends
            rw [unended happening listed] at ends
            cases ends
        · exact fun _ => unended
      · have sound := kept.sound other found before
        refine { sound with tabled := sound.tabled.imp_left fun tabled => ?_ }
        change (runtime.records.set environmentId runtime.issued.length).get? _ = _
        rw [OrderedMap.get?_set, if_neg]
        · exact tabled
        · intro clash
          rw [clash, absent] at tabled
          cases tabled
    · have others : ∀ record ∈ runtime.issued, record.environmentId = environmentId →
          record.isOver = true := by
        rcases free with present | over'
        · rw [absent] at present
          cases present
        · exact over'
      intro first record second twin differ firstFound secondFound same
      rcases cases_found first record firstFound with ⟨rfl, rfl⟩ | firstBefore
      · rcases cases_found second twin secondFound with ⟨rfl, rfl⟩ | secondBefore
        · exact absurd rfl differ
        · exact .inr (others twin (List.mem_of_getElem? secondBefore) same.symm)
      · rcases cases_found second twin secondFound with ⟨rfl, rfl⟩ | secondBefore
        · exact .inl (others record (List.mem_of_getElem? firstBefore) same)
        · exact kept.alone first record second twin differ firstBefore secondBefore same
    · intro name place tabled
      change (runtime.records.set environmentId runtime.issued.length).get? name = _ at tabled
      rw [OrderedMap.get?_set] at tabled
      split at tabled
      · next same =>
        cases tabled
        refine ⟨newRecord environmentId requestGeneration requestScope, ?_, same.symm, rfl⟩
        exact List.getElem?_concat_length
      · obtain ⟨record, here, rest⟩ := kept.tabled name place tabled
        exact ⟨record, earlier place record here, rest⟩
    · intro frame listed other named
      have below := kept.known frame listed other named
      change other < (runtime.issued ++ [_]).length
      rw [List.length_append, List.length_singleton]
      omega
    · intro serials whole listed other named found there
      rcases cases_found other found there with ⟨rfl, rfl⟩ | before
      · exact absurd named (fresh _ listed)
      · exact kept.mapped serials whole listed other named found before
    · exact kept.nested
    · exact kept.barred
    · exact kept.promised
    · exact kept.inOrder

end HoloUvEnvironmentRuntime

end Holonomy.HoloUv
