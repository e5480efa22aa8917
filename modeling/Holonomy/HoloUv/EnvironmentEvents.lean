import Holonomy.HoloUv.EnvironmentSteps

/-!
# Events of the environments

An event is orderly when nothing is closed while a call of the factory still waits, no name is
leased anew before its last environment is over, and no listener of an abort releases the lease
whose closing runs it. Orderly events keep the books.
-/

namespace Holonomy.HoloUv

open Foundation Kernel Network

namespace HoloUvEnvironmentRuntime

def isOrderly (runtime : HoloUvEnvironmentRuntime) : EnvironmentEvent → Bool
  | .acquire request resourceId =>
    match runtime.admitted request resourceId with
    | .error _ => true
    | .ok (requestGeneration, requestScope, normalizedResourceId) =>
      let environmentId :=
        environmentIdentity requestGeneration requestScope normalizedResourceId
      (runtime.records.get? environmentId).isSome ||
        runtime.issued.all fun record => record.environmentId ≠ environmentId || record.isOver
  | .release serial =>
    match runtime.issued[serial]? with
    | some record => record.scope = .runtime || .settling serial ∉ runtime.stack
    | none => true
  | .closeGeneration value =>
    match generation (some value) with
    | .error _ => true
    | .ok normalized => runtime.issued.all fun record =>
        record.generation ≠ normalized || record.progress ≠ .scheduled
  | .close => runtime.issued.all fun record => record.progress ≠ .scheduled
  | _ => true

variable {runtime next : HoloUvEnvironmentRuntime} {serial : ℕ} {record : EnvironmentRecord}

section Requests

theorem admitted_ok {request resourceId : JsonValue} {asked : ℤ × EnvironmentScope × Text}
    (accepted : runtime.admitted request resourceId = .ok asked) :
    runtime.closed = false ∧ asked.1 ∉ runtime.closedGenerations := by
  unfold admitted at accepted
  cases items : executables (memberOf request (js "executables")) with
  | error error =>
    rw [items] at accepted
    cases accepted
  | ok items' =>
    cases number : generation (memberOf request (js "generation")) with
    | error error =>
      rw [items, number] at accepted
      cases accepted
    | ok requestGeneration =>
      cases extent : scope (memberOf request (js "scope")) with
      | error error =>
        rw [items, number, extent] at accepted
        cases accepted
      | ok requestScope =>
        cases name : processResourceId resourceId with
        | error error =>
          rw [items, number, extent, name] at accepted
          cases accepted
        | ok normalizedResourceId =>
          rw [items, number, extent, name] at accepted
          change (if runtime.closed = true ∨ requestGeneration ∈ runtime.closedGenerations
            then _ else _) = Except.ok asked at accepted
          split at accepted
          · cases accepted
          · next serves =>
            rw [not_or, Bool.not_eq_true] at serves
            cases accepted
            exact serves

theorem Kept.acquire (kept : runtime.Kept) {request resourceId : JsonValue}
    (orderly : runtime.isOrderly (.acquire request resourceId) = true) :
    (runtime.acquire request resourceId).1.Kept := by
  unfold HoloUvEnvironmentRuntime.acquire
  cases admission : runtime.admitted request resourceId with
  | error error => exact kept
  | ok asked =>
    obtain ⟨requestGeneration, requestScope, normalizedResourceId⟩ := asked
    simp only [isOrderly, admission] at orderly
    obtain ⟨serving, unclosed⟩ := admitted_ok admission
    refine kept.lease serving unclosed ?_
    rcases (Bool.or_eq_true ..).mp orderly with present | over'
    · exact .inl present
    · right
      intro record listed same
      have either := List.all_eq_true.mp over' record listed
      rcases (Bool.or_eq_true ..).mp either with differs | ends
      · exact absurd same (of_decide_eq_true differs)
      · exact ends

end Requests

section Closings

theorem Kept.closeRecord (kept : runtime.Kept) {lower : List Frame}
    (pops : Pops serial runtime.stack lower) (here : runtime.issued[serial]? = some record)
    (ended : record.HasEnded runtime.history) (quiet : .settling serial ∉ runtime.stack) :
    (({ runtime with stack := lower }).closeRecord serial record).Kept := by
  have own := kept.sound serial record here
  unfold HoloUvEnvironmentRuntime.closeRecord
  cases promise : record.closePromise with
  | true => exact kept.pass pops here (own.promised promise)
  | false =>
    have wasOpen := own.unclosed promise quiet
    have unaborted : record.aborted = false := own.aborts.trans wasOpen
    simp only [unaborted, Bool.false_eq_true, if_false]
    have records : (({ runtime with stack := lower }).withdraw serial record.environmentId).records
        = (runtime.withdraw serial record.environmentId).records := by
      unfold withdraw
      split
      · rfl
      · rfl
    have same : (({ runtime with stack := lower }).withdraw serial record.environmentId) =
        { runtime with
          stack := lower
          records := (runtime.withdraw serial record.environmentId).records } := by
      unfold withdraw
      split
      · rfl
      · rfl
    rw [same]
    exact kept.begin_ pops promise quiet
      (Changes.of_modify here fun record => { record with closed := true, aborted := true }) rfl
      ended rfl rfl rfl rfl rfl rfl

theorem Kept.mark (kept : runtime.Kept) (here : runtime.issued[serial]? = some record)
    (closed : record.closed = true) :
    (runtime.change serial fun record => { record with released := true }).Kept := by
  have own := kept.sound serial record here
  have changes := Changes.of_modify here fun record => { record with released := true }
  constructor
  · intro other found there
    rcases changes.cases_found there with ⟨rfl, rfl⟩ | ⟨-, before⟩
    · exact { own with
        ends := fun _ => .inl rfl
        ended := fun _ => .inl closed }
    · exact kept.sound other found before
  · exact changes.alone kept.alone rfl id
  · intro environmentId place tabled
    obtain ⟨found, there, name, isOpen⟩ := kept.tabled environmentId place tabled
    by_cases same : place = serial
    · rw [same, here] at there
      cases there
      rw [closed] at isOpen
      cases isOpen
    · exact ⟨found, (changes.others place same).trans there, name, isOpen⟩
  · intro frame listed other named
    have known := kept.known frame listed other named
    rw [← changes.length] at known
    exact known
  · intro serials whole listed other named found there
    rcases changes.cases_found there with ⟨-, rfl⟩ | ⟨-, before⟩
    · exact .inl rfl
    · exact kept.mapped serials whole listed other named found before
  · exact kept.nested
  · exact kept.barred
  · exact kept.promised
  · exact kept.inOrder

/-- A released lease keeps the books unless its closing is what asks for it. -/
theorem Kept.release (kept : runtime.Kept) (here : runtime.issued[serial]? = some record)
    (quiet : record.scope = .runtime ∨ .settling serial ∉ runtime.stack) :
    (runtime.release serial record).Kept := by
  have own := kept.sound serial record here
  unfold HoloUvEnvironmentRuntime.release
  cases extent : record.scope with
  | runtime => exact kept
  | processTree =>
    simp only
    have calm : .settling serial ∉ runtime.stack := by
      rcases quiet with shared | calm
      · rw [extent] at shared
        cases shared
      · exact calm
    unfold HoloUvEnvironmentRuntime.closeRecord
    cases promise : record.closePromise with
    | true => exact kept.mark here (own.promised promise)
    | false =>
      have wasOpen := own.unclosed promise calm
      have unaborted : record.aborted = false := own.aborts.trans wasOpen
      simp only [unaborted, Bool.false_eq_true, if_false]
      have first := Changes.of_modify here fun record => { record with released := true }
      have second := Changes.of_modify first.made fun record =>
        { record with closed := true, aborted := true }
      have same : ((runtime.change serial fun record =>
            { record with released := true }).withdraw serial record.environmentId) =
          { runtime with
            issued := runtime.issued.modify serial fun record => { record with released := true }
            records := (runtime.withdraw serial record.environmentId).records } := by
        unfold withdraw
        change (if runtime.records.get? record.environmentId = some serial then _ else _) = _
        split
        · rfl
        · rfl
      rw [same]
      exact kept.begin_ (.refl kept.nested) promise calm (first.trans second) rfl (.inl rfl) rfl
        rfl rfl rfl rfl rfl

theorem endsTabled_generation (closing : ℤ) :
    runtime.endsTabled (.closedGeneration closing)
      (runtime.tabled.filter fun serial => runtime.generationOf serial = some closing) := by
  intro serial
  rw [List.mem_filter, decide_eq_true_iff, generationOf, Option.map_eq_some_iff]
  refine and_congr_right fun _ => ?_
  have reads : ∀ record : EnvironmentRecord, record.generation = closing ↔
      (Happening.closedGeneration closing).ends record.generation = true := by
    intro record
    simp [Happening.ends, eq_comm]
  constructor
  · rintro ⟨record, here, same⟩
    exact ⟨record, here, (reads record).mp same⟩
  · rintro ⟨record, here, ends⟩
    exact ⟨record, here, (reads record).mpr ends⟩

theorem Kept.closeGeneration (kept : runtime.Kept) {value : JsonValue}
    (orderly : runtime.isOrderly (.closeGeneration value) = true) :
    (runtime.closeGeneration value).Kept := by
  unfold HoloUvEnvironmentRuntime.closeGeneration
  cases number : generation (some value) with
  | error error => exact kept
  | ok normalized =>
    simp only [isOrderly, number] at orderly
    have begun : runtime.endsTabled _ _ := endsTabled_generation normalized
    refine kept.map begun ?_ (fun _ => rfl) ?_ rfl rfl rfl rfl rfl ?_ ?_
    · intro record listed ends waiting
      have either := List.all_eq_true.mp orderly record listed
      rw [waiting] at either
      have differs : record.generation ≠ normalized := by simpa using either
      simp [Happening.ends] at ends
      exact differs ends.symm
    · exact fun whole => absurd whole Bool.false_ne_true
    · intro other ends
      simp [Happening.ends] at ends
      exact .inr (List.mem_append_right _ (List.mem_singleton.mpr ends.symm))
    · exact fun other barred => barred.imp_right (List.mem_append_left _)

/-- The closing of the runtime while no opening waits keeps the books. -/
theorem Kept.close (kept : runtime.Kept) (orderly : runtime.isOrderly .close = true) :
    runtime.close.Kept := by
  have unscheduled : ∀ record ∈ runtime.issued, record.progress ≠ .scheduled :=
    fun record listed => of_decide_eq_true (List.all_eq_true.mp orderly record listed)
  unfold HoloUvEnvironmentRuntime.close
  split
  · next promised =>
    have already := kept.promised (.inl promised)
    have grown : ∀ record : EnvironmentRecord,
        record.HasEnded (runtime.history ++ [.closedRuntime]) →
          record.HasEnded runtime.history :=
      fun record _ => .inr ⟨.closedRuntime, already, by simp [Happening.ends]⟩
    have still : ∀ record : EnvironmentRecord, record.HasEnded runtime.history →
        record.HasEnded (runtime.history ++ [.closedRuntime]) :=
      fun record ended => ended.imp_right fun ⟨one, listed, ends⟩ =>
        ⟨one, List.mem_append_left _ listed, ends⟩
    constructor
    · intro serial record here
      have sound := kept.sound serial record here
      exact { sound with
        ends := fun closed => still record (sound.ends closed)
        ended := fun ended => sound.ended (grown record ended)
        scheduled := fun scheduled =>
          absurd scheduled (unscheduled record (List.mem_of_getElem? here)) }
    · exact kept.alone
    · exact kept.tabled
    · exact kept.known
    · exact fun serials whole listed serial named record here =>
        still record (kept.mapped serials whole listed serial named record here)
    · exact kept.nested
    · exact forall_mem_concat kept.barred
        fun number ends => kept.barred .closedRuntime already number ends
    · exact fun _ => List.mem_append_left _ already
    · exact pairwise_concat kept.inOrder fun earlier _ => rfl
  · have begun : runtime.endsTabled .closedRuntime runtime.tabled := by
      intro serial
      constructor
      · intro listed
        obtain ⟨environmentId, found⟩ := mem_tabled.mp listed
        obtain ⟨record, here, -⟩ := kept.tabled environmentId serial found
        exact ⟨listed, record, here, by simp [Happening.ends]⟩
      · exact And.left
    exact kept.map begun (fun record listed _ => unscheduled record listed) (fun _ => rfl)
      (fun _ => rfl) rfl rfl rfl rfl rfl (fun _ _ => .inl rfl)
      (fun _ _ => .inl rfl)

/-- A call that goes on keeps the books. -/
theorem Kept.proceed (kept : runtime.Kept) (stepped : runtime.proceed = some next) :
    next.Kept := by
  unfold HoloUvEnvironmentRuntime.proceed at stepped
  cases running : runtime.stack with
  | nil =>
    rw [running] at stepped
    cases stepped
  | cons frame stack =>
    rw [running] at stepped
    cases frame with
    | settling serial =>
      cases stepped
      exact kept.settle running
    | mapping serials whole =>
      cases serials with
      | nil =>
        cases stepped
        exact kept.finish running
      | cons serial serials =>
        have nested := kept.nested
        rw [running] at nested
        have pops := Pops.mapping nested
        rw [← running] at pops
        have top : .mapping (serial :: serials) whole ∈ runtime.stack := by
          rw [running]
          exact List.mem_cons_self ..
        have inside := kept.known _ top serial (List.mem_cons_self ..)
        have here : runtime.issued[serial]? = some runtime.issued[serial] :=
          List.getElem?_eq_getElem inside
        simp only [here] at stepped
        cases stepped
        have ended := kept.mapped _ _ top serial (List.mem_cons_self ..) _ here
        refine kept.closeRecord pops here ended ?_
        rw [running]
        intro listed
        rcases List.mem_cons.mp listed with clash | below
        · cases clash
        · exact (List.pairwise_cons.mp nested).1 _ below serial (List.mem_cons_self ..) rfl

end Closings

section Openings

theorem harmless_nil : Harmless [] := fun _ listed => absurd listed List.not_mem_nil

theorem harmless_opened (number : ℤ) : Harmless [.opened number] := by
  intro happening listed other
  rw [List.mem_singleton.mp listed]
  rfl

theorem microtask_some {ran : Option HoloUvEnvironmentRuntime}
    (stepped : runtime.microtask ran = some next) : ran = some next := by
  unfold microtask at stepped
  split at stepped
  · exact stepped
  · cases stepped

section

variable (kept : runtime.Kept)

include kept

theorem Kept.opens (stepped : runtime.step (.opens serial) = some next) : next.Kept := by
  refine kept.alter (microtask_some stepped) fun record here able => ?_
  have waiting : record.progress = .scheduled := of_decide_eq_true able
  have sound := kept.sound serial record here
  have uncalled := sound.uncalled (by rw [waiting]; decide)
  refine ⟨?_, harmless_opened record.generation, ?_⟩
  · constructor
    · rfl
    · rfl
    · rfl
    · rfl
    · rfl
    · rfl
    · intro failed
      rw [waiting] at failed
      cases failed
    · intro ending
      have unsettled := sound.settledLe
      rw [EnvironmentRecord.isOver, waiting] at ending
      simp at ending
      omega
    · exact fun clash => by cases clash
    · rfl
    · exact sound.settledLe
    · intro called
      change 0 < record.closes at called
      omega
  · exact pairwise_concat kept.inOrder fun earlier listed => sound.scheduled waiting earlier listed

theorem Kept.unseen : (runtime.history ++ []).Pairwise fun earlier later =>
      Happening.forbids earlier later = false := by
  rw [List.append_nil]
  exact kept.inOrder

theorem Kept.settles {fulfilled : Bool}
    (stepped : runtime.step (.settles serial fulfilled) = some next) : next.Kept := by
  refine kept.alter stepped fun record here able => ⟨?_, harmless_nil, kept.unseen⟩
  have waiting : record.progress = .opening := of_decide_eq_true able
  have sound := kept.sound serial record here
  have uncalled := sound.uncalled (by rw [waiting]; decide)
  constructor
  · rfl
  · rfl
  · rfl
  · rfl
  · rfl
  · rfl
  · intro failed
    rw [waiting] at failed
    cases failed
  · intro ending
    have unsettled := sound.settledLe
    rw [EnvironmentRecord.isOver, waiting] at ending
    simp at ending
    omega
  · cases fulfilled with
    | false => exact fun clash => by cases clash
    | true => exact fun clash => by cases clash
  · rfl
  · exact sound.settledLe
  · intro called
    change 0 < record.closes at called
    omega

/-- A promise that takes over an opening keeps the books. -/
theorem Kept.adopts (stepped : runtime.step (.adopts serial) = some next) : next.Kept := by
  refine kept.alter (microtask_some stepped) fun record here able =>
    ⟨?_, harmless_nil, kept.unseen⟩
  have sound := kept.sound serial record here
  have either : record.progress = .returned ∨ record.progress = .rejected := by
    simpa using able
  have unready : record.progress ≠ .ready := by
    rcases either with returned | rejected
    · rw [returned]
      decide
    · rw [rejected]
      decide
  have uncalled := sound.uncalled unready
  have unsettled := sound.settledLe
  constructor
  · rfl
  · rfl
  · rfl
  · rfl
  · rfl
  · rfl
  · intro failed
    rw [failed] at either
    simp at either
  · intro ending
    rw [EnvironmentRecord.isOver] at ending ⊢
    rcases either with returned | rejected
    · rw [returned] at ending
      simp at ending
      omega
    · simp [rejected, adopted]
  · rcases either with returned | rejected
    · simp [returned, adopted]
    · simp [rejected, adopted]
  · rfl
  · exact sound.settledLe
  · intro called
    change 0 < record.closes at called
    omega

theorem Kept.calls (stepped : runtime.step (.calls serial) = some next) : next.Kept := by
  refine kept.alter (microtask_some stepped) fun record here able =>
    ⟨?_, harmless_nil, kept.unseen⟩
  have sound := kept.sound serial record here
  obtain ⟨ready, waits⟩ := (Bool.and_eq_true ..).mp able
  have isReady : record.progress = .ready := of_decide_eq_true ready
  have some' : 0 < record.waiting := of_decide_eq_true waits
  have settledLe := sound.settledLe
  constructor
  · rfl
  · rfl
  · rfl
  · rfl
  · rfl
  · rfl
  · exact id
  · exact id
  · intro clash
    change record.progress = .scheduled at clash
    rw [isReady] at clash
    cases clash
  · change record.closes + 1 + (record.waiting - 1) = record.closes + record.waiting
    omega
  · change record.settled ≤ record.closes + 1
    omega
  · exact fun _ => isReady

theorem Kept.closes (stepped : runtime.step (.closes serial) = some next) : next.Kept := by
  refine kept.alter stepped fun record here able => ⟨?_, harmless_nil, kept.unseen⟩
  have sound := kept.sound serial record here
  have called : record.settled < record.closes := of_decide_eq_true able
  have isReady : record.progress = .ready := sound.ready (by omega)
  constructor
  · rfl
  · rfl
  · rfl
  · rfl
  · rfl
  · rfl
  · exact id
  · intro _
    simp [EnvironmentRecord.isOver]
  · intro clash
    change record.progress = .scheduled at clash
    rw [isReady] at clash
    cases clash
  · rfl
  · change record.settled + 1 ≤ record.closes
    omega
  · exact fun _ => isReady

end

end Openings

/-- Orderly events keep the books. -/
theorem Kept.step (kept : runtime.Kept) {event : EnvironmentEvent}
    (orderly : runtime.isOrderly event = true) (stepped : runtime.step event = some next) :
    next.Kept := by
  cases event with
  | acquire request resourceId =>
    obtain ⟨-, same⟩ := Option.ite_none_right_eq_some.mp stepped
    cases same
    exact kept.acquire orderly
  | release serial =>
    simp only [HoloUvEnvironmentRuntime.step] at stepped
    cases here : runtime.issued[serial]? with
    | none =>
      rw [here] at stepped
      cases stepped
    | some record =>
      simp only [here] at stepped
      obtain ⟨-, same⟩ := Option.ite_none_right_eq_some.mp stepped
      cases same
      simp only [isOrderly, here, Bool.or_eq_true, decide_eq_true_eq] at orderly
      exact kept.release here orderly
  | closeGeneration value =>
    obtain ⟨-, same⟩ := Option.ite_none_right_eq_some.mp stepped
    cases same
    exact kept.closeGeneration orderly
  | close =>
    obtain ⟨-, same⟩ := Option.ite_none_right_eq_some.mp stepped
    cases same
    exact kept.close orderly
  | proceed => exact kept.proceed stepped
  | opens serial => exact kept.opens stepped
  | settles serial fulfilled => exact kept.settles stepped
  | adopts serial => exact kept.adopts stepped
  | forgets serial =>
    have ran := microtask_some stepped
    cases here : runtime.issued[serial]? with
    | none =>
      simp only [here] at ran
      cases ran
    | some record =>
      simp only [here] at ran
      obtain ⟨failed, same⟩ := Option.ite_none_right_eq_some.mp ran
      cases same
      exact kept.forget here failed
  | calls serial => exact kept.calls stepped
  | closes serial => exact kept.closes stepped

end HoloUvEnvironmentRuntime

end Holonomy.HoloUv
