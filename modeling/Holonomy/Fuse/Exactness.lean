import Holonomy.Fuse.Bookkeeping

/-!
# When the books are exact

A step enters paths where it commits them. The books are exact throughout a run exactly if every
path that is committed can be given its number at that time.
-/

namespace Holonomy.Fuse

open Foundation

namespace V86FuseEnvironmentBridgeV1

section Committing

variable (bridge : V86FuseEnvironmentBridgeV1)

def directoryRead (request : FuseRequest) (attributed : Except (Option ℤ) Common) :
    Option (List DirectoryEntry) :=
  match attributed with
  | .error _ => none
  | .ok common =>
    if bridge.closed ∨ common.executableId = none ∨ common.processResourceId = none ∨
        common.processId = 0 ∨ bridge.tables.inodes.get? request.nodeId = none ∨
        request.opcode ≠ operation.readdir then none
    else
      match bridge.readdirHandle request with
      | .error _ => none
      | .ok (handle, offset, _) => if offset > 9007199254740991 then none else some handle.entries

def committed (waiting : Waiting) (outcome : Except (Option ℤ) HostValue) : Option (Text × ℕ) :=
  match outcome with
  | .error _ => none
  | .ok value =>
    match waiting with
    | .lookup childPath =>
      match metadata value with
      | .error _ => none
      | .ok found =>
        if (bridge.tables.inode bridge.closed childPath found.kind).isOk then
          some (childPath, bridge.tables.reservedId childPath)
        else none
    | .mkdir inode =>
      if bridge.closed ∨ ¬ (metadata value).isOk then none else some (inode.path, inode.id)
    | .openFile _ _ (some inode) =>
      if bridge.closed ∨ ¬ (metadata value).isOk ∨ ¬ (handleToken value).any acceptable then none
      else some (inode.path, inode.id)
    | _ => none

/-- Every path that the step commits can be given its number. -/
def Orderly : FuseEvent → Prop
  | .request payload attributed => ∀ request entries, decodeV86FuseRequestV1 payload =
      some request →
      bridge.directoryRead request attributed = some entries →
      Inodes.FreeAll bridge.closed entries bridge.tables
  | .settle serial outcome => ∀ waiting path id, bridge.waiting.get? serial = some waiting →
      bridge.committed waiting outcome = some (path, id) → bridge.tables.Free path id
  | .returns => True
  | .close => True

end Committing

variable {bridge : V86FuseEnvironmentBridgeV1}

section Beginning

variable {request : FuseRequest} {attributed : Except (Option ℤ) Common}

theorem inodes_mkdir (request : FuseRequest) (path : Text) :
    (bridge.mkdir request path).1.tables.inodes = bridge.tables.inodes ∧
      (bridge.mkdir request path).1.tables.inodeIds = bridge.tables.inodeIds := by
  unfold mkdir
  simp only [bind, Except.bind]
  split
  · exact ⟨rfl, rfl⟩
  · rename_i inode tables reserves
    split at reserves
    · cases reserves
    · split at reserves
      · cases reserves
      · exact (Inodes.reserveInode_ok reserves).2

theorem inodes_openFile (request : FuseRequest) (path : Text) (create : Bool) :
    (bridge.openFile request path create).1.tables.inodes = bridge.tables.inodes ∧
      (bridge.openFile request path create).1.tables.inodeIds = bridge.tables.inodeIds := by
  unfold openFile
  split
  · exact ⟨rfl, rfl⟩
  · simp only [bind, Except.bind]
    split
    · exact ⟨rfl, rfl⟩
    · rename_i target inode tables reserves
      split at reserves
      · cases reserves
      · split at reserves
        · split at reserves
          · cases reserves
          · split at reserves
            · cases reserves
            · rename_i reserved
              cases reserves
              exact (Inodes.reserveInode_ok reserved).2
        · cases reserves
          exact ⟨rfl, rfl⟩

theorem tables_opendir (request : FuseRequest) (path : Text) :
    (bridge.opendir request path).1.tables = bridge.tables := by
  unfold opendir
  split
  · rfl
  · split
    · rfl
    · rfl

theorem tables_releaseWithoutProcess (request : FuseRequest) :
    (bridge.releaseWithoutProcess request).1.tables = bridge.tables := by
  unfold releaseWithoutProcess
  split
  · rfl
  · simp only
    generalize (if request.opcode = operation.release then EntryKind.file
      else EntryKind.directory) = expectedKind
    split
    · rfl
    · split
      · rfl
      · rfl

theorem tables_handle_of_read {entries : List DirectoryEntry}
    (reads : bridge.directoryRead request attributed = some entries) :
    (bridge.handle request attributed).1.tables =
      (Inodes.directoryParts bridge.closed entries 0 bridge.tables).1 := by
  unfold directoryRead at reads
  split at reads
  · cases reads
  · rename_i common
    split at reads
    · cases reads
    · rename_i fine
      simp only [not_or, ne_eq, not_not] at fine
      obtain ⟨openNow, executable, resource, process, known, opcode⟩ := fine
      obtain ⟨path, found⟩ := Option.ne_none_iff_exists'.mp known
      have released : ¬ (request.pid = 0 ∧ (request.opcode = operation.release ∨
          request.opcode = operation.releasedir)) := by
        rintro ⟨_, file | directory⟩
        · exact absurd (opcode.symm.trans file) (by decide)
        · exact absurd (opcode.symm.trans directory) (by decide)
      have known' : ¬ (common.executableId = none ∨ common.processResourceId = none ∨
          common.processId = 0) := by
        simp only [not_or]
        exact ⟨executable, resource, process⟩
      have handled : bridge.handle request (.ok common) = bridge.readdir request := by
        rw [handle, if_neg openNow, if_neg released]
        simp only [handleRequest, found, if_neg known', opcode]
        rfl
      rw [handled, readdir]
      cases read : bridge.readdirHandle request with
      | error number =>
        rw [read] at reads
        cases reads
      | ok triple =>
        obtain ⟨handle, offset, maximum⟩ := triple
        rw [read] at reads
        simp only at reads
        split at reads
        · cases reads
        · rename_i small
          cases reads
          simp only
          rw [Inodes.encodeDirectory_tables, if_neg small]

theorem inodes_handle_of_none (reads : bridge.directoryRead request attributed = none) :
    (bridge.handle request attributed).1.tables.inodes = bridge.tables.inodes ∧
      (bridge.handle request attributed).1.tables.inodeIds = bridge.tables.inodeIds := by
  unfold handle
  split
  · exact ⟨rfl, rfl⟩
  · rename_i openNow
    split
    · rw [tables_releaseWithoutProcess]
      exact ⟨rfl, rfl⟩
    · split
      · exact ⟨rfl, rfl⟩
      · rename_i common
        unfold handleRequest
        split
        · exact ⟨rfl, rfl⟩
        · split
          · exact ⟨rfl, rfl⟩
          · rename_i known
            split
            · exact ⟨rfl, rfl⟩
            · rename_i path found
              split
              · exact inodes_mkdir request path
              · split
                · exact inodes_openFile request path false
                · split
                  · exact inodes_openFile request path true
                  · split
                    · rw [tables_opendir]
                      exact ⟨rfl, rfl⟩
                    · split
                      · rename_i opcode
                        have fine : ¬ (bridge.closed = true ∨ common.executableId = none ∨
                            common.processResourceId = none ∨ common.processId = 0 ∨
                            bridge.tables.inodes.get? request.nodeId = none ∨
                            request.opcode ≠ operation.readdir) := by
                          simp only [not_or, not_not, ne_eq] at known ⊢
                          exact ⟨openNow, known.1, known.2.1, known.2.2, by
                            rw [found]
                            exact Option.some_ne_none path, opcode⟩
                        simp only [directoryRead, if_neg fine] at reads
                        unfold readdir
                        split
                        · exact ⟨rfl, rfl⟩
                        · rename_i handle offset maximum read
                          rw [read] at reads
                          simp only at reads
                          split at reads
                          · rename_i large
                            simp only
                            rw [Inodes.encodeDirectory_tables, if_pos large]
                            exact ⟨rfl, rfl⟩
                          · cases reads
                      · exact ⟨rfl, rfl⟩

end Beginning

section Continuing

variable {inode : Reservation} {outcome : Except (Option ℤ) HostValue} {id nodeId : ℕ}
  {tables : Inodes} {pair : Text × ℕ}

theorem commit_of_open (tables : Inodes) {closed : Bool} (openNow : ¬ closed = true)
    (reservation : Reservation) :
    ∃ id after, tables.commit closed reservation = .ok (id, after) := by
  unfold Inodes.commit
  rw [if_neg openNow]
  exact ⟨_, _, rfl⟩

theorem makeDirectory_ok {found : Metadata}
    (made : bridge.makeDirectory inode (answered outcome) = .ok (id, found, tables)) :
    bridge.committed (.mkdir inode) outcome = some (inode.path, inode.id) ∧ ∃ entered,
      bridge.tables.commit bridge.closed inode = .ok (id, entered) ∧
        tables = entered.setKind id found.kind := by
  cases outcome with
  | error carried => cases made
  | ok value =>
    simp only [makeDirectory, answered, Except.mapError, bind, Except.bind] at made
    cases told : metadata value with
    | error number =>
      rw [told] at made
      cases made
    | ok known =>
      rw [told] at made
      simp only at made
      cases commits : bridge.tables.commit bridge.closed inode with
      | error number =>
        rw [commits] at made
        cases made
      | ok pair =>
        rw [commits] at made
        cases made
        refine ⟨?_, pair.2, rfl, rfl⟩
        have openNow : ¬ bridge.closed = true := by
          intro closed
          simp only [Inodes.commit, closed, if_true] at commits
          cases commits
        have fine : ¬ (bridge.closed = true ∨ ¬ (metadata value).isOk = true) := by
          rw [told, not_or, not_not]
          exact ⟨openNow, rfl⟩
        simp only [committed, if_neg fine]

theorem makeDirectory_of_committed (noted : bridge.committed (.mkdir inode) outcome = some pair) :
    pair = (inode.path, inode.id) ∧ ∃ made, bridge.makeDirectory inode (answered outcome) =
    .ok made := by
  unfold committed at noted
  split at noted
  · cases noted
  · rename_i value
    simp only at noted
    split at noted
    · cases noted
    · rename_i fine
      cases noted
      rw [not_or, not_not] at fine
      refine ⟨rfl, ?_⟩
      obtain ⟨id, entered, commits⟩ := commit_of_open bridge.tables fine.1 inode
      cases told : metadata value with
      | error number =>
        rw [told] at fine
        cases fine.2
      | ok found =>
        refine ⟨(id, found, entered.setKind id found.kind), ?_⟩
        simp only [makeDirectory, answered, Except.mapError, bind, Except.bind, told, commits]

theorem tables_mkdir (inode : Reservation) (outcome : Except (Option ℤ) HostValue) :
    (bridge.tables.Exact → (∀ path id, bridge.committed (.mkdir inode) outcome = some (path, id) →
      bridge.tables.Free path id) →
      (bridge.mkdirAnswered inode (answered outcome)).1.tables.Exact) ∧
    (bridge.tables.Exact → ∀ path id, bridge.committed (.mkdir inode) outcome = some (path, id) →
      ¬ bridge.tables.Free path id →
      (bridge.mkdirAnswered inode (answered outcome)).1.tables.Spoiled) := by
  unfold mkdirAnswered
  cases made : bridge.makeDirectory inode (answered outcome) with
  | error number =>
    refine ⟨fun books _ => books.of_eq (Inodes.inodes_releaseInode _)
      (Inodes.inodeIds_releaseInode _), fun _ path id noted => ?_⟩
    obtain ⟨_, done, succeeded⟩ := makeDirectory_of_committed noted
    rw [made] at succeeded
    cases succeeded
  | ok triple =>
    obtain ⟨id, found, tables⟩ := triple
    obtain ⟨noted, entered, commits, same⟩ := makeDirectory_ok made
    refine ⟨fun books free => ?_, fun books path number other taken => ?_⟩
    · rw [same]
      exact (books.commit (free _ _ noted) commits).of_eq rfl rfl
    · rw [noted, Option.some.injEq, Prod.mk.injEq] at other
      rw [← other.1, ← other.2] at taken
      rw [same]
      exact (books.spoil taken commits).of_eq rfl rfl

theorem tables_lookup (childPath : Text) (value : HostValue) :
    (bridge.tables.Exact → (∀ path id, bridge.committed (.lookup childPath) (.ok value) =
      some (path, id) → bridge.tables.Free path id) →
      (bridge.lookupAnswered childPath value).1.tables.Exact) ∧
    (bridge.tables.Exact → ∀ path id, bridge.committed (.lookup childPath) (.ok value) =
      some (path, id) → ¬ bridge.tables.Free path id →
      (bridge.lookupAnswered childPath value).1.tables.Spoiled) := by
  unfold lookupAnswered
  cases told : metadata value with
  | error number =>
    have noted : bridge.committed (.lookup childPath) (.ok value) = none := by
      simp only [committed, told]
    rw [noted]
    exact ⟨fun books _ => books, fun _ path id other => by cases other⟩
  | ok found =>
    simp only
    cases made : bridge.tables.inode bridge.closed childPath found.kind with
    | error number =>
      have noted : bridge.committed (.lookup childPath) (.ok value) = none := by
        simp only [committed, told, made]
        rfl
      rw [noted]
      exact ⟨fun books _ => books, fun _ path id other => by cases other⟩
    | ok pair =>
      obtain ⟨id, entered⟩ := pair
      have noted : bridge.committed (.lookup childPath) (.ok value) =
          some (childPath, bridge.tables.reservedId childPath) := by
        simp only [committed, told, made]
        rfl
      refine ⟨fun books free => books.inode (free _ _ noted) made,
        fun books path number other taken => ?_⟩
      rw [noted, Option.some.injEq, Prod.mk.injEq] at other
      rw [← other.1, ← other.2] at taken
      exact books.spoil_inode taken made

theorem openedInode_ok {inode : Option Reservation} (target : Text) {token : Text}
    {value : HostValue} {found : Option Metadata}
    (told : (if inode.isSome then handleToken value else value.text) = some token)
    (made : bridge.openedInode nodeId inode value token = .ok (id, found, tables)) :
    (inode = none ∧ tables = bridge.tables) ∨ ∃ reservation, inode = some reservation ∧
      bridge.committed (.openFile nodeId target inode) (.ok value) =
        some (reservation.path, reservation.id) ∧ ∃ entered kind,
        bridge.tables.commit bridge.closed reservation = .ok (id, entered) ∧
          tables = entered.setKind id kind := by
  unfold openedInode at made
  split at made
  · cases made
  · rename_i accepted
    split at made
    · cases made
    · rename_i openNow
      cases inode with
      | none =>
        cases made
        exact .inl ⟨rfl, rfl⟩
      | some reservation =>
        refine .inr ⟨reservation, rfl, ?_⟩
        simp only [bind, Except.bind] at made
        cases known : metadata value with
        | error number =>
          rw [known] at made
          cases made
        | ok metadata' =>
          rw [known] at made
          simp only at made
          cases commits : bridge.tables.commit bridge.closed reservation with
          | error number =>
            rw [commits] at made
            cases made
          | ok pair =>
            rw [commits] at made
            cases made
            refine ⟨?_, pair.2, metadata'.kind, rfl, rfl⟩
            have fine : ¬ (bridge.closed = true ∨ ¬ (metadata value).isOk = true ∨
                ¬ (handleToken value).any acceptable = true) := by
              have token' : handleToken value = some token := told
              rw [known, token', not_or, not_or, not_not, not_not]
              exact ⟨openNow, rfl, by simpa using accepted⟩
            simp only [committed, if_neg fine]

theorem openedInode_of_committed {inode : Option Reservation} {target : Text}
    (noted : bridge.committed (.openFile nodeId target inode) outcome = some pair) :
    ∃ reservation value token made, inode = some reservation ∧ outcome = .ok value ∧
      pair = (reservation.path, reservation.id) ∧ handleToken value = some token ∧
      bridge.openedInode nodeId inode value token = .ok made := by
  unfold committed at noted
  split at noted
  · cases noted
  · rename_i value
    cases inode with
    | none => cases noted
    | some reservation =>
      simp only at noted
      split at noted
      · cases noted
      · rename_i fine
        cases noted
        rw [not_or, not_or, not_not, not_not] at fine
        obtain ⟨openNow, told, handed⟩ := fine
        obtain ⟨token, found, accepted⟩ := (Option.any_eq_true _ _).mp handed
        obtain ⟨id, entered, commits⟩ := commit_of_open bridge.tables openNow reservation
        cases known : metadata value with
        | error number =>
          rw [known] at told
          cases told
        | ok metadata' =>
          refine ⟨reservation, value, token,
            (id, some metadata', entered.setKind id metadata'.kind), rfl, rfl, rfl, found, ?_⟩
          simp only [openedInode, accepted, not_true_eq_false, if_false, if_neg openNow, bind,
            Except.bind, known, commits]

theorem tables_openFile (serial nodeId : ℕ) (target : Text) (inode : Option Reservation)
    (outcome : Except (Option ℤ) HostValue) :
    (bridge.tables.Exact →
      (∀ path id, bridge.committed (.openFile nodeId target inode) outcome = some (path, id) →
        bridge.tables.Free path id) →
      (bridge.openAnswered serial nodeId target inode (answered outcome)).1.tables.Exact) ∧
    (bridge.tables.Exact → ∀ path id,
      bridge.committed (.openFile nodeId target inode) outcome = some (path, id) →
      ¬ bridge.tables.Free path id →
      (bridge.openAnswered serial nodeId target inode (answered outcome)).1.tables.Spoiled) := by
  have givenUp : ∀ books : bridge.tables.Exact,
      (inode.elim bridge.tables bridge.tables.releaseInode).Exact := by
    intro books
    cases inode with
    | none => exact books
    | some reservation =>
      exact books.of_eq (Inodes.inodes_releaseInode _) (Inodes.inodeIds_releaseInode _)
  constructor
  · intro books free
    cases outcome with
    | error carried => exact givenUp books
    | ok value =>
      simp only [openAnswered, answered, Except.mapError]
      split
      · exact givenUp books
      · rename_i token told
        split
        · exact givenUp books
        · rename_i id found tables made
          rcases openedInode_ok target told made with ⟨_, same⟩ |
            ⟨reservation, mine, noted, entered, kind, commits, same⟩
          · rw [same]
            exact books
          · rw [same]
            exact (books.commit (free _ _ noted) commits).of_eq rfl rfl
  · intro books path id noted taken
    obtain ⟨reservation, value, token, made, mine, given, pair, handed, opened⟩ :=
      openedInode_of_committed noted
    have told : (if inode.isSome then handleToken value else value.text) = some token := by
      rw [mine]
      exact handed
    obtain ⟨number, found, tables⟩ := made
    simp only [given, openAnswered, answered, Except.mapError, told, opened]
    rcases openedInode_ok target told opened with ⟨other, _⟩ |
      ⟨same, again, _, entered, kind, commits, whole⟩
    · rw [mine] at other
      cases other
    · rw [mine, Option.some.injEq] at again
      rw [Prod.mk.injEq] at pair
      rw [pair.1, pair.2, again] at taken
      rw [whole]
      exact (books.spoil taken commits).of_eq rfl rfl

theorem tables_continueRequest (bridge : V86FuseEnvironmentBridgeV1) (serial : ℕ)
    (waiting : Waiting)
    (outcome : Except (Option ℤ) HostValue) :
    (bridge.tables.Exact →
      (∀ path id, bridge.committed waiting outcome = some (path, id) → bridge.tables.Free path id) →
      (bridge.continueRequest serial waiting outcome).1.tables.Exact) ∧
    (bridge.tables.Exact → ∀ path id, bridge.committed waiting outcome = some (path, id) →
      ¬ bridge.tables.Free path id →
      (bridge.continueRequest serial waiting outcome).1.tables.Spoiled) := by
  have nothing : ∀ {waiting : Waiting} {tables : Inodes}, (bridge.tables.Exact → tables.Exact) →
      bridge.committed waiting outcome = none →
      (bridge.tables.Exact → (∀ path id, bridge.committed waiting outcome = some (path, id) →
        bridge.tables.Free path id) → tables.Exact) ∧
      (bridge.tables.Exact → ∀ path id, bridge.committed waiting outcome = some (path, id) →
        ¬ bridge.tables.Free path id → tables.Spoiled) := by
    intro waiting tables keeps noted
    rw [noted]
    exact ⟨fun books _ => keeps books, fun _ path id other => by cases other⟩
  cases waiting with
  | openFile nodeId target inode => exact tables_openFile serial nodeId target inode outcome
  | mkdir inode => exact tables_mkdir inode outcome
  | lookup childPath =>
    cases outcome with
    | error carried => exact nothing id rfl
    | ok value => exact tables_lookup childPath value
  | opendir nodeId path =>
    refine nothing (fun books => ?_) (by cases outcome <;> rfl)
    simp only [continueRequest, opendirAnswered]
    split
    · exact books
    · split
      · exact books
      · split
        · exact books
        · exact books
  | release handleId handle => exact nothing id (by cases outcome <;> rfl)
  | getattr nodeId path =>
    refine nothing (fun books => ?_) (by cases outcome <;> rfl)
    simp only [continueRequest, getattrAnswered]
    split
    · exact books
    · split
      · exact books
      · simp only
        split
        · exact books.of_eq rfl rfl
        · exact books
  | unlink childPath =>
    refine nothing (fun books => ?_) (by cases outcome <;> rfl)
    simp only [continueRequest]
    split
    · exact books
    · exact (books.forgetPath childPath).1
  | rename fromPath toPath =>
    refine nothing (fun books => ?_) (by cases outcome <;> rfl)
    simp only [continueRequest]
    split
    · exact books
    · by_cases apart : fromPath ≠ toPath
      · obtain ⟨forgotten, vacant⟩ := books.forgetPath toPath
        rw [if_pos apart]
        refine forgotten.renamePath fun _ place covered => ?_
        rw [vacant, if_pos covered]
      · rw [if_neg apart]
        exact books.renamePath fun other => absurd other apart
  | _ =>
    refine nothing (fun books => ?_) (by cases outcome <;> rfl)
    simp only [continueRequest]
    split
    · exact books
    · exact books

end Continuing

section Runs

theorem tables_conclude (serial : ℕ) (outcome : Except ℕ Outcome) :
    (bridge.conclude serial outcome).tables = bridge.tables := by
  unfold conclude
  split
  · rfl
  · rfl
  · rfl

theorem tables_step {event : FuseEvent} {after : V86FuseEnvironmentBridgeV1}
    (books : bridge.tables.Exact) (stepped : bridge.step event = some after) :
    after.tables.Exact ↔ bridge.Orderly event := by
  cases event with
  | request payload attributed =>
    simp only [step] at stepped
    split at stepped
    · rename_i malformed
      cases stepped
      refine ⟨fun _ request entries decoded => ?_, fun _ => books⟩
      rw [malformed] at decoded
      cases decoded
    · rename_i request decoded
      cases stepped
      rw [tables_conclude]
      cases reads : bridge.directoryRead request attributed with
      | none =>
        have same : ({ bridge with requests := bridge.requests + 1 } :
            V86FuseEnvironmentBridgeV1).directoryRead request attributed = none := reads
        obtain ⟨inodes, inodeIds⟩ := inodes_handle_of_none same
        refine ⟨fun _ other entries again found => ?_, fun _ => books.of_eq inodes inodeIds⟩
        rw [decoded, Option.some.injEq] at again
        rw [← again, reads] at found
        cases found
      | some entries =>
        have counted : ({ bridge with requests := bridge.requests + 1 } :
            V86FuseEnvironmentBridgeV1).directoryRead request attributed = some entries := reads
        have same := tables_handle_of_read counted
        obtain ⟨keeps, spoils, _⟩ :=
          Inodes.directoryParts_spec bridge.closed entries 0 bridge.tables
        rw [same]
        constructor
        · intro kept other others again found
          rw [decoded, Option.some.injEq] at again
          rw [← again, reads, Option.some.injEq] at found
          rw [← found]
          by_contra taken
          exact (spoils books taken).not_exact kept
        · exact fun orderly => keeps books (orderly request entries decoded reads)
  | settle serial outcome =>
    simp only [step] at stepped
    split at stepped
    · cases stepped
    · rename_i waiting present
      cases stepped
      obtain ⟨keeps, spoils⟩ := tables_continueRequest bridge serial waiting outcome
      rw [(finish_spec _ serial _).2.1]
      constructor
      · intro kept other path id found noted
        rw [present, Option.some.injEq] at found
        rw [← found] at noted
        by_contra taken
        exact (spoils books path id noted taken).not_exact kept
      · exact fun orderly => keeps books fun path id noted =>
          orderly waiting path id present noted
  | returns =>
    simp only [step] at stepped
    split at stepped
    · cases stepped
    · cases stepped
      exact ⟨fun _ => trivial, fun _ => books⟩
  | close =>
    cases stepped
    refine ⟨fun _ => trivial, fun _ => ?_⟩
    unfold V86FuseEnvironmentBridgeV1.close
    split
    · exact books
    · exact ⟨Inodes.inverse_clear, Nat.zero_le _⟩

theorem tables_new : V86FuseEnvironmentBridgeV1.new.tables.Exact :=
  ⟨Inodes.inverse_new, by decide⟩

/-- In every run the books are exact throughout exactly if every path that a step of the run commits
can be given its number at that time. -/
theorem books_exact (events : List FuseEvent) (bridge : V86FuseEnvironmentBridgeV1) :
    (fuseMachine.ReachesWhen (fun before _ => before.Exact) events bridge ∧ bridge.Exact) ↔
      fuseMachine.ReachesWhen Orderly events bridge := by
  have sound : ∀ {allowed : V86FuseEnvironmentBridgeV1 → FuseEvent → Prop} {events bridge},
      fuseMachine.ReachesWhen allowed events bridge → bridge.Sound :=
    fun reached => reached.reaches.invariant sound_new fun before event after kept stepped =>
      kept.step stepped
  constructor
  · rintro ⟨run, books⟩
    induction run with
    | refl => exact .refl
    | @step events before after event leads kept stepped ih =>
      have tables := ((sound leads).exact_iff).mp kept
      have next := ((sound (leads.step kept stepped)).exact_iff).mp books
      exact .step (ih kept) ((tables_step tables stepped).mp next) stepped
  · intro run
    induction run with
    | refl => exact ⟨.refl, (sound_new.exact_iff).mpr tables_new⟩
    | @step events before after event leads orderly stepped ih =>
      have tables := ((sound leads).exact_iff).mp ih.2
      have next := (tables_step tables stepped).mpr orderly
      exact ⟨.step ih.1 ih.2 stepped, ((sound (leads.step orderly stepped)).exact_iff).mpr next⟩

end Runs

section Example

def frame (opcode nodeId : UInt8) (body : List UInt8) : List UInt8 :=
  [UInt8.ofNat (40 + body.length), 0, 0, 0, opcode, 0, 0, 0, 1, 0, 0, 0, 0, 0, 0, 0,
    nodeId, 0, 0, 0, 0, 0, 0, 0, 0, 0, 0, 0, 0, 0, 0, 0, 1, 0, 0, 0, 0, 0, 0, 0] ++ body

def toldDirectory : HostValue :=
  .json (.object [(js "kind", .string (js "directory")), (js "size", .number 0),
    (js "mode", .number 0o040755), (js "atimeNs", .string (js "0")),
    (js "mtimeNs", .string (js "0")), (js "ctimeNs", .string (js "0"))])

def asking : Common := ⟨some (js "sh"), some (js "process"), 1⟩

def madeTwice : List FuseEvent :=
  [.request (frame 9 1 [0, 0, 0, 0, 0, 0, 0, 0, 97, 0]) (.ok asking),
    .request (frame 9 1 [0, 0, 0, 0, 0, 0, 0, 0, 97, 0]) (.ok asking),
    .settle 0 (.ok toldDirectory),
    .request (frame 12 1 [1, 0, 0, 0, 0, 0, 0, 0, 97, 0, 98, 0]) (.ok asking),
    .settle 2 (.ok (.json .null)), .settle 1 (.ok toldDirectory)]

/-- Two directories made one after the other under one path, the first being renamed in between,
have one inode when both had been asked for before the first was made. -/
theorem not_books_exact : ¬ ∀ (events : List FuseEvent) (bridge : V86FuseEnvironmentBridgeV1),
    fuseMachine.Reaches events bridge → bridge.Exact := by
  intro always
  have run : (fuseMachine.run madeTwice).map (fun bridge => (bridge.tables.inodes.get? 2,
      bridge.tables.inodeIds.get? (js "/workspace/a"),
      bridge.tables.inodeIds.get? (js "/workspace/b"))) =
        some (some (js "/workspace/a"), some 2, some 2) := by
    decide +kernel
  obtain ⟨bridge, reached, fields⟩ := Machine.exists_of_run run
  rw [Prod.mk.injEq, Prod.mk.injEq] at fields
  have books := always madeTwice bridge reached
  have back := (books.inverse 2 (js "/workspace/b")).mpr fields.2.2
  rw [fields.1, Option.some.injEq] at back
  exact absurd back (by decide +kernel)

/-- Whatever is committed to the tables: never more than 64 places are taken, each pending one by a
request that waits or leaves; the counters count what the open directories list; and every token
that the host handed out stands behind a handle or went back, after the close every one of them. -/
theorem places_accounted {events : List FuseEvent} {bridge : V86FuseEnvironmentBridgeV1}
    (reached : fuseMachine.Reaches events bridge) :
    bridge.files.handles.size + bridge.files.pendingHandles ≤ 64 ∧
    bridge.files.pendingHandles = reserving bridge.waiting + bridge.leaving.length ∧
    bridge.files.directoryEntries = total bridge.files.handles FileHandle.listed ∧
    bridge.files.directoryBytes = total bridge.files.handles FileHandle.listedBytes ∧
    bridge.files.obtained.Perm (bridge.files.released ++ tokens bridge.files.handles) ∧
    (bridge.closed = true → bridge.files.obtained.Perm bridge.files.released) := by
  have sound : bridge.Sound := reached.invariant sound_new fun _ _ _ kept stepped =>
    kept.step stepped
  have books := sound.accounted
  refine ⟨sound.room, sound.pending, books.entries, books.bytes, books.tokens, fun closed => ?_⟩
  have none := List.length_eq_zero_iff.mp (sound.closed closed)
  simpa only [tokens, none, List.map_nil, List.append_nil] using books.tokens

/-- The books of places are kept where those of the tables are not. -/
theorem places_accounted_madeTwice : ∃ bridge : V86FuseEnvironmentBridgeV1,
    bridge.tables.inodeIds.get? (js "/workspace/a") = some 2 ∧
      bridge.files.handles.size + bridge.files.pendingHandles ≤ 64 := by
  have run : (fuseMachine.run madeTwice).map
      (fun bridge => bridge.tables.inodeIds.get? (js "/workspace/a")) = some (some 2) := by
    decide +kernel
  obtain ⟨bridge, reached, given⟩ := Machine.exists_of_run run
  exact ⟨bridge, given, (places_accounted reached).1⟩

end Example

end V86FuseEnvironmentBridgeV1

end Holonomy.Fuse
