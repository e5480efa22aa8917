import Holonomy.Foundation.StandardDecoder
import Holonomy.Supervisor.Payload

/-!
# Execution requests and their payloads

The writer of an execution request counts its strings in UTF-16 units, its reader counts them in
bytes and takes off the mark that may open each of them. What the reader accepts is what the writer
writes, up to such marks and the sign bit of the process identifiers.
-/

namespace Holonomy.Supervisor

open Foundation Scanner

def ProcessSupervisorExecRequestV1.strings (request : ProcessSupervisorExecRequestV1) : List Text :=
  request.path :: request.cwd :: request.argv

def IsExecText (text : Text) : Prop :=
  text.length ≠ 0 ∧ text.length ≤ 4096 ∧ (0 : UInt16) ∉ text
  deriving Decidable

/-- The writer's `string`: bytes behind their number. -/
def sized (source : List UInt8) : List UInt8 := bigEndian 4 source.length ++ source

/-- The payload of a request whose strings are written in some bytes. -/
def execBytes (request : ProcessSupervisorExecRequestV1) (encoded : List (List UInt8)) :
    List UInt8 :=
  bigEndian 4 request.linuxPid.toNat ++ (bigEndian 4 request.parentLinuxPid.toNat ++
    (bigEndian 8 request.processStartTimeTicks ++ ((encoded.take 2).flatMap sized ++
      (bigEndian 2 request.argv.length ++ (encoded.drop 2).flatMap sized))))

/-- What the writer asks of a request. -/
def IsExecRequest (request : ProcessSupervisorExecRequestV1) : Prop :=
  (∀ text ∈ request.strings, IsExecText text) ∧ request.path.head? = some 0x2F ∧
    request.cwd.head? = some 0x2F ∧ (1 ≤ request.argv.length ∧ request.argv.length ≤ 256) ∧
    (1 ≤ request.linuxPid.toNat ∧ request.linuxPid.toNat ≤ 0x7FFFFFFF) ∧
    (1 ≤ request.parentLinuxPid.toNat ∧ request.parentLinuxPid.toNat ≤ 0x7FFFFFFF) ∧
    1 ≤ request.processStartTimeTicks ∧ request.processStartTimeTicks ≤ maxSafeInteger
  deriving Decidable

/-- The payload of an execution request, unless the writer refuses it. -/
def encodeProcessSupervisorExecRequestV1 (request : ProcessSupervisorExecRequestV1) :
    Option (List UInt8) :=
  if IsExecRequest request then some (execBytes request (request.strings.map encodeUtf8)) else none

/-- The bytes of a string, with a mark in front of them or not. -/
def markedUtf8 (marked : Bool) (text : Text) : List UInt8 :=
  (if marked then byteOrderMark else []) ++ encodeUtf8 text

/-- The bytes of a string as the reader takes it. -/
def Spells (text : Text) (source : List UInt8) : Prop :=
  source.length ≤ 4096 ∧ decodeUtf8 source = some text ∧ IsExecText text

section Exec

variable {request : ProcessSupervisorExecRequestV1} {payload bytes rest source : List UInt8}
  {text : Text} {texts : List Text} {left right : List (List UInt8)} {offset next value count : ℕ}

theorem require_eq_some {condition : Prop} [Decidable condition]
    (read : require condition bytes offset = some ((), next)) : condition ∧ next = offset := by
  unfold require at read
  split_ifs at read with holds
  cases read
  exact ⟨holds, rfl⟩

theorem holoReaderBytes_eq_some (read : holoReaderBytes count bytes offset = some (source, next)) :
    bytes.drop offset = source ++ bytes.drop next ∧ source.length = count := by
  unfold holoReaderBytes at read
  split_ifs at read with outside
  cases read
  rw [← List.drop_drop, List.take_append_drop, List.length_take, List.length_drop]
  exact ⟨rfl, by omega⟩

theorem readerWord_eq_some (read : readerWord count bytes offset = some (value, next)) :
    bytes.drop offset = bigEndian count value ++ bytes.drop next ∧ value < 256 ^ count := by
  unfold readerWord at read
  rw [bind_apply, Option.bind_eq_some_iff] at read
  obtain ⟨⟨source, middle⟩, taken, same⟩ := read
  cases same
  obtain ⟨here, length⟩ := holoReaderBytes_eq_some taken
  have spelled := bigEndian_fromBigEndian source
  have small := fromBigEndian_lt source
  rw [length] at spelled small
  exact ⟨by rw [spelled, here], small⟩

theorem execString_eq_some (read : execString bytes offset = some (text, next)) :
    ∃ source, bytes.drop offset = sized source ++ bytes.drop next ∧ Spells text source := by
  unfold execString at read
  simp only [bind_apply, Option.bind_eq_some_iff] at read
  obtain ⟨⟨length, first⟩, word, ⟨_, second⟩, fits, ⟨source, third⟩, taken, ⟨found, fourth⟩, shown,
    ⟨_, fifth⟩, plain, same⟩ := read
  obtain ⟨fit, stays⟩ := require_eq_some fits
  obtain ⟨fine, stops⟩ := require_eq_some plain
  obtain ⟨counted, -⟩ := readerWord_eq_some word
  obtain ⟨here, whole⟩ := holoReaderBytes_eq_some taken
  cases same
  dsimp only at *
  cases decoded : decodeUtf8 source with
  | none =>
    rw [decoded] at shown
    cases shown
  | some output =>
    rw [decoded] at shown
    cases shown
    subst stays stops
    refine ⟨source, ?_, by omega, decoded, fine⟩
    rw [sized, List.append_assoc, whole, counted, here]

theorem many_execString_eq_some (read : many execString count bytes offset = some (texts, next)) :
    ∃ sources, bytes.drop offset = sources.flatMap sized ++ bytes.drop next ∧
      List.Forall₂ Spells texts sources ∧ texts.length = count := by
  induction count generalizing texts offset with
  | zero =>
    cases read
    exact ⟨[], rfl, .nil, rfl⟩
  | succ count ih =>
    simp only [many, bind_apply, Option.bind_eq_some_iff] at read
    obtain ⟨⟨text, middle⟩, first, ⟨later, last⟩, others, same⟩ := read
    cases same
    obtain ⟨source, here, spells⟩ := execString_eq_some first
    obtain ⟨sources, behind, spelled, length⟩ := ih others
    refine ⟨source :: sources, ?_, .cons spells spelled, by rw [List.length_cons, length]⟩
    rw [here, behind, List.flatMap_cons, List.append_assoc]

theorem isExecText_of_spells (spelled : List.Forall₂ Spells texts left) :
    ∀ text ∈ texts, IsExecText text := by
  induction spelled with
  | nil => exact fun text none => absurd none List.not_mem_nil
  | cons spells _ ih => exact List.forall_mem_cons.mpr ⟨spells.2.2, ih⟩

/-- What the reader accepts is what a writer that could write marks would write. -/
theorem decode_eq_some (read : decodeProcessSupervisorExecRequestV1 payload = some request) :
    ∃ sources, payload = execBytes request sources ∧
      List.Forall₂ Spells request.strings sources ∧
      (IsExecRequest request ↔ request.linuxPid.toNat ≤ 0x7FFFFFFF ∧
        request.parentLinuxPid.toNat ≤ 0x7FFFFFFF) := by
  unfold decodeProcessSupervisorExecRequestV1 all at read
  simp only [Option.bind_eq_bind, Option.bind_eq_some_iff] at read
  obtain ⟨found, ⟨⟨whole, stop⟩, fields, ended⟩, rooted⟩ := read
  obtain ⟨ends, same⟩ := Option.ite_none_right_eq_some.mp ended
  obtain ⟨roots, isFound⟩ := Option.ite_none_right_eq_some.mp rooted
  cases same
  cases isFound
  unfold execFields at fields
  simp only [bind_apply, Option.bind_eq_some_iff] at fields
  obtain ⟨⟨linuxPid, first⟩, linux, ⟨parentLinuxPid, second⟩, parent, ⟨ticks, third⟩, time,
    ⟨_, fourth⟩, timed, ⟨path, fifth⟩, paths, ⟨cwd, sixth⟩, cwds, ⟨count, seventh⟩, counts,
    ⟨_, eighth⟩, counted, ⟨argv, ninth⟩, args, made⟩ := fields
  cases made
  obtain ⟨linuxAt, linuxSmall⟩ := readerWord_eq_some linux
  obtain ⟨parentAt, parentSmall⟩ := readerWord_eq_some parent
  obtain ⟨timeAt, -⟩ := readerWord_eq_some time
  obtain ⟨pathSource, pathAt, pathSpelled⟩ := execString_eq_some paths
  obtain ⟨cwdSource, cwdAt, cwdSpelled⟩ := execString_eq_some cwds
  obtain ⟨countAt, -⟩ := readerWord_eq_some counts
  obtain ⟨argvSources, argvAt, argvSpelled, length⟩ := many_execString_eq_some args
  obtain ⟨timeFits, timeStays⟩ := require_eq_some timed
  obtain ⟨countFits, countStays⟩ := require_eq_some counted
  have linuxWord : (UInt32.ofNat linuxPid).toNat = linuxPid := UInt32.toNat_ofNat_of_lt' linuxSmall
  have parentWord : (UInt32.ofNat parentLinuxPid).toNat = parentLinuxPid :=
    UInt32.toNat_ofNat_of_lt' parentSmall
  dsimp only at *
  subst timeStays countStays
  refine ⟨pathSource :: cwdSource :: argvSources, ?_,
    .cons pathSpelled (.cons cwdSpelled argvSpelled), ?_⟩
  · rw [List.drop_zero] at linuxAt
    rw [ends, List.drop_length, List.append_nil] at argvAt
    rw [execBytes, linuxWord, parentWord, length, linuxAt, parentAt, timeAt, pathAt, cwdAt, countAt,
      argvAt]
    simp only [List.take_succ_cons, List.take_zero, List.drop_succ_cons, List.drop_zero,
      List.flatMap_cons, List.flatMap_nil, List.append_nil, List.append_assoc]
  · have texts := isExecText_of_spells (.cons pathSpelled (.cons cwdSpelled argvSpelled))
    unfold IsExecRequest
    rw [linuxWord, parentWord, length]
    constructor
    · exact fun asked => ⟨asked.2.2.2.2.1.2, asked.2.2.2.2.2.1.2⟩
    · rintro ⟨linuxFits, parentFits⟩
      exact ⟨texts, roots.1, roots.2, by omega, by omega, by omega,
        Nat.pos_of_ne_zero timeFits.1, timeFits.2⟩

theorem flatMap_sized_inj {behind after : List UInt8} (length : left.length = right.length)
    (leftSmall : ∀ source ∈ left, source.length < 256 ^ 4)
    (rightSmall : ∀ source ∈ right, source.length < 256 ^ 4)
    (same : left.flatMap sized ++ behind = right.flatMap sized ++ after) :
    left = right ∧ behind = after := by
  induction left generalizing right with
  | nil =>
    rw [List.length_nil, eq_comm, List.length_eq_zero_iff] at length
    rw [length] at same ⊢
    exact ⟨rfl, same⟩
  | cons first left ih =>
    cases right with
    | nil => cases length
    | cons second right =>
      obtain ⟨firstSmall, leftSmall⟩ := List.forall_mem_cons.mp leftSmall
      obtain ⟨secondSmall, rightSmall⟩ := List.forall_mem_cons.mp rightSmall
      simp only [List.flatMap_cons, sized, List.append_assoc] at same
      obtain ⟨words, bodies⟩ := List.append_inj same (by simp only [length_bigEndian])
      have lengths := congrArg fromBigEndian words
      rw [fromBigEndian_bigEndian firstSmall, fromBigEndian_bigEndian secondSmall] at lengths
      obtain ⟨here, later⟩ := List.append_inj bodies lengths
      obtain ⟨rest, ends⟩ := ih (Nat.succ.inj length) leftSmall rightSmall later
      exact ⟨by rw [here, rest], ends⟩

theorem execBytes_inj (length : left.length = right.length)
    (leftSmall : ∀ source ∈ left, source.length < 256 ^ 4)
    (rightSmall : ∀ source ∈ right, source.length < 256 ^ 4) :
    execBytes request left = execBytes request right ↔ left = right := by
  refine ⟨fun same => ?_, fun same => by rw [same]⟩
  unfold execBytes at same
  simp only [List.append_cancel_left_eq] at same
  obtain ⟨heads, rest⟩ := flatMap_sized_inj (by simp only [List.length_take, length])
    (fun source sourceIn => leftSmall source (List.mem_of_mem_take sourceIn))
    (fun source sourceIn => rightSmall source (List.mem_of_mem_take sourceIn)) same
  have tails := List.append_cancel_left rest
  rw [← List.append_nil (List.flatMap _ _), ← List.append_nil ((right.drop 2).flatMap sized)]
    at tails
  obtain ⟨behind, -⟩ := flatMap_sized_inj (by simp only [List.length_drop, length])
    (fun source sourceIn => leftSmall source (List.mem_of_mem_drop sourceIn))
    (fun source sourceIn => rightSmall source (List.mem_of_mem_drop sourceIn)) tails
  rw [← List.take_append_drop 2 left, heads, behind, List.take_append_drop]

theorem small_of_spells (spelled : List.Forall₂ Spells texts left) :
    (∀ source ∈ left, source.length < 256 ^ 4) ∧
      ∀ source ∈ texts.map encodeUtf8, source.length < 256 ^ 4 := by
  induction spelled with
  | nil => exact ⟨fun _ none => absurd none List.not_mem_nil, fun _ none => by cases none⟩
  | @cons text source texts sources spells _ ih =>
    have own := length_encodeUtf8_le text
    have units := spells.2.2.2.1
    exact ⟨List.forall_mem_cons.mpr ⟨spells.1.trans_lt (by decide), ih.1⟩,
      List.forall_mem_cons.mpr ⟨by omega, ih.2⟩⟩

theorem execBytes_own_eq (spelled : List.Forall₂ Spells request.strings left) :
    execBytes request (request.strings.map encodeUtf8) = execBytes request left ↔
      request.strings.map encodeUtf8 = left := by
  obtain ⟨taken, own⟩ := small_of_spells spelled
  exact execBytes_inj (by rw [List.length_map, spelled.length_eq]) own taken

theorem reads_readerWord (small : value < 256 ^ count) :
    Reads (readerWord count) (bigEndian count value) value :=
  (@follows_word True count value small).reads trivial

theorem reads_execString (spells : Spells text source) : Reads execString (sized source) text := by
  have fits : source.length < 256 ^ 4 := spells.1.trans_lt (by decide)
  have positive : source.length ≠ 0 := by
    intro none
    have read := spells.2.1
    rw [List.length_eq_zero_iff.mp none] at read
    cases read
    exact spells.2.2.1 rfl
  have checked : Reads (require (text.length ≠ 0 ∧ text.length ≤ 4096 ∧ (0 : UInt16) ∉ text) >>=
      fun _ => pure text) [] text := (reads_pure text).require spells.2.2
  have shown : Reads (present (decodeUtf8 source)) [] text := by
    rw [spells.2.1]
    exact reads_pure text
  have body : Reads (do
      let source ← holoReaderBytes source.length
      let output ← present (decodeUtf8 source)
      require (output.length ≠ 0 ∧ output.length ≤ 4096 ∧ (0 : UInt16) ∉ output)
      pure output) (source ++ ([] ++ [])) text :=
    (reads_bytes source).bind (Reads.bind shown checked)
  rw [List.append_nil, List.append_nil] at body
  exact (reads_readerWord fits).bind (body.require ⟨positive, spells.1⟩)

/-- What was written is read back when each string is read from its own bytes. -/
theorem decode_execBytes (asked : IsExecRequest request)
    (spelled : ∀ text ∈ request.strings, Spells text (encodeUtf8 text)) :
    decodeProcessSupervisorExecRequestV1 (execBytes request (request.strings.map encodeUtf8)) =
      some request := by
  obtain ⟨-, pathRoot, cwdRoot, args, linux, parent, time⟩ := asked
  have pathFits := spelled request.path List.mem_cons_self
  have cwdFits := spelled request.cwd (List.mem_cons_of_mem _ List.mem_cons_self)
  have argvFits : ∀ text ∈ request.argv, Spells text (encodeUtf8 text) := fun text textIn =>
    spelled text (List.mem_cons_of_mem _ (List.mem_cons_of_mem _ textIn))
  have argvReads : Reads (many execString request.argv.length)
      (request.argv.flatMap fun text => sized (encodeUtf8 text)) (request.argv.map id) :=
    Reads.many fun text textIn => reads_execString (argvFits text textIn)
  rw [List.map_id] at argvReads
  unfold maxSafeInteger at time
  have whole : Reads execFields (bigEndian 4 request.linuxPid.toNat ++
      (bigEndian 4 request.parentLinuxPid.toNat ++ (bigEndian 8 request.processStartTimeTicks ++
        (sized (encodeUtf8 request.path) ++ (sized (encodeUtf8 request.cwd) ++
          (bigEndian 2 request.argv.length ++
            ((request.argv.flatMap fun text => sized (encodeUtf8 text)) ++ []))))))) request := by
    refine (reads_readerWord (by omega)).bind ((reads_readerWord (by omega)).bind
      ((reads_readerWord (by omega)).bind (Reads.require ⟨by omega, time.2⟩
        ((reads_execString pathFits).bind ((reads_execString cwdFits).bind
          ((reads_readerWord (by omega)).bind (Reads.require (by omega) (argvReads.bind ?_))))))))
    have made := reads_pure request
    rw [UInt32.ofNat_toNat, UInt32.ofNat_toNat]
    exact made
  rw [List.append_nil] at whole
  unfold decodeProcessSupervisorExecRequestV1 execBytes ProcessSupervisorExecRequestV1.strings
  simp only [List.map_cons, List.take_succ_cons, List.take_zero, List.drop_succ_cons,
    List.drop_zero, List.flatMap_cons, List.flatMap_nil, List.append_nil, List.append_assoc,
    List.flatMap_map]
  rw [whole.all]
  exact if_pos ⟨pathRoot, cwdRoot⟩

theorem markedUtf8_eq {marked : Bool} : markedUtf8 marked text = encodeUtf8 text ↔
    marked = false := by
  unfold markedUtf8
  cases marked with
  | false => exact ⟨fun _ => rfl, fun _ => rfl⟩
  | true =>
    refine ⟨fun same => ?_, fun never => by cases never⟩
    have none := List.append_left_eq_self.mp same
    cases none

theorem marked_of_spells (spelled : List.Forall₂ Spells texts left) :
    ∃ marks : List Bool, marks.length = texts.length ∧ left = marks.zipWith markedUtf8 texts ∧
      (texts.map encodeUtf8 = left ↔ ∀ mark ∈ marks, mark = false) := by
  induction spelled with
  | nil => exact ⟨[], rfl, rfl, fun _ mark none => absurd none List.not_mem_nil, fun _ => rfl⟩
  | @cons text source texts sources spells _ ih =>
    obtain ⟨marks, length, same, plain⟩ := ih
    have whole : source = markedUtf8 (decide (byteOrderMark <+: source)) text := by
      have whole := (decodeUtf8_eq_some spells.2.1).2
      unfold markedUtf8
      simp only [decide_eq_true_eq]
      exact whole
    refine ⟨decide (byteOrderMark <+: source) ::
      marks, by rw [List.length_cons, length]; rfl, ?_, ?_⟩
    · rw [List.zipWith_cons_cons, ← same, ← whole]
    · rw [List.map_cons, List.cons.injEq, plain, List.forall_mem_cons, ← markedUtf8_eq, ← whole,
        eq_comm]

end Exec

/-- What was written is read back exactly when its strings have at most 4096 bytes and no mark opens
them; and what was read is the payload of the request that was read, with marks in front of some of
its strings, and is written again exactly when there are no marks and the process identifiers have
no sign bit. -/
theorem exec_round_trip (request : ProcessSupervisorExecRequestV1) (payload : List UInt8) :
    (encodeProcessSupervisorExecRequestV1 request = some payload →
      (∀ text ∈ request.strings, WellFormed text) →
      (decodeProcessSupervisorExecRequestV1 payload = some request ↔
        ∀ text ∈ request.strings, utf8ByteLength text ≤ 4096 ∧ text.head? ≠ some 0xFEFF)) ∧
    (decodeProcessSupervisorExecRequestV1 payload = some request →
      ∃ marks : List Bool, marks.length = request.strings.length ∧
        payload = execBytes request (marks.zipWith markedUtf8 request.strings) ∧
        (encodeProcessSupervisorExecRequestV1 request = some payload ↔
          (∀ mark ∈ marks, mark = false) ∧ request.linuxPid.toNat ≤ 0x7FFFFFFF ∧
            request.parentLinuxPid.toNat ≤ 0x7FFFFFFF)) := by
  refine ⟨fun written formed => ?_, fun read => ?_⟩
  · obtain ⟨asked, same⟩ := Option.ite_none_right_eq_some.mp written
    cases same
    have spells : ∀ text ∈ request.strings, Spells text (encodeUtf8 text) ↔
        utf8ByteLength text ≤ 4096 ∧ text.head? ≠ some 0xFEFF := by
      intro text textIn
      have own := formed text textIn
      have checked := asked.1 text textIn
      unfold Spells
      rw [length_encodeUtf8 own, decodeUtf8_encodeUtf8 own, Option.some.injEq, withoutMark_eq_self,
        and_iff_left checked]
    rw [← forall₂_congr spells]
    refine ⟨fun read => ?_, decode_execBytes asked⟩
    obtain ⟨sources, whole, spelled, -⟩ := decode_eq_some read
    have same := (execBytes_own_eq spelled).mp whole
    rw [← same, List.forall₂_map_right_iff, List.forall₂_same] at spelled
    exact spelled
  · obtain ⟨sources, whole, spelled, asked⟩ := decode_eq_some read
    obtain ⟨marks, length, same, plain⟩ := marked_of_spells spelled
    refine ⟨marks, length, same ▸ whole, ?_⟩
    unfold encodeProcessSupervisorExecRequestV1
    rw [whole, Option.ite_none_right_eq_some, Option.some.injEq, execBytes_own_eq spelled, plain,
      asked, and_comm]

def oneArgument (argument : Text) : ProcessSupervisorExecRequestV1 :=
  ⟨[argument], js "/", 1, 1, js "/a", 1⟩

/-- A request with an ordinary argument is read back. -/
theorem exec_round_trip_one : ∃ payload,
    encodeProcessSupervisorExecRequestV1 (oneArgument (js "a")) = some payload ∧
      decodeProcessSupervisorExecRequestV1 payload = some (oneArgument (js "a")) :=
  ⟨_, if_pos (by decide +kernel), ((exec_round_trip (oneArgument (js "a")) _).1
    (if_pos (by decide +kernel)) (by decide +kernel)).mpr (by decide +kernel)⟩

/-- An argument that is nothing but a mark is written and not read, and a mark in front of an
argument is read and not written again. -/
theorem not_exec_round_trip :
    (¬ ∀ request payload, encodeProcessSupervisorExecRequestV1 request = some payload →
      (∀ text ∈ request.strings, WellFormed text) →
      decodeProcessSupervisorExecRequestV1 payload = some request) ∧
    ¬ ∀ payload request, decodeProcessSupervisorExecRequestV1 payload = some request →
      encodeProcessSupervisorExecRequestV1 request = some payload := by
  refine ⟨fun all => ?_, fun all => ?_⟩
  · have read := all (oneArgument [0xFEFF]) _ (if_pos (by decide +kernel)) (by decide +kernel)
    have refused : decodeProcessSupervisorExecRequestV1 (execBytes (oneArgument [0xFEFF])
        ((oneArgument [0xFEFF]).strings.map encodeUtf8)) = none := by
      decide +kernel
    rw [refused] at read
    cases read
  · have written := all (execBytes (oneArgument (js "a")) ([false, false, true].zipWith markedUtf8
      (oneArgument (js "a")).strings)) (oneArgument (js "a")) (by decide +kernel)
    have others : encodeProcessSupervisorExecRequestV1 (oneArgument (js "a")) ≠
        some (execBytes (oneArgument (js "a")) ([false, false, true].zipWith markedUtf8
          (oneArgument (js "a")).strings)) := by
      decide +kernel
    exact others written

end Holonomy.Supervisor
