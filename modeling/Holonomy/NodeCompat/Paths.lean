import Holonomy.Foundation.Fallible
import Holonomy.Foundation.Joins

/-!
# POSIX paths

A normalized path has its components as a list: those that lead up in front, when it is relative,
then proper ones. Everything that is said of the path functions is said of this list.
-/

namespace Holonomy.NodeCompat

open Foundation

structure NodeCompatError where
  code : Text
  message : Text
deriving DecidableEq

def invalidArgument (detail : Text) : NodeCompatError :=
  ⟨js "ERR_HOLONOMY_INVALID_ARGUMENT", detail⟩

def outOfBounds (detail : Text) : NodeCompatError := ⟨js "ERR_HOLONOMY_OUT_OF_BOUNDS", detail⟩

/-- Cut separators off, the units of the path being listed from its end. -/
def dropSeparators : Text → Text
  | [] => []
  | [unit] => [unit]
  | unit :: next :: rest =>
    if unit = 47 then dropSeparators (next :: rest) else unit :: next :: rest

def trimTrailingSeparators (path : Text) : Text := (dropSeparators path.reverse).reverse

def isAbsolutePosix (path : Text) : Bool := decide (path.head? = some 47)

/-- One round of the loop of `normalizePosixPath`. -/
def normalizeSegment (absolute : Bool) (segments : List Text) (segment : Text) : List Text :=
  if segment = [] ∨ segment = js "." then segments
  else if segment = js ".." then
    if segments ≠ [] ∧ segments.getLast? ≠ some (js "..") then segments.dropLast
    else if absolute then segments
    else segments ++ [segment]
  else segments ++ [segment]

/-- The path of the segments. -/
def joinedSegments (absolute : Bool) (segments : List Text) : Text :=
  let normalized := (if absolute then [47] else []) ++ join 47 segments
  if normalized = [] then (if absolute then [47] else js ".") else normalized

/-- The path of the segments, with a trailing separator if there was one. -/
def assembled (absolute trailingSeparator : Bool) (segments : List Text) : Text :=
  let normalized := joinedSegments absolute segments
  if trailingSeparator ∧ normalized ≠ [47] ∧ normalized.getLast? ≠ some 47 then normalized ++ [47]
  else normalized

def normalizePosixPath (path : Text) : Text :=
  if path = [] then js "."
  else assembled (isAbsolutePosix path) (decide (path.getLast? = some 47))
    ((path.splitOn 47).foldl (normalizeSegment (isAbsolutePosix path)) [])

/-- The loop of `resolvePosixPath`, from the last path to the first and the working directory. -/
def resolveLoop : List Text → Text → Text
  | [], resolved => resolved
  | path :: earlier, resolved =>
    if path = [] then resolveLoop earlier resolved
    else if isAbsolutePosix path then path ++ 47 :: resolved
    else resolveLoop earlier (path ++ 47 :: resolved)

def resolvePosixPath (cwd : Text) (paths : List Text) : Except NodeCompatError Text :=
  if isAbsolutePosix cwd then
    .ok (trimTrailingSeparators (normalizePosixPath (resolveLoop (paths.reverse ++ [cwd]) [])))
  else .error (invalidArgument (js "Holonomy Runtime cwd must be an absolute POSIX path"))

/-- The number of parts that two paths begin with. -/
def sharedParts : List Text → List Text → ℕ
  | one :: fromParts, two :: toParts => if one = two then sharedParts fromParts toParts + 1 else 0
  | _, _ => 0

/-- Lead up out of what is not shared, then into what is not shared. -/
def relativeParts (fromParts toParts : List Text) : List Text :=
  let shared := sharedParts fromParts toParts
  (fromParts.drop shared).map (fun _ => js "..") ++ toParts.drop shared

def relativePosixPath (cwd fromPath toPath : Text) : Except NodeCompatError Text := do
  let fromResolved ← resolvePosixPath cwd [fromPath]
  let toResolved ← resolvePosixPath cwd [toPath]
  let fromParts := (fromResolved.splitOn 47).filter (· ≠ [])
  let toParts := (toResolved.splitOn 47).filter (· ≠ [])
  return join 47 (relativeParts fromParts toParts)

def androidHostPathPrefixes : List Text :=
  [js "/apex", js "/data", js "/dev", js "/mnt", js "/proc", js "/sdcard", js "/storage", js "/sys",
    js "/system", js "/vendor"]

/-- `replace(/\/$/u, '')`. -/
def withoutSeparator (path : Text) : Text := if path.getLast? = some 47 then path.dropLast else path

def normalizeVirtualRoot (virtualRoot : Text) : Except NodeCompatError Text :=
  if ¬ isAbsolutePosix virtualRoot then
    .error (invalidArgument (js "virtualRoot must be an absolute POSIX path"))
  else if 0 ∈ virtualRoot ∨ 92 ∈ virtualRoot then
    .error (invalidArgument (js "virtualRoot must be a portable POSIX path"))
  else
    let normalized := normalizePosixPath virtualRoot
    if normalized = [47] ∨ ∃ start ∈ androidHostPathPrefixes,
        normalized = start ∨ start ++ [47] <+: normalized then
      .error (invalidArgument
        (js "virtualRoot must be a dedicated virtual namespace, not an Android host path"))
    else .ok (if normalized = [47] then normalized else withoutSeparator normalized)

def assertPathWithinVirtualRoot (path virtualRoot name : Text) : Except NodeCompatError Text :=
  if ¬ isAbsolutePosix path then
    .error (invalidArgument (name ++ js " must be an absolute POSIX path"))
  else if 0 ∈ path ∨ 92 ∈ path then
    .error (invalidArgument (name ++ js " must not contain NUL or backslash"))
  else do
    let normalizedRoot ← normalizeVirtualRoot virtualRoot
    let normalizedPath := normalizePosixPath path
    let comparisonPath :=
      if withoutSeparator normalizedPath = [] then [47] else withoutSeparator normalizedPath
    if normalizedRoot = [47] ∨ comparisonPath = normalizedRoot ∨
        normalizedRoot ++ [47] <+: comparisonPath then .ok normalizedPath
    else .error (outOfBounds (name ++ js " escapes the Holonomy Runtime virtual root"))

/-- A component leads from one place to the next. -/
def walk (place : List Text) (component : Text) : List Text :=
  if component = [] ∨ component = js "." then place
  else if component = js ".." then place.dropLast
  else place ++ [component]

/-- The location of a path from a base, its components taken from left to right. -/
def locate (base : List Text) (path : Text) : List Text :=
  (path.splitOn 47).foldl walk (if isAbsolutePosix path then [] else base)

/-- A component that moves. -/
structure IsSegment (component : Text) : Prop where
  some : component ≠ []
  notDot : component ≠ js "."
  noSeparator : 47 ∉ component

/-- A component that names an entry. -/
structure IsProper (component : Text) : Prop extends IsSegment component where
  notUp : component ≠ js ".."

/-- Without a trailing separator the path is the root, or the root with components behind it. -/
def IsWithin (root path : Text) : Prop :=
  withoutSeparator path = root ∨ ∃ parts, parts ≠ [] ∧ (∀ part ∈ parts, IsProper part) ∧
    withoutSeparator path = root ++ 47 :: join 47 parts

/-- An absolute path of proper components, without a trailing separator but for the root. -/
def IsLocation (path : Text) : Prop :=
  ∃ components, (∀ component ∈ components, IsProper component) ∧ path = 47 :: join 47 components

/-- The components that move. -/
def components (path : Text) : List Text :=
  (path.splitOn 47).filter fun component => decide (component ≠ [] ∧ component ≠ js ".")

theorem isSegment_of_mem_components {path component : Text} (listed : component ∈ components path) :
    IsSegment component := by
  obtain ⟨among, moves⟩ := List.mem_filter.mp listed
  have kind := of_decide_eq_true moves
  exact ⟨kind.1, kind.2, not_mem_of_mem_splitOn among⟩

/-- A separator divides the components. -/
theorem components_append (left right : Text) :
    components (left ++ 47 :: right) = components left ++ components right := by
  rw [components, List.splitOn_append_cons_self, List.filter_append, components, components]

theorem components_nil : components [] = [] := by decide

theorem components_separator (path : Text) : components (47 :: path) = components path := by
  have divided := components_append [] path
  rw [components_nil, List.nil_append, List.nil_append] at divided
  exact divided

/-- Components that are joined are those of the path. -/
theorem components_join {segments : List Text}
    (are : ∀ segment ∈ segments, IsSegment segment) :
    components (join 47 segments) = segments := by
  cases segments with
  | nil => exact components_nil
  | cons first rest =>
    rw [components, join, List.splitOn_intercalate 47
      (fun part listed => (are part listed).noSeparator)
      (List.cons_ne_nil first rest), List.filter_eq_self]
    intro part listed
    exact decide_eq_true ⟨(are part listed).some, (are part listed).notDot⟩

/-- Components that do not move may be left out. -/
theorem foldl_components {step : List Text → Text → List Text}
    (keeps : ∀ place component, component = [] ∨ component = js "." → step place component = place)
    (place : List Text) (path : Text) :
    (path.splitOn 47).foldl step place = (components path).foldl step place := by
  have same : step = fun place component =>
      if decide (component ≠ [] ∧ component ≠ js ".") = true then step place
        component else place := by
    funext place component
    by_cases moves : component ≠ [] ∧ component ≠ js "."
    · rw [if_pos (decide_eq_true moves)]
    · have still : component = [] ∨ component = js "." := by
        by_contra neither
        exact moves (not_or.mp neither)
      rw [decide_eq_false moves, if_neg Bool.false_ne_true, keeps place component still]
  rw [components, List.foldl_filter, ← same]

theorem walk_up (place : List Text) : walk place (js "..") = place.dropLast := by
  rw [walk, if_neg (by decide), if_pos rfl]

theorem walk_into (place : List Text) {component : Text} (proper : IsProper component) :
    walk place component = place ++ [component] := by
  rw [walk, if_neg (not_or.mpr ⟨proper.some, proper.notDot⟩), if_neg proper.notUp]

theorem locate_eq (base : List Text) (path : Text) :
    locate base path = (components path).foldl walk (if isAbsolutePosix path then [] else base) :=
  foldl_components (fun _ _ still => if_pos still) _ path

/-- The segments of a normalized path: those that lead up stand in front, and only where the path
is relative. -/
structure Normal (absolute : Bool) (segments : List Text) : Prop where
  are : ∀ segment ∈ segments, IsSegment segment
  front : segments.Pairwise fun earlier later => later = js ".." → earlier = js ".."
  rooted : absolute = true → js ".." ∉ segments

section Normal

variable {absolute : Bool} {segments : List Text} {segment : Text}

theorem Normal.nil : Normal absolute [] :=
  ⟨fun _ listed => absurd listed List.not_mem_nil, List.Pairwise.nil, fun _ => List.not_mem_nil⟩

section

variable (normal : Normal absolute segments)

include normal

theorem Normal.sublist {fewer : List Text}
    (within : fewer.Sublist segments) : Normal absolute fewer :=
  ⟨fun part listed => normal.are part (within.subset listed), normal.front.sublist within,
    fun isAbsolute listed => normal.rooted isAbsolute (within.subset listed)⟩

/-- Where the last segment leads up, all do. -/
theorem Normal.all_up (last : ¬ (segments ≠ [] ∧ segments.getLast? ≠ some (js ".."))) :
    ∀ part ∈ segments, part = js ".." := by
  intro part listed
  have ends : segments.getLast? = some (js "..") := by
    by_contra other
    exact last ⟨List.ne_nil_of_mem listed, other⟩
  obtain ⟨front, rfl⟩ := List.getLast?_eq_some_iff.mp ends
  rcases List.mem_append.mp listed with before | same
  · exact (List.pairwise_append.mp normal.front).2.2 part before _ List.mem_cons_self rfl
  · exact List.mem_singleton.mp same

section

variable (isSegment : IsSegment segment)

include isSegment

/-- What one round does with a segment that moves. -/
theorem normalizeSegment_cases :
    (segment = js ".." ∧ ∃ front last, segments = front ++ [last] ∧ last ≠ js ".." ∧
      normalizeSegment absolute segments segment = front) ∨
    (segment = js ".." ∧ absolute = true ∧ segments = [] ∧
      normalizeSegment absolute segments segment = []) ∨
    ((segment = js ".." → absolute = false ∧ ∀ part ∈ segments, part = js "..") ∧
      normalizeSegment absolute segments segment = segments ++ [segment]) := by
  rw [normalizeSegment, if_neg (not_or.mpr ⟨isSegment.some, isSegment.notDot⟩)]
  by_cases up : segment = js ".."
  · rw [if_pos up]
    by_cases pops : segments ≠ [] ∧ segments.getLast? ≠ some (js "..")
    · rw [if_pos pops]
      have whole := List.dropLast_append_getLast pops.1
      refine .inl ⟨up, segments.dropLast, segments.getLast pops.1, whole.symm, fun same => ?_, rfl⟩
      exact pops.2 (same ▸ List.getLast?_eq_getLast_of_ne_nil pops.1)
    · have ups := normal.all_up pops
      rw [if_neg pops]
      cases absolute with
      | true =>
        have none : segments = [] := by
          rw [List.eq_nil_iff_forall_not_mem]
          intro part listed
          exact normal.rooted rfl (ups part listed ▸ listed)
        exact .inr (.inl ⟨up, rfl, none, none⟩)
      | false => exact .inr (.inr ⟨fun _ => ⟨rfl, ups⟩, rfl⟩)
  · rw [if_neg up]
    exact .inr (.inr ⟨fun same => absurd same up, rfl⟩)

/-- A round keeps the segments normal. -/
theorem Normal.step :
    Normal absolute (normalizeSegment absolute segments segment) := by
  rcases normalizeSegment_cases normal isSegment with
    ⟨-, front, last, rfl, -, same⟩ | ⟨-, -, -, same⟩ | ⟨ups, same⟩
  · rw [same]
    exact normal.sublist (List.sublist_append_left front [last])
  · rw [same]
    exact .nil
  · rw [same]
    refine ⟨fun part listed => ?_, List.pairwise_append.mpr ⟨normal.front,
      List.pairwise_singleton _ _, fun part listed other same up => ?_⟩,
        fun isAbsolute listed => ?_⟩
    · rcases List.mem_append.mp listed with before | here
      · exact normal.are part before
      · exact List.mem_singleton.mp here ▸ isSegment
    · exact (ups (List.mem_singleton.mp same ▸ up)).2 part listed
    · rcases List.mem_append.mp listed with before | here
      · exact normal.rooted isAbsolute before
      · have relative := (ups (List.mem_singleton.mp here).symm).1
        rw [isAbsolute] at relative
        cases relative

/-- A round leads where its segment leads. -/
theorem walk_normalizeSegment
    {base : List Text} (root : absolute = true → base = []) :
    (normalizeSegment absolute segments segment).foldl walk base =
      walk (segments.foldl walk base) segment := by
  rcases normalizeSegment_cases normal isSegment with
    ⟨rfl, front, last, rfl, notUp, same⟩ | ⟨rfl, isAbsolute, rfl, same⟩ | ⟨-, same⟩
  · rw [same, List.foldl_append, List.foldl_cons, List.foldl_nil,
      walk_into _ ⟨normal.are last (by simp), notUp⟩, walk_up, List.dropLast_concat]
  · rw [same, List.foldl_nil, root isAbsolute, walk_up]
    rfl
  · rw [same, List.foldl_append]
    rfl

end

end

/-- The loop keeps the segments normal and leads where the path leads. -/
theorem normalize_loop (path : Text) (normal : Normal absolute segments) :
    Normal absolute ((components path).foldl (normalizeSegment absolute) segments) ∧
      ∀ base, (absolute = true → base = []) →
        ((components path).foldl (normalizeSegment absolute) segments).foldl walk base =
          (components path).foldl walk (segments.foldl walk base) := by
  have are : ∀ part ∈ components path, IsSegment part :=
    fun part => isSegment_of_mem_components
  generalize components path = parts at are ⊢
  induction parts generalizing segments with
  | nil => exact ⟨normal, fun base root => rfl⟩
  | cons component rest ih =>
    have here := are component List.mem_cons_self
    obtain ⟨kept, leads⟩ := ih (normal.step here)
      fun part listed => are part (List.mem_cons_of_mem _ listed)
    refine ⟨kept, fun base root => ?_⟩
    rw [List.foldl_cons, leads base root, walk_normalizeSegment normal here root, List.foldl_cons]

/-- Normal segments stay what they are. -/
theorem Normal.unchanged {before after : List Text} (normal : Normal absolute (before ++ after)) :
    after.foldl (normalizeSegment absolute) before = before ++ after := by
  induction after generalizing before with
  | nil => rw [List.append_nil, List.foldl_nil]
  | cons segment rest ih =>
    have early := normal.sublist (List.sublist_append_left before (segment :: rest))
    have pushed : normalizeSegment absolute before segment = before ++ [segment] := by
      have apart := (List.pairwise_append.mp normal.front).2.2
      rcases normalizeSegment_cases early (normal.are segment (by simp)) with
        ⟨up, front, last, rfl, notUp, -⟩ | ⟨up, isAbsolute, -, -⟩ | ⟨-, same⟩
      · exact absurd (apart last (by simp) segment List.mem_cons_self up) notUp
      · exact absurd (by simp [up]) (normal.rooted isAbsolute)
      · exact same
    rw [List.foldl_cons, pushed, ih (by rwa [List.append_assoc, List.singleton_append]),
      List.append_assoc, List.singleton_append]

end Normal

section Assembled

variable {segments : List Text}

theorem joinedSegments_true (segments : List Text) :
    joinedSegments true segments = 47 :: join 47 segments := by
  rw [joinedSegments, if_pos rfl, List.singleton_append]
  exact if_neg (List.cons_ne_nil _ _)

/-- The units at both ends of a relative path are no separators. -/
theorem joinedSegments_false (are : ∀ part ∈ segments, IsSegment part) :
    components (joinedSegments false segments) = segments ∧
      (joinedSegments false segments).head? ≠ some 47 ∧
      (joinedSegments false segments).getLast? ≠ some 47 ∧ joinedSegments false segments ≠ [] ∧
      (segments ≠ [] → joinedSegments false segments = join 47 segments) := by
  by_cases none : segments = []
  · rw [none]
    decide
  have split : (join 47 segments).splitOn 47 = segments :=
    List.splitOn_intercalate 47 (fun part listed => (are part listed).noSeparator) none
  have filled : [] ∉ (join 47 segments).splitOn 47 := by
    rw [split]
    exact fun listed => (are [] listed).some rfl
  have some' : join 47 segments ≠ [] := by
    intro empty
    rw [empty] at filled
    exact filled (by decide)
  have same : joinedSegments false segments = join 47 segments := if_neg some'
  rw [same]
  refine ⟨components_join are, fun starts => ?_, fun ends => ?_, some', fun _ => rfl⟩
  · obtain ⟨rest, opens⟩ := List.head?_eq_some_iff.mp starts
    rw [opens, ← List.nil_append (47 :: rest), List.splitOn_append_cons_self] at filled
    exact filled (by simp)
  · obtain ⟨front, closes⟩ := List.getLast?_eq_some_iff.mp ends
    rw [closes, List.splitOn_append_cons_self] at filled
    exact filled (by simp)

/-- Only the root ends with its separator before one is added. -/
theorem joinedSegments_spec (absolute : Bool)
    (are : ∀ part ∈ segments, IsSegment part) :
    components (joinedSegments absolute segments) = segments ∧
      isAbsolutePosix (joinedSegments absolute segments) = absolute ∧
      joinedSegments absolute segments ≠ [] ∧
      (joinedSegments absolute segments = [47] ∨
        (joinedSegments absolute segments).getLast? ≠ some 47) := by
  obtain ⟨found, starts, ends, some', same⟩ := joinedSegments_false are
  cases absolute with
  | false => exact ⟨found, decide_eq_false starts, some', .inr ends⟩
  | true =>
    rw [joinedSegments_true]
    refine ⟨by rw [components_separator, components_join are], rfl, List.cons_ne_nil _ _, ?_⟩
    by_cases none : segments = []
    · rw [none]
      exact .inl rfl
    · rw [same none] at ends some'
      rw [List.getLast?_cons_of_ne_nil some']
      exact .inr ends

/-- A separator is added or not. -/
theorem assembled_cases (absolute trailing : Bool) (segments : List Text) :
    assembled absolute trailing segments = joinedSegments absolute segments ∨
      (joinedSegments absolute segments).getLast? ≠ some 47 ∧
        assembled absolute trailing segments = joinedSegments absolute segments ++ [47] := by
  unfold assembled
  dsimp only
  split_ifs with added
  · exact .inr ⟨added.2.2, rfl⟩
  · exact .inl rfl

/-- A path that was assembled has the segments as components. -/
theorem assembled_spec (absolute trailing : Bool)
    (are : ∀ part ∈ segments, IsSegment part) :
    components (assembled absolute trailing segments) = segments ∧
      isAbsolutePosix (assembled absolute trailing segments) = absolute ∧
      assembled absolute trailing segments ≠ [] := by
  obtain ⟨found, starts, some', -⟩ := joinedSegments_spec absolute are
  rcases assembled_cases absolute trailing segments with same | ⟨-, same⟩
  · rw [same]
    exact ⟨found, starts, some'⟩
  · rw [same, components_append, components_nil, List.append_nil]
    refine ⟨found, ?_, List.append_ne_nil_of_left_ne_nil some' _⟩
    rw [isAbsolutePosix, List.head?_append_of_ne_nil _ some']
    exact starts

end Assembled

variable {path : Text}

theorem normalizePosixPath_of_ne_nil (some : path ≠ []) : normalizePosixPath path =
    assembled (isAbsolutePosix path) (decide (path.getLast? = Option.some 47))
      ((components path).foldl (normalizeSegment (isAbsolutePosix path)) []) := by
  have keeps (place : List Text) (component : Text) (still : component = [] ∨ component = js ".") :
      normalizeSegment (isAbsolutePosix path) place component = place := if_pos still
  rw [normalizePosixPath, if_neg some, foldl_components keeps]

/-- A normalized path is assembled from normal segments, which lead where the path leads. -/
theorem normalizePosixPath_eq (path : Text) :
    ∃ trailing segments, normalizePosixPath path = assembled (isAbsolutePosix path) trailing
    segments ∧
      Normal (isAbsolutePosix path) segments ∧
      ∀ base, (isAbsolutePosix path = true → base = []) →
        segments.foldl walk base = (components path).foldl walk base := by
  by_cases none : path = []
  · rw [none]
    exact ⟨false, [], rfl, .nil, fun base _ => rfl⟩
  · obtain ⟨normal, leads⟩ := normalize_loop path (Normal.nil : Normal (isAbsolutePosix path) [])
    exact ⟨_, _, normalizePosixPath_of_ne_nil none, normal, leads⟩

theorem normalizePosixPath_idempotent (path : Text) :
    normalizePosixPath (normalizePosixPath path) = normalizePosixPath path := by
  obtain ⟨trailing, segments, same, normal, -⟩ := normalizePosixPath_eq path
  generalize isAbsolutePosix path = absolute at same normal
  obtain ⟨found, starts, some'⟩ := assembled_spec absolute trailing normal.are
  have kept : segments.foldl (normalizeSegment absolute) [] = segments := normal.unchanged
  rw [same, normalizePosixPath_of_ne_nil some', found, starts, kept]
  rcases assembled_cases absolute trailing segments with plain | ⟨ends, added⟩
  · rw [plain]
    exact if_neg fun adds => adds.2.2 (of_decide_eq_true adds.1)
  · rw [added, List.getLast?_concat, decide_eq_true rfl]
    refine if_pos ⟨rfl, fun root => ends ?_, ends⟩
    rw [root]
    rfl

/-- A normalized path denotes the same location as the path. -/
theorem locate_normalizePosixPath (base : List Text) (path : Text) :
    locate base (normalizePosixPath path) = locate base path := by
  obtain ⟨trailing, segments, same, normal, leads⟩ := normalizePosixPath_eq path
  obtain ⟨found, starts, -⟩ := assembled_spec (isAbsolutePosix path) trailing normal.are
  rw [locate_eq, locate_eq, same, found, starts]
  exact leads _ fun isAbsolute => if_pos isAbsolute

theorem foldl_walk_proper {segments : List Text} (proper : ∀ part ∈ segments, IsProper part)
    (base : List Text) : segments.foldl walk base = base ++ segments := by
  induction segments generalizing base with
  | nil => rw [List.foldl_nil, List.append_nil]
  | cons part rest ih =>
    rw [List.foldl_cons, walk_into base (proper part List.mem_cons_self),
      ih fun other listed => proper other (List.mem_cons_of_mem _ listed), List.append_assoc,
      List.singleton_append]

theorem Normal.proper {segments : List Text} (normal : Normal true segments) :
    ∀ part ∈ segments, IsProper part := fun part listed =>
  ⟨normal.are part listed, fun up => normal.rooted rfl (up ▸ listed)⟩

theorem trimTrailingSeparators_of_getLast?
    (ends : path = [47] ∨ path.getLast? ≠ some 47) : trimTrailingSeparators path = path := by
  rw [trimTrailingSeparators, List.reverse_eq_iff]
  rcases ends with rfl | ends
  · rfl
  · rw [← List.head?_reverse] at ends
    cases units : path.reverse with
    | nil => rfl
    | cons unit rest =>
      rw [units] at ends
      cases rest with
      | nil => rfl
      | cons next rest => exact if_neg fun same => ends (congrArg some same)

theorem trimTrailingSeparators_concat (some : path ≠ []) :
    trimTrailingSeparators (path ++ [47]) = trimTrailingSeparators path := by
  rw [trimTrailingSeparators, trimTrailingSeparators, List.reverse_concat]
  cases units : path.reverse with
  | nil => exact absurd (List.reverse_eq_nil_iff.mp units) some
  | cons unit rest => rfl

/-- Trailing separators are cut off a normalized path. -/
theorem trim_assembled (absolute trailing : Bool) {segments : List Text}
    (are : ∀ part ∈ segments, IsSegment part) :
    trimTrailingSeparators (assembled absolute trailing segments) = joinedSegments absolute
    segments ∧
      (withoutSeparator (assembled absolute trailing segments) = joinedSegments absolute segments ∨
        joinedSegments absolute segments = [47] ∧
          withoutSeparator (assembled absolute trailing segments) = []) := by
  obtain ⟨-, -, some', ends⟩ := joinedSegments_spec absolute are
  have trimmed := trimTrailingSeparators_of_getLast? ends
  rcases assembled_cases absolute trailing segments with same | ⟨open', same⟩
  · rw [same]
    refine ⟨trimmed, ends.elim (fun root => .inr ⟨root, ?_⟩) fun open' => .inl (if_neg open')⟩
    rw [root]
    rfl
  · rw [same, trimTrailingSeparators_concat some', trimmed, withoutSeparator, List.getLast?_concat,
      if_pos rfl, List.dropLast_concat]
    exact ⟨rfl, .inl rfl⟩

/-- The location that paths, the last one first, denote from the root. -/
def place (paths : List Text) : List Text := paths.foldr (fun path base => locate base path) []

/-- The loop collects the paths that matter. -/
theorem resolveLoop_spec {paths : List Text} (rooted : ∃ path ∈ paths, isAbsolutePosix path = true)
    (resolved : Text) : isAbsolutePosix (resolveLoop paths resolved) = true ∧
      (components (resolveLoop paths resolved)).foldl walk [] =
        (components resolved).foldl walk (place paths) := by
  induction paths generalizing resolved with
  | nil =>
    obtain ⟨path, listed, -⟩ := rooted
    cases listed
  | cons path earlier ih =>
    have apart (relative : isAbsolutePosix path = false) :
        ∃ other ∈ earlier, isAbsolutePosix other = true := by
      obtain ⟨other, listed, isAbsolute⟩ := rooted
      rcases List.mem_cons.mp listed with rfl | among
      · rw [relative] at isAbsolute
        cases isAbsolute
      · exact ⟨other, among, isAbsolute⟩
    have here : place (path :: earlier) = locate (place earlier) path := rfl
    rw [resolveLoop, here, locate_eq]
    by_cases none : path = []
    · rw [if_pos none, none, components_nil]
      exact ih (apart (by rw [none]; rfl)) resolved
    rw [if_neg none]
    by_cases isAbsolute : isAbsolutePosix path = true
    · rw [if_pos isAbsolute, if_pos isAbsolute, components_append, List.foldl_append]
      refine ⟨?_, rfl⟩
      rw [isAbsolutePosix, List.head?_append_of_ne_nil _ none]
      exact isAbsolute
    · rw [if_neg isAbsolute, if_neg isAbsolute]
      obtain ⟨starts, leads⟩ := ih (apart (Bool.eq_false_iff.mpr isAbsolute))
        (path ++ 47 :: resolved)
      rw [components_append, List.foldl_append] at leads
      exact ⟨starts, leads⟩

/-- Paths are resolved to the location that they denote. -/
theorem resolvePosixPath_eq {cwd : Text} (isAbsolute : isAbsolutePosix cwd = true)
    (paths : List Text) :
    resolvePosixPath cwd paths = .ok (47 :: join 47 (place (paths.reverse ++ [cwd]))) ∧
      ∀ part ∈ place (paths.reverse ++ [cwd]), IsProper part := by
  obtain ⟨starts, leads⟩ := resolveLoop_spec
    ⟨cwd, List.mem_append_right paths.reverse List.mem_cons_self, isAbsolute⟩ []
  obtain ⟨trailing, segments, same, normal, walks⟩ :=
    normalizePosixPath_eq (resolveLoop (paths.reverse ++ [cwd]) [])
  rw [starts] at same normal
  have found : segments = place (paths.reverse ++ [cwd]) := by
    have reached := walks [] fun _ => rfl
    rw [foldl_walk_proper normal.proper, List.nil_append, leads, components_nil, List.foldl_nil]
      at reached
    exact reached
  rw [← found, resolvePosixPath, if_pos isAbsolute, same,
    (trim_assembled true trailing normal.are).1, joinedSegments_true]
  exact ⟨rfl, normal.proper⟩

theorem components_location {segments : List Text} (proper : ∀ part ∈ segments, IsProper part) :
    components (47 :: join 47 segments) = segments := by
  rw [components_separator, components_join fun part listed => (proper part listed).toIsSegment]

/-- The location of the path of proper components. -/
theorem locate_location {segments : List Text} (proper : ∀ part ∈ segments, IsProper part)
    (base : List Text) : locate base (47 :: join 47 segments) = segments := by
  have isAbsolute : isAbsolutePosix (47 :: join 47 segments) = true := rfl
  rw [locate_eq, if_pos isAbsolute, components_location proper, foldl_walk_proper proper,
    List.nil_append]

/-- The parts of the path of proper components. -/
theorem parts_location {segments : List Text} (proper : ∀ part ∈ segments, IsProper part) :
    ((47 :: join 47 segments).splitOn 47).filter (· ≠ []) = segments := by
  have opens : (47 :: join 47 segments).splitOn 47 = [] :: (join 47 segments).splitOn 47 :=
    List.splitOn_append_cons_self [] (join 47 segments)
  rw [opens, List.filter_cons_of_neg (by decide)]
  cases segments with
  | nil => rfl
  | cons first rest =>
    rw [join, List.splitOn_intercalate 47 (fun part listed => (proper part listed).noSeparator)
      (List.cons_ne_nil first rest), List.filter_eq_self]
    exact fun part listed => decide_eq_true (proper part listed).some

theorem take_sharedParts (fromParts toParts : List Text) :
    fromParts.take (sharedParts fromParts toParts) =
    toParts.take (sharedParts fromParts toParts) := by
  fun_induction sharedParts fromParts toParts with
  | case1 one fromParts toParts ih => rw [List.take_succ_cons, List.take_succ_cons, ih]
  | case2 => rfl
  | case3 => rfl

/-- Leading up takes the last components off. -/
theorem foldl_walk_up (count : ℕ) (base : List Text) :
    (List.replicate count (js "..")).foldl walk base = base.take (base.length - count) := by
  induction count generalizing base with
  | zero => exact (List.take_length (l := base)).symm
  | succ count ih =>
    rw [List.replicate_succ, List.foldl_cons, walk_up, ih, List.length_dropLast,
      List.dropLast_eq_take, List.take_take]
    congr 1
    omega

/-- The parts of the relative path lead from one place to the other. -/
theorem foldl_relativeParts (fromParts : List Text) {toParts : List Text}
    (proper : ∀ part ∈ toParts, IsProper part) :
    (relativeParts fromParts toParts).foldl walk fromParts = toParts := by
  have kept := take_sharedParts fromParts toParts
  unfold relativeParts
  generalize sharedParts fromParts toParts = shared at kept
  have back : fromParts.take (fromParts.length - (fromParts.drop shared).length) =
      fromParts.take shared := by
    rw [List.take_eq_take_iff, List.length_drop]
    omega
  rw [List.foldl_append, List.map_const', foldl_walk_up, back, kept,
    foldl_walk_proper fun part listed =>
    proper part (List.mem_of_mem_drop listed), List.take_append_drop]

/-- A path of segments without a separator in front is relative. -/
theorem locate_join {segments : List Text} (are : ∀ part ∈ segments, IsSegment part)
    (base : List Text) : locate base (join 47 segments) = segments.foldl walk base := by
  have relative : isAbsolutePosix (join 47 segments) = false := by
    apply decide_eq_false
    by_cases none : segments = []
    · rw [none]
      decide
    · obtain ⟨-, starts, -, -, same⟩ := joinedSegments_false are
      rw [← same none]
      exact starts
  rw [locate_eq, relative, components_join are]
  rfl

/-- The relative path leads from the first location to the second. -/
theorem relativePosixPath_leads {cwd : Text} (isAbsolute : isAbsolutePosix cwd = true)
    (fromPath toPath : Text) : ∃ base path, resolvePosixPath cwd [fromPath] = .ok base ∧
      relativePosixPath cwd fromPath toPath = .ok path ∧
      resolvePosixPath cwd [base, path] = resolvePosixPath cwd [toPath] := by
  obtain ⟨fromResolved, fromProper⟩ := resolvePosixPath_eq isAbsolute [fromPath]
  obtain ⟨toResolved, toProper⟩ := resolvePosixPath_eq isAbsolute [toPath]
  refine ⟨_, join 47 (relativeParts (place [fromPath, cwd]) (place [toPath, cwd])),
    fromResolved, ?_, ?_⟩
  · rw [relativePosixPath, fromResolved, toResolved]
    show Except.ok (join 47 (relativeParts (List.filter _ _) (List.filter _ _))) = _
    exact congrArg Except.ok (congrArg (join 47)
      (congrArg₂ relativeParts (parts_location fromProper) (parts_location toProper)))
  · have are : ∀ part ∈ relativeParts (place [fromPath, cwd]) (place [toPath, cwd]),
        IsSegment part := by
      intro part listed
      rcases List.mem_append.mp listed with up | into
      · obtain ⟨_, -, rfl⟩ := List.mem_map.mp up
        exact ⟨by decide, by decide, by decide⟩
      · exact (toProper part (List.mem_of_mem_drop into)).toIsSegment
    rw [(resolvePosixPath_eq isAbsolute _).1, toResolved]
    show Except.ok (47 :: join 47 (locate (locate (place [cwd]) _) _)) = _
    rw [locate_location fromProper, locate_join are]
    exact congrArg (fun parts => Except.ok (47 :: join 47 parts))
      (foldl_relativeParts (place [fromPath, cwd]) toProper)

/-- An absolute path is normalized to its location, perhaps with a separator behind it. -/
theorem normalizePosixPath_location (isAbsolute : isAbsolutePosix path = true) :
    ∃ segments, (∀ part ∈ segments, IsProper part) ∧
    (segments = [] → normalizePosixPath path = [47]) ∧
      (segments ≠ [] → withoutSeparator (normalizePosixPath path) = 47 :: join 47 segments) := by
  obtain ⟨trailing, segments, same, normal, -⟩ := normalizePosixPath_eq path
  rw [isAbsolute] at same normal
  refine ⟨segments, normal.proper, fun none => ?_, fun some' => ?_⟩
  · rw [same, none]
    cases trailing <;> decide
  · rw [same]
    rcases (trim_assembled true trailing normal.are).2 with found | ⟨root, -⟩
    · rw [found, joinedSegments_true]
    · have found := components_location normal.proper
      rw [← joinedSegments_true, root] at found
      exact absurd found.symm some'

/-- What the root of a virtual namespace is normalized to. -/
theorem normalizeVirtualRoot_eq_ok {virtualRoot normalizedRoot : Text}
    (accepted : normalizeVirtualRoot virtualRoot = .ok normalizedRoot) :
    ∃ segments, (∀ part ∈ segments, IsProper part) ∧ segments ≠ [] ∧
      normalizedRoot = 47 :: join 47 segments := by
  unfold normalizeVirtualRoot at accepted
  dsimp only at accepted
  split_ifs at accepted with relative foreign host root
  · exact absurd (.inl root) host
  · obtain ⟨segments, proper, isRoot, found⟩ := normalizePosixPath_location relative
    have some' : segments ≠ [] := fun none => root (isRoot none)
    exact ⟨segments, proper, some', (Except.ok.inj accepted).symm.trans (found some')⟩

/-- A path that is let through stays within the root. -/
theorem assertPathWithinVirtualRoot_eq_ok {path virtualRoot name accepted : Text}
    (within : assertPathWithinVirtualRoot path virtualRoot name = .ok accepted) :
    ∃ normalizedRoot, normalizeVirtualRoot virtualRoot = .ok normalizedRoot ∧
      IsWithin normalizedRoot accepted := by
  unfold assertPathWithinVirtualRoot at within
  split_ifs at within with relative foreign
  obtain ⟨normalizedRoot, root, checked⟩ := found_of_bind within
  obtain ⟨rootParts, rootProper, someRoot, isRoot⟩ := normalizeVirtualRoot_eq_ok root
  obtain ⟨segments, proper, isTop, found⟩ := normalizePosixPath_location relative
  have components_root := components_location rootProper
  have compared : (if withoutSeparator (normalizePosixPath path) = [] then [47]
      else withoutSeparator (normalizePosixPath path)) = 47 :: join 47 segments := by
    by_cases none : segments = []
    · rw [isTop none, none]
      rfl
    · rw [found none]
      exact if_neg (List.cons_ne_nil _ _)
  dsimp only at checked
  rw [compared] at checked
  split_ifs at checked with inside
  obtain rfl := Except.ok.inj checked
  refine ⟨normalizedRoot, root, ?_⟩
  rcases inside with top | same | ⟨rest, extended⟩
  · rw [← isRoot, top] at components_root
    exact absurd components_root.symm someRoot
  · refine .inl ((found fun none => ?_).trans same)
    rw [← isRoot, ← same, none] at components_root
    exact absurd components_root.symm someRoot
  · have parts := components_location proper
    rw [← extended, List.append_assoc, List.singleton_append, components_append, isRoot,
      components_root] at parts
    have some' : components rest ≠ [] := by
      intro none
      rw [none, List.append_nil] at parts
      rw [← parts, ← isRoot, List.append_assoc] at extended
      exact absurd (List.append_right_eq_self.mp extended) (by simp)
    refine .inr ⟨components rest, some', fun part listed => proper part ?_, ?_⟩
    · rw [← parts]
      exact List.mem_append_right rootParts listed
    · rw [found (fun none => ?_), ← parts, join_append someRoot some', isRoot]
      · rfl
      · rw [none] at parts
        exact some' (List.append_eq_nil_iff.mp parts).2

/-- Normalizing twice is normalizing once and keeps the location; the relative path leads from its
start to its end; paths are resolved to locations; a path that is let through is the root of the
namespace or lies below it. -/
theorem posixPaths_lawful :
    (∀ path, normalizePosixPath (normalizePosixPath path) = normalizePosixPath path ∧
      ∀ base, locate base (normalizePosixPath path) = locate base path) ∧
    (∀ cwd, isAbsolutePosix cwd = true →
      (∀ fromPath toPath, ∃ base path, resolvePosixPath cwd [fromPath] = .ok base ∧
        relativePosixPath cwd fromPath toPath = .ok path ∧
        resolvePosixPath cwd [base, path] = resolvePosixPath cwd [toPath]) ∧
      ∀ paths, ∃ resolved, resolvePosixPath cwd paths = .ok resolved ∧ IsLocation resolved) ∧
    ∀ path virtualRoot name accepted, assertPathWithinVirtualRoot path virtualRoot name =
    .ok accepted →
      ∃ normalizedRoot, normalizeVirtualRoot virtualRoot = .ok normalizedRoot ∧
        IsWithin normalizedRoot accepted := by
  refine ⟨fun path => ⟨normalizePosixPath_idempotent path, fun base =>
    locate_normalizePosixPath base path⟩, fun cwd isAbsolute => ⟨relativePosixPath_leads isAbsolute,
    fun paths => ?_⟩, fun _ _ _ _ => assertPathWithinVirtualRoot_eq_ok⟩
  obtain ⟨resolved, proper⟩ := resolvePosixPath_eq isAbsolute paths
  exact ⟨_, resolved, _, proper, rfl⟩

/-- A working directory in a home, and a path that leaves it and comes back. -/
theorem posixPaths_lawful_home : (∃ base path,
      resolvePosixPath (js "/home/a") [js "b"] = .ok base ∧
      relativePosixPath (js "/home/a") (js "b") (js "../c") = .ok path ∧
      resolvePosixPath (js "/home/a") [base, path] = resolvePosixPath (js "/home/a") [js "../c"]) ∧
    ∃ normalizedRoot, normalizeVirtualRoot (js "/home/") = .ok normalizedRoot ∧
      IsWithin normalizedRoot (js "/home/c/") :=
  ⟨(posixPaths_lawful.2.1 (js "/home/a") (by decide)).1 (js "b") (js "../c"),
    posixPaths_lawful.2.2 (js "/home//a/../c/") (js "/home/") (js "path") _ (by decide +kernel)⟩

/-- Paths that are resolved in turns, each time from where the former ones led, lead to where all of
them lead when they are resolved at once. -/
theorem resolvePosixPath_append (cwd : Text) (earlier later : List Text) :
    (resolvePosixPath cwd earlier >>= fun base => resolvePosixPath base later) =
      resolvePosixPath cwd (earlier ++ later) := by
  by_cases isAbsolute : isAbsolutePosix cwd = true
  · obtain ⟨resolved, proper⟩ := resolvePosixPath_eq isAbsolute earlier
    rw [resolved, (resolvePosixPath_eq isAbsolute (earlier ++ later)).1]
    -- the former paths are resolved to a location, which is where the later ones begin
    simp only [bind, Except.bind]
    rw [(resolvePosixPath_eq rfl later).1, List.reverse_append, List.append_assoc, place,
      List.foldr_append, List.foldr_cons, List.foldr_nil, locate_location proper, place,
      ← List.foldr_append]
    rfl
  · simp [resolvePosixPath, isAbsolute, bind, Except.bind]

end Holonomy.NodeCompat
