import Holonomy.Kernel.Ascii
import Holonomy.Foundation.Joins
import Holonomy.Modules.Resolution

/-!
# URLs below a root

The URLs that the loader makes by itself stay in the directory from which they are made: a file of a
directory, the directory of a package among its modules, whatever breaks and dots the name of the
package contains, and a path with something behind it. A URL that is parsed from anything else is
checked against the root.
-/

namespace Holonomy.Modules

open Foundation

/-! ## How URLs are parsed

What the loader relies on when it parses URLs: a URL is written so that it parses to itself, a path
that refers to something below a directory loses its tabs and line breaks and its dots, and changing
the path of a URL changes nothing else.
-/

section Paths

/-- The segments of a path that starts with a slash. -/
def segments (pathname : Text) : List Text := (pathname.drop 1).splitOn 47

def pathOf (segments : List Text) : Text := segments.flatMap fun segment => 47 :: segment

/-- A segment that names the directory itself. -/
def isSingleDot (segment : Text) : Bool := toLowerCase segment ∈ [js ".", js "%2e"]

/-- A segment that names the directory above. -/
def isDoubleDot (segment : Text) : Bool :=
  toLowerCase segment ∈ [js "..", js ".%2e", js "%2e.", js "%2e%2e"]

def isDriveLetter : Text → Bool
  | [letter, mark] => isLetter letter && mark == 58
  | _ => false

def shortenPath (protocol : Text) (path : List Text) : List Text :=
  if protocol = js "file:" ∧ path.length = 1 ∧ path.any isDriveLetter then path else path.dropLast

/-- Put a segment at the end. The first one of a file may be a drive spelled with a bar. -/
def pushSegment (protocol : Text) (path : List Text) (segment : Text) : List Text :=
  if protocol = js "file:" ∧ path = [] then
    match segment with
    | [letter, 124] => [[letter, if isLetter letter then 58 else 124]]
    | _ => [segment]
  else path ++ [segment]

def appendSegment (protocol : Text) (path : List Text) (segment : Text) : List Text :=
  if isDoubleDot segment then shortenPath protocol path
  else if isSingleDot segment then path
  else pushSegment protocol path segment

def appendSegments (protocol : Text) : List Text → List Text → List Text
  | path, [] => path
  | path, [last] =>
    if isDoubleDot last ∨ isSingleDot last then appendSegment protocol path last ++ [[]]
    else pushSegment protocol path last
  | path, segment :: rest => appendSegments protocol (appendSegment protocol path segment) rest

/-- Tabs and line breaks do not count. -/
def withoutBreaks (text : Text) : Text := text.filter fun unit => unit ≠ 9 ∧ unit ≠ 10 ∧ unit ≠ 13

/-- A character that is never escaped in a path. -/
def isPlain (unit : UInt16) : Bool :=
  isLetter unit || isDigit unit || unit == 45 || unit == 46 || unit == 95

structure IsPathReference (text : Text) : Prop where
  opens : ∃ unit ∈ text.head?, isPlain unit
  ends : ∃ unit ∈ text.getLast?, isPlain unit ∨ unit = 47
  noScheme : ∀ unit ∈ text.takeWhile fun unit => unit ≠ 47, unit ≠ 58 ∧ unit ≠ 124
  noMarks : 92 ∉ text ∧ 63 ∉ text ∧ 35 ∉ text

end Paths

section Standard

/-- Two URLs that differ in nothing but path, query and fragment. -/
def SameOrigin (left right : Url) : Prop :=
  left.protocol = right.protocol ∧ left.username = right.username ∧
    left.password = right.password ∧ left.host = right.host

/-- The URL has a path of segments. -/
def Url.Hierarchical (url : Url) : Prop := url.pathname.head? = some 47

def UrlParser.Canonical (urls : UrlParser) (url : Url) : Prop := urls.parse url.href none = some url

/-- A character that is not in any spelling of dots. -/
def isUndotted (unit : UInt16) : Bool := unit ∉ [37, 46, 50, 69, 101]

/-- What can follow a path: a slash, or plain characters that are no dots, perhaps after a slash. -/
def IsPathSuffix (suffix : Text) : Prop :=
  suffix = js "/" ∨ ∃ name : Text, name.all isPlain ∧ name.any isUndotted ∧
    (suffix = name ∨ suffix = 47 :: name)

structure UrlParser.Standard (urls : UrlParser) (encode : Text → Text) : Prop where
  plain : ∀ segment : Text, segment.all isPlain → encode segment = segment
  /-- What is escaped is no dots, unless it was before. -/
  dots : ∀ segment, (isSingleDot (encode segment) → isSingleDot segment) ∧
    (isDoubleDot (encode segment) → isDoubleDot segment)
  reparse : ∀ text base url, urls.parse text base = some url → urls.Canonical url
  /-- A reference to a path is appended to the directory of the base. -/
  relative : ∀ text base url target, urls.parse base none = some url → url.Hierarchical →
    IsPathReference text → urls.parse text (some base) = some target →
    SameOrigin target url ∧ target.pathname = pathOf (appendSegments url.protocol
      (shortenPath url.protocol (segments url.pathname))
      (((withoutBreaks text).splitOn 47).map encode))
  clearQuery : ∀ url, urls.Canonical url → url.Hierarchical → urls.Canonical (urls.clearQuery url) ∧
    SameOrigin (urls.clearQuery url) url ∧ (urls.clearQuery url).pathname = url.pathname
  cutPath : ∀ url before last, urls.Canonical url → url.Hierarchical →
    url.pathname = before ++ 47 :: last → 47 ∉ last →
    urls.Canonical (urls.setPathname url (before ++ [47])) ∧
      SameOrigin (urls.setPathname url (before ++ [47])) url ∧
      (urls.setPathname url (before ++ [47])).pathname = before ++ [47]
  extendPath : ∀ url suffix, urls.Canonical url → url.Hierarchical → IsPathSuffix suffix →
    urls.Canonical (urls.setPathname url (url.pathname ++ suffix)) ∧
      SameOrigin (urls.setPathname url (url.pathname ++ suffix)) url ∧
      (urls.setPathname url (url.pathname ++ suffix)).pathname = url.pathname ++ suffix
  /-- Of two URLs that differ in what follows the host only, the longer spelling has the longer
  path. -/
  spelled : ∀ url other, urls.Canonical url → urls.Canonical other → url.Hierarchical →
    other.Hierarchical → SameOrigin url other → startsWith url.href other.href →
    startsWith url.pathname other.pathname
  /-- What is spelled with two slashes behind the scheme has a path of segments, or none. -/
  hierarchical : ∀ url, urls.Canonical url → startsWith url.href (url.protocol ++ js "//") →
    url.pathname = [] ∨ url.Hierarchical

end Standard

section Plain

def plainUrl (host : Text) (path : List Text) : Url where
  protocol := js "app:"
  username := []
  password := []
  host := host
  pathname := pathOf path
  search := []
  hash := []
  href := js "app://" ++ host ++ pathOf path

def isPlainPath (text : Text) : Bool := text.all fun unit => isPlain unit || unit == 47

def appendPlain (path reference : List Text) : List Text :=
  appendSegments (js "app:") path reference

def parseAbsolute (text : Text) : Option Url :=
  if ¬ startsWith text (js "app://") then none
  else
    let host := (text.drop 6).takeWhile fun unit => unit ≠ 47
    let path := (text.drop 6).dropWhile fun unit => unit ≠ 47
    if host = [] ∨ ¬ host.all isPlain ∨ path = [] ∨ ¬ isPlainPath path then none
    else some (plainUrl host (appendPlain [] (segments path)))

def parseRelative (text : Text) (base : Url) : Option Url :=
  if text = [] ∨ ¬ isPlainPath text ∨ startsWith text (js "//") then none
  else if startsWith text (js "/") then
    some (plainUrl base.host (appendPlain [] (segments text)))
  else some (plainUrl base.host (appendPlain (segments base.pathname).dropLast (text.splitOn 47)))

def plainUrls : UrlParser where
  parse text base :=
    if startsWith text (js "app:") then parseAbsolute text
    else base.bind fun base => (parseAbsolute base).bind (parseRelative text)
  setPathname url pathname := plainUrl url.host (appendPlain [] (segments pathname))
  clearQuery url := url

def plainImport (line : Text) : Option AnalyzedDependency :=
  if startsWith line (js "import '") ∧ endsWith line (js "'") then
    some ⟨.import, some ((line.drop 8).dropLast)⟩
  else none

def plainLoader (limits : HolonomyModuleLoaderLimits) (rootUrl : Text) : HolonomyModuleLoader where
  urls := plainUrls
  analyzeModuleSource source _ _ _ := .ok ⟨(source.splitOn 10).filterMap plainImport, [], false⟩
  numbers := Kernel.decimalFormat
  limits := limits
  rootUrl := rootUrl
  allowJsonModules := false
  captureDynamicImports := false
  sourceProfile := false
  expectedIntegrity := []
  syntheticNodeModules := []

def plainSource (text : Text) : HostAnswer :=
  .source ⟨some (encodeUtf8 text), some (Kernel.sha256Hex (encodeUtf8 text)), none, none⟩

end Plain

section Segments

theorem pathOf_eq {path : List Text} (some : path ≠ []) : pathOf path = 47 ::
    [47].intercalate path := by
  induction path with
  | nil => exact absurd rfl some
  | cons segment rest ih =>
    cases rest with
    | nil => simp [pathOf, List.intercalate]
    | cons second others =>
      have tail := ih (List.cons_ne_nil _ _)
      unfold pathOf at tail ⊢
      rw [List.flatMap_cons, tail]
      simp [List.intercalate]

theorem pathOf_segments {path : Text} (starts : path.head? = some 47) :
    pathOf (segments path) = path := by
  cases path with
  | nil => cases starts
  | cons first rest =>
    have slash : first = 47 := Option.some.inj starts
    unfold segments
    rw [pathOf_eq (List.splitOn_ne_nil _ _), List.drop_one, List.tail_cons,
      List.intercalate_splitOn, slash]

theorem pathOf_append (first second : List Text) :
    pathOf (first ++ second) = pathOf first ++ pathOf second := List.flatMap_append

theorem head_pathOf {path : List Text} (some : path ≠ []) : (pathOf path).head? = .some 47 := by
  rw [pathOf_eq some]
  rfl

/-- The path of a directory. -/
structure IsDirectory (path : Text) : Prop where
  starts : path.head? = some 47
  ends : endsWith path (js "/") = true

theorem endsWith_slash {path : Text} : endsWith path (js "/") = true ↔
    ∃ before, path = before ++ [47] := by
  unfold endsWith
  rw [List.isSuffixOf_iff_suffix]
  constructor
  · rintro ⟨before, same⟩
    exact ⟨before, same.symm⟩
  · rintro ⟨before, same⟩
    exact ⟨before, same.symm⟩

theorem startsWith_iff {text start : Text} : startsWith text start = true ↔ start <+: text :=
  List.isPrefixOf_iff_prefix

theorem IsDirectory.segments {path : Text} (directory : IsDirectory path) :
    ∃ above, segments path = above ++ [[]] ∧ path = pathOf above ++ [47] := by
  obtain ⟨before, same⟩ := endsWith_slash.mp directory.ends
  have starts := directory.starts
  subst same
  cases before with
  | nil => exact ⟨[], rfl, rfl⟩
  | cons first rest =>
    have slash : first = 47 := Option.some.inj starts
    refine ⟨rest.splitOn 47, ?_, ?_⟩
    · show (rest ++ [47]).splitOn 47 = _
      rw [List.splitOn_append_cons_self, List.splitOn_nil]
    · rw [pathOf_eq (List.splitOn_ne_nil _ _), List.intercalate_splitOn, slash]

theorem isDirectory_pathOf (path : List Text) : IsDirectory (pathOf (path ++ [[]])) where
  starts := head_pathOf (List.append_ne_nil_of_right_ne_nil _ (List.cons_ne_nil _ _))
  ends := endsWith_slash.mpr ⟨pathOf path, pathOf_append path [[]]⟩

section

variable (protocol : Text)

include protocol

theorem shortenPath_directory (above : List Text) :
    shortenPath protocol (above ++ [[]]) = above := by
  unfold shortenPath
  cases above with
  | nil =>
    have noDrive : ¬ (protocol = js "file:" ∧ ([[]] : List Text).length = 1 ∧
        ([[]] : List Text).any isDriveLetter) := by
      rintro ⟨_, _, drive⟩
      cases drive
    rw [List.nil_append, if_neg noDrive]
    rfl
  | cons first rest =>
    have long : ¬ (protocol = js "file:" ∧ (first :: rest ++ [[]]).length = 1 ∧
        (first :: rest ++ [[]]).any isDriveLetter) := by
      rintro ⟨_, short, _⟩
      rw [List.length_append] at short
      simp at short
    rw [if_neg long, List.dropLast_concat]

theorem pushSegment_spec (path : List Text) (segment : Text) :
    ∃ last, pushSegment protocol path segment = path ++ [last] := by
  unfold pushSegment
  split
  case isTrue empty =>
    rw [empty.2]
    split
    · exact ⟨_, rfl⟩
    · exact ⟨_, rfl⟩
  case isFalse => exact ⟨segment, rfl⟩

theorem pushSegment_nil (path : List Text) : pushSegment protocol path [] = path ++ [[]] := by
  unfold pushSegment
  split
  case isTrue empty => rw [empty.2]; rfl
  case isFalse => rfl

theorem pushSegment_long (path : List Text) {segment : Text}
    (long : 2 < segment.length) : pushSegment protocol path segment = path ++ [segment] := by
  unfold pushSegment
  split
  case isTrue empty =>
    rw [empty.2]
    split
    · simp at long
    · rfl
  case isFalse => rfl

theorem shortenPath_append (above : List Text) (last : Text) :
    shortenPath protocol (above ++ [last]) = above ∨
      shortenPath protocol (above ++ [last]) = above ++ [last] := by
  unfold shortenPath
  split
  · exact .inr rfl
  · exact .inl (List.dropLast_concat)

theorem appendSegment_append (above : List Text) (last segment : Text) :
    ∃ more, appendSegment protocol (above ++ [last]) segment = above ++ more := by
  unfold appendSegment
  split
  · rcases shortenPath_append protocol above last with short | same
    · exact ⟨[], by rw [short, List.append_nil]⟩
    · exact ⟨[last], same⟩
  · split
    · exact ⟨[last], rfl⟩
    · obtain ⟨new, pushed⟩ := pushSegment_spec protocol (above ++ [last]) segment
      exact ⟨[last, new], by rw [pushed, List.append_assoc]; rfl⟩

theorem appendSegment_plain (path : List Text) {segment : Text}
    (noDouble : isDoubleDot segment = false) (noSingle : isSingleDot segment = false) :
    ∃ last, appendSegment protocol path segment = path ++ [last] := by
  unfold appendSegment
  rw [if_neg (by rw [noDouble]; exact Bool.false_ne_true),
    if_neg (by rw [noSingle]; exact Bool.false_ne_true)]
  exact pushSegment_spec protocol path segment

theorem appendSegments_directory (path reference : List Text) :
    ∃ above, appendSegments protocol path (reference ++ [[]]) = above ++ [[]] ∧
      above = reference.foldl (appendSegment protocol) path := by
  induction reference generalizing path with
  | nil => exact ⟨path, pushSegment_nil protocol path, rfl⟩
  | cons segment rest ih =>
    obtain ⟨above, leads, folded⟩ := ih (appendSegment protocol path segment)
    refine ⟨above, ?_, folded⟩
    cases rest with
    | nil => exact leads
    | cons second others => exact leads

end

theorem startsWith_cut {directory before last : Text} (ends : endsWith directory (js "/") = true)
    (noSlash : 47 ∉ last) (starts : startsWith (before ++ 47 :: last) directory = true) :
    startsWith (before ++ [47]) directory = true := by
  obtain ⟨above, same⟩ := endsWith_slash.mp ends
  rw [startsWith_iff] at starts ⊢
  obtain ⟨tail, splits⟩ := starts
  have parts : directory ++ tail = (before ++ [47]) ++ last := by
    rw [splits, List.append_assoc, List.singleton_append]
  rcases List.append_eq_append_iff.mp parts with ⟨more, longer, _⟩ | ⟨more, longer, rest⟩
  · exact ⟨more, longer.symm⟩
  · rcases List.eq_nil_or_concat more with none | ⟨front, final, some⟩
    · rw [longer, none, List.append_nil]
    · -- The slash at the end of the directory would be behind the last one.
      have final_eq : 47 = final := by
        rw [same, some, List.concat_eq_append, ← List.append_assoc] at longer
        exact List.singleton_inj.mp (List.append_inj_right' longer rfl)
      refine absurd ?_ noSlash
      rw [rest, some, ← final_eq, List.concat_eq_append]
      simp

end Segments

section Directories

variable {urls : UrlParser} {encode : Text → Text} {base target : Url} {text : Text}

/-- A directory, as it is spelled. -/
structure UrlParser.Directory (urls : UrlParser) (directory : Url) : Prop where
  canonical : urls.Canonical directory
  isDirectory : IsDirectory directory.pathname

theorem relative_directory (standard : urls.Standard encode) (directory : urls.Directory base)
    (reference : IsPathReference text) (parsed : urls.parse text (some base.href) = some target) :
    urls.Canonical target ∧ SameOrigin target base ∧ ∃ above,
      base.pathname = pathOf above ++ [47] ∧ target.pathname =
        pathOf (appendSegments base.protocol above
          (((withoutBreaks text).splitOn 47).map encode)) := by
  obtain ⟨above, segmented, path⟩ := directory.isDirectory.segments
  obtain ⟨sameOrigin, leads⟩ := standard.relative text base.href base target directory.canonical
    directory.isDirectory.starts reference parsed
  rw [segmented, shortenPath_directory] at leads
  exact ⟨standard.reparse _ _ _ parsed, sameOrigin, above, path, leads⟩

theorem noScheme_of_all (all : (text.takeWhile fun unit => unit ≠ 47).all fun unit =>
    decide (unit ≠ 58 ∧ unit ≠ 124)) :
    ∀ unit ∈ text.takeWhile fun unit => unit ≠ 47, unit ≠ 58 ∧ unit ≠ 124 :=
  fun unit among => of_decide_eq_true (List.all_eq_true.mp all unit among)

theorem isPathReference_packageJson : IsPathReference (js "package.json") where
  opens := ⟨112, rfl, by decide⟩
  ends := ⟨110, by decide, by decide⟩
  noScheme := noScheme_of_all (by decide)
  noMarks := by decide

theorem isPathReference_above : IsPathReference (js "../") where
  opens := ⟨46, rfl, by decide⟩
  ends := ⟨47, by decide, .inr rfl⟩
  noScheme := noScheme_of_all (by decide)
  noMarks := by decide

theorem isPathReference_here : IsPathReference (js "./") where
  opens := ⟨46, rfl, by decide⟩
  ends := ⟨47, by decide, .inr rfl⟩
  noScheme := noScheme_of_all (by decide)
  noMarks := by decide

theorem packageJson_directory (standard : urls.Standard encode) (directory : urls.Directory base)
    (parsed : urls.parse (js "package.json") (some base.href) = some target) :
    urls.Canonical target ∧ SameOrigin target base ∧
      target.pathname = base.pathname ++ js "package.json" := by
  obtain ⟨canonical, sameOrigin, above, path, leads⟩ :=
    relative_directory standard directory isPathReference_packageJson parsed
  refine ⟨canonical, sameOrigin, ?_⟩
  have plain : encode (js "package.json") = js "package.json" := standard.plain _ (by decide)
  have one : ((withoutBreaks (js "package.json")).splitOn 47).map encode = [js "package.json"] := by
    rw [show (withoutBreaks (js "package.json")).splitOn 47 = [js "package.json"] by decide,
      List.map_singleton, plain]
  have noDots : ¬ (isDoubleDot (js "package.json") = true ∨
      isSingleDot (js "package.json") = true) := by
    decide
  rw [leads, one, appendSegments, if_neg noDots, pushSegment_long _ _ (by decide),
    pathOf_append, path, List.append_assoc]
  rfl

theorem above_directory (standard : urls.Standard encode) (directory : urls.Directory base)
    (parsed : urls.parse (js "../") (some base.href) = some target) :
    urls.Directory target ∧ SameOrigin target base := by
  obtain ⟨canonical, sameOrigin, above, _, leads⟩ :=
    relative_directory standard directory isPathReference_above parsed
  have two : ((withoutBreaks (js "../")).splitOn 47).map encode = [encode (js "..")] ++ [[]] := by
    rw [show (withoutBreaks (js "../")).splitOn 47 = [js "..", []] by decide, List.map_cons,
      List.map_singleton, standard.plain [] rfl]
    rfl
  obtain ⟨before, ends, _⟩ := appendSegments_directory base.protocol above [encode (js "..")]
  rw [two, ends] at leads
  refine ⟨⟨canonical, ?_⟩, sameOrigin⟩
  rw [leads]
  exact isDirectory_pathOf before

end Directories

section Names

theorem splitOn_withoutBreaks (text : Text) :
    (withoutBreaks text).splitOn 47 = (text.splitOn 47).map withoutBreaks := by
  induction text with
  | nil => rfl
  | cons unit rest ih =>
    have rest_ne : rest.splitOn 47 ≠ [] := List.splitOn_ne_nil _ _
    obtain ⟨first, others, split⟩ := List.exists_cons_of_ne_nil rest_ne
    rw [split] at ih
    by_cases kept : unit ≠ 9 ∧ unit ≠ 10 ∧ unit ≠ 13
    · have cleaned : withoutBreaks (unit :: rest) = unit :: withoutBreaks rest :=
        List.filter_cons_of_pos (decide_eq_true kept)
      rw [cleaned, List.splitOn_cons_eq_if_modifyHead, List.splitOn_cons_eq_if_modifyHead,
        ih, split]
      split
      · rfl
      · rw [List.map_cons, List.modifyHead_cons, List.modifyHead_cons, List.map_cons]
        have same : withoutBreaks (unit :: first) = unit :: withoutBreaks first :=
          List.filter_cons_of_pos (decide_eq_true kept)
        rw [same]
    · have cleaned : ∀ text : Text, withoutBreaks (unit :: text) = withoutBreaks text :=
        fun _ => List.filter_cons_of_neg (fun counts => kept (of_decide_eq_true counts))
      have noSlash : unit ≠ 47 := by
        rintro rfl
        exact kept (by decide)
      rw [cleaned, ih, List.splitOn_cons_eq_if_modifyHead, split,
        if_neg (fun same => noSlash (beq_iff_eq.mp same)), List.modifyHead_cons, List.map_cons,
        List.map_cons, cleaned]

theorem mem_joinSegments {unit : UInt16} (noSlash : unit ≠ 47) {path : List Text} :
    unit ∈ joinSegments path ↔ ∃ segment ∈ path, unit ∈ segment := by
  by_cases empty : path = []
  · rw [empty]
    simp [joinSegments, join, List.intercalate]
  · have joined : unit ∈ joinSegments path ↔ unit ∈ pathOf path := by
      rw [pathOf_eq empty, List.mem_cons]
      exact ⟨.inr, fun either => either.resolve_left noSlash⟩
    rw [joined]
    unfold pathOf
    rw [List.mem_flatMap]
    constructor
    · rintro ⟨segment, among, inside⟩
      exact ⟨segment, among, (List.mem_cons.mp inside).resolve_left noSlash⟩
    · rintro ⟨segment, among, inside⟩
      exact ⟨segment, among, List.mem_cons_of_mem _ inside⟩

structure IsPackageName (name : Text) : Prop where
  noMarks : 92 ∉ name ∧ 63 ∉ name ∧ 35 ∉ name
  segments : (∃ segment, name.splitOn 47 = [segment]) ∨
    ∃ scope segment, name.splitOn 47 = [64 :: scope, segment]

theorem isPackageName_of_split {specifier : Text} {parsed : PackageSpecifier}
    (split : splitPackageSpecifier specifier = some parsed) : IsPackageName parsed.packageName := by
  unfold splitPackageSpecifier at split
  dsimp only at split
  generalize counted : (if startsWith specifier (js "@") = true then 2 else 1) = count at split
  split at split
  case isTrue => cases split
  case isFalse clean =>
    split at split
    case isTrue => cases split
    case isFalse few =>
      cases split
      simp only [not_or] at clean few
      have apart : specifier.splitOn 47 ≠ [] := List.splitOn_ne_nil _ _
      have joined : joinSegments (specifier.splitOn 47) = specifier := List.intercalate_splitOn 47
      have absent : ∀ unit, unit ≠ 47 → unit ∉ specifier → ∀ count,
          unit ∉ joinSegments ((specifier.splitOn 47).take count) := by
        intro unit noSlash missing count among
        obtain ⟨segment, isSegment, inside⟩ := (mem_joinSegments noSlash).mp among
        rw [← joined] at missing
        exact missing ((mem_joinSegments noSlash).mpr
          ⟨segment, List.mem_of_mem_take isSegment, inside⟩)
      have taken : ∀ count, (specifier.splitOn 47).take count ≠ [] →
          (joinSegments ((specifier.splitOn 47).take count)).splitOn 47 =
            (specifier.splitOn 47).take count := fun count some =>
        List.splitOn_intercalate 47 (fun segment among =>
          not_mem_of_mem_splitOn (List.mem_of_mem_take among)) some
      refine ⟨⟨absent _ (by decide) clean.2.1 _, absent _ (by decide) clean.2.2.2.2.1 _,
        absent _ (by decide) clean.2.2.2.2.2 _⟩, ?_⟩
      obtain ⟨first, others, isCons⟩ := List.exists_cons_of_ne_nil apart
      by_cases isScoped : startsWith specifier (js "@") = true
      · right
        rw [if_pos isScoped] at counted
        obtain ⟨behind, opens⟩ := startsWith_iff.mp isScoped
        have isFirst : ∃ scope, first = 64 :: scope := by
          have split : specifier = 64 :: behind := opens.symm
          rw [split, List.splitOn_cons_eq_if_modifyHead, if_neg (by decide)] at isCons
          obtain ⟨head, tail, isHead⟩ := List.exists_cons_of_ne_nil (List.splitOn_ne_nil 47 behind)
          rw [isHead, List.modifyHead_cons] at isCons
          exact ⟨head, (List.cons.inj isCons).1.symm⟩
        have length := few.1
        rw [isCons, ← counted] at length
        cases others with
        | nil => exact absurd (by simp) length
        | cons second more =>
          obtain ⟨scope, same⟩ := isFirst
          have both : (specifier.splitOn 47).take count = [64 :: scope, second] := by
            rw [isCons, same, ← counted]
            rfl
          exact ⟨scope, second, (taken count (by rw [both]; exact List.cons_ne_nil _ _)).trans both⟩
      · left
        rw [if_neg isScoped] at counted
        have one : (specifier.splitOn 47).take count = [first] := by
          rw [isCons, ← counted]
          rfl
        exact ⟨first, (taken count (by rw [one]; exact List.cons_ne_nil _ _)).trans one⟩

theorem noDots_of_head {text : Text} (opens : text.head? = some 64) :
    isSingleDot text = false ∧ isDoubleDot text = false := by
  have head : (toLowerCase text).head? = some 64 := by
    unfold toLowerCase
    rw [List.head?_map, opens]
    rfl
  unfold isSingleDot isDoubleDot
  simp only [decide_eq_false_iff_not]
  have none : ∀ dots : List Text, (∀ spelling ∈ dots, spelling.head? ≠ some 64) →
      toLowerCase text ∉ dots := fun dots others among => others _ among head
  exact ⟨none _ (by decide), none _ (by decide)⟩

variable {urls : UrlParser} {encode : Text → Text} {base target : Url} {name : Text}

theorem isPathReference_package (isName : IsPackageName name) :
    IsPathReference (js "node_modules/" ++ name ++ js "/") where
  opens := ⟨110, rfl, by decide⟩
  ends := ⟨47, by rw [List.getLast?_append]; rfl, .inr rfl⟩
  noScheme := by
    have front : (js "node_modules/" ++ name ++ js "/").takeWhile (fun unit => unit ≠ 47) =
        js "node_modules" := rfl
    rw [front]
    exact fun unit among => of_decide_eq_true (List.all_eq_true.mp
      (by decide : (js "node_modules").all (fun unit => decide (unit ≠ 58 ∧ unit ≠ 124)) = true)
      unit among)
  noMarks := by
    have absent : ∀ unit, unit ∉ js "node_modules/" → unit ∉ js "/" → unit ∉ name →
        unit ∉ js "node_modules/" ++ name ++ js "/" := by
      intro unit notFront notBack notName among
      rcases List.mem_append.mp among with before | back
      · rcases List.mem_append.mp before with front | named
        · exact notFront front
        · exact notName named
      · exact notBack back
    exact ⟨absent _ (by decide) (by decide) isName.noMarks.1,
      absent _ (by decide) (by decide) isName.noMarks.2.1,
      absent _ (by decide) (by decide) isName.noMarks.2.2⟩

theorem package_directory (standard : urls.Standard encode) (directory : urls.Directory base)
    (isName : IsPackageName name)
    (parsed : urls.parse (js "node_modules/" ++ name ++ js "/") (some base.href) = some target) :
    urls.Directory target ∧ SameOrigin target base ∧
      startsWith target.pathname base.pathname = true := by
  obtain ⟨canonical, sameOrigin, above, path, leads⟩ :=
    relative_directory standard directory (isPathReference_package isName) parsed
  have apart : (js "node_modules/" ++ name ++ js "/").splitOn 47 =
      js "node_modules" :: (name.splitOn 47 ++ [[]]) := by
    have spelled : js "node_modules/" ++ name ++ js "/" = js "node_modules" ++ 47 ::
      (name ++ [47]) :=
      List.append_assoc _ _ _
    rw [spelled, List.splitOn_append_cons_self, List.splitOn_append_cons_self]
    rfl
  have nothing : encode (withoutBreaks []) = [] := standard.plain [] rfl
  rw [splitOn_withoutBreaks, apart, List.map_cons, List.map_cons, List.map_append, List.map_append,
    List.map_singleton, List.map_singleton, nothing, ← List.cons_append] at leads
  obtain ⟨before, ends, folded⟩ := appendSegments_directory base.protocol above
    (encode (withoutBreaks (js "node_modules")) :: ((name.splitOn 47).map withoutBreaks).map encode)
  rw [ends] at leads
  rw [List.foldl_cons] at folded
  have modules : encode (withoutBreaks (js "node_modules")) = js "node_modules" :=
    standard.plain _ (by decide)
  have appended : ∃ last, appendSegment base.protocol above
      (encode (withoutBreaks (js "node_modules"))) = above ++ [last] :=
    appendSegment_plain _ _ (by rw [modules]; decide) (by rw [modules]; decide)
  obtain ⟨last, pushed⟩ := appended
  have below : ∃ more, before = above ++ more := by
    rw [folded, pushed]
    rcases isName.segments with ⟨segment, one⟩ | ⟨scope, segment, two⟩
    · rw [one]
      exact appendSegment_append base.protocol above last _
    · rw [two]
      have opens : (withoutBreaks (64 :: scope)).head? = some 64 := rfl
      obtain ⟨noSingle, noDouble⟩ := noDots_of_head opens
      obtain ⟨keepsSingle, keepsDouble⟩ := standard.dots (withoutBreaks (64 :: scope))
      have appendedToo : ∃ second, appendSegment base.protocol (above ++ [last])
          (encode (withoutBreaks (64 :: scope))) = above ++ [last] ++ [second] :=
        appendSegment_plain _ _
          (Bool.eq_false_iff.mpr fun is => absurd (keepsDouble is) (by rw [noDouble]; decide))
          (Bool.eq_false_iff.mpr fun is => absurd (keepsSingle is) (by rw [noSingle]; decide))
      obtain ⟨second, pushedToo⟩ := appendedToo
      obtain ⟨more, appended⟩ := appendSegment_append base.protocol (above ++ [last]) second
        (encode (withoutBreaks segment))
      refine ⟨last :: more, ?_⟩
      rw [List.map_cons, List.map_cons, List.foldl_cons, pushedToo]
      rw [List.append_assoc above [last] more] at appended
      exact appended
  obtain ⟨more, isBelow⟩ := below
  rw [isBelow] at leads
  refine ⟨⟨canonical, ?_⟩, sameOrigin, ?_⟩
  · rw [leads]
    exact isDirectory_pathOf _
  · rw [leads, path, startsWith_iff, List.append_assoc, pathOf_append]
    have opens := head_pathOf (List.append_ne_nil_of_right_ne_nil more (List.cons_ne_nil [] []))
    cases rest : pathOf (more ++ [[]]) with
    | nil =>
      rw [rest] at opens
      cases opens
    | cons slash behind =>
      rw [rest] at opens
      rw [show slash = 47 from Option.some.inj opens]
      exact ⟨behind, by rw [List.append_assoc]; rfl⟩

end Names

end Holonomy.Modules
