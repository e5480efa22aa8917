import Holonomy.Foundation.Fallible
import Holonomy.Modules.Rollback
import Holonomy.Modules.Charges

/-!
# What the host is asked to read

Whatever the host has answered before, and whatever is written in the sources, the loader asks for
URLs below its root only: URLs that were resolved, read or loaded are below the root, and every
other URL that is asked for is made from one of them. What a package names is below the root of that
package, until the host names another canonical URL for it.
-/

namespace Holonomy.Modules

open Foundation Asking HolonomyModuleLoader

/-! ## What the host is asked to read

Whatever the host has answered before, and whatever is written in the sources, the loader asks for
URLs below its root only.
-/

section Below

def UrlParser.Below (urls : UrlParser) (root : Url) (text : Text) : Prop :=
  ∃ url, urls.parse text none = some url ∧ url.href = text ∧ Inside root url

structure IsRoot (loader : HolonomyModuleLoader) (root : Url) : Prop extends
    loader.urls.Directory root where
  parsed : loader.urls.parse loader.rootUrl none = some root

variable {loader : HolonomyModuleLoader} {encode : Text → Text} {root url other : Url}

theorem inside_of_sameOrigin (inside : Inside root url) (same : SameOrigin other url)
    (starts : startsWith other.pathname root.pathname = true) : Inside root other :=
  ⟨same.1.trans inside.1, same.2.1.trans inside.2.1, same.2.2.1.trans inside.2.2.1,
    same.2.2.2.trans inside.2.2.2.1, starts⟩

theorem sameOrigin_of_inside (inside : Inside root url) (also : Inside root other) :
    SameOrigin url other :=
  ⟨inside.1.trans also.1.symm, inside.2.1.trans also.2.1.symm,
    inside.2.2.1.trans also.2.2.1.symm, inside.2.2.2.1.trans also.2.2.2.1.symm⟩

theorem startsWith_trans {first second third : Text} (left : startsWith first second = true)
    (right : startsWith second third = true) : startsWith first third = true :=
  startsWith_iff.mpr ((startsWith_iff.mp right).trans (startsWith_iff.mp left))

theorem hierarchical_of_inside (inside : Inside root url) (directory : root.Hierarchical) :
    url.Hierarchical := by
  obtain ⟨behind, same⟩ := startsWith_iff.mp inside.2.2.2.2
  unfold Url.Hierarchical at directory ⊢
  rw [← same, List.head?_append, directory]
  rfl

theorem below_of_canonical (canonical : loader.urls.Canonical url) (inside : Inside root url) :
    loader.urls.Below root url.href :=
  ⟨url, canonical, rfl, inside⟩

theorem isRoot_of_normalizeRootUrl (standard : loader.urls.Standard encode) {value : Text}
    (constructed : normalizeRootUrl loader.urls value = .ok loader.rootUrl) :
    ∃ root, IsRoot loader root := by
  unfold normalizeRootUrl at constructed
  split at constructed
  case h_1 => cases constructed
  case h_2 parsed found =>
    split at constructed
    case isTrue => cases constructed
    case isFalse accepted =>
      split at constructed
      case isTrue => cases constructed
      case isFalse =>
        simp only [not_or, not_not] at accepted
        have canonical := standard.reparse _ _ _ found
        have hierarchical : parsed.Hierarchical :=
          (standard.hierarchical parsed canonical accepted.2.2.2).resolve_left accepted.2.2.1
        dsimp only at constructed
        obtain ⟨_, _, same⟩ := found_of_bind constructed
        by_cases ends : endsWith parsed.pathname (js "/") = true
        · rw [if_pos ends] at same
          exact ⟨parsed, ⟨canonical, ⟨hierarchical, ends⟩⟩, Except.ok.inj same ▸ canonical⟩
        · rw [if_neg ends] at same
          obtain ⟨extended, _, path⟩ :=
            standard.extendPath parsed (js "/") canonical hierarchical (.inl rfl)
          refine ⟨_, ⟨extended, ?_, ?_⟩, Except.ok.inj same ▸ extended⟩
          · rw [path, List.head?_append, hierarchical]
            rfl
          · rw [path]
            exact endsWith_slash.mpr ⟨_, rfl⟩

theorem newUrl_ok {value : Text} {from_ : Option Text}
    (parsed : loader.newUrl value from_ = .ok url) :
    loader.urls.parse value from_ = some url := by
  unfold newUrl at parsed
  split at parsed
  case h_1 found => rw [found, Except.ok.inj parsed]
  case h_2 => cases parsed

theorem below_of_canonicalizeModuleUrl (standard : loader.urls.Standard encode)
    (isRoot : IsRoot loader root) {value parentUrl result : Text} {allowFragment : Bool}
    (canonical : loader.canonicalizeModuleUrl value parentUrl allowFragment = .ok result) :
    loader.urls.Below root result := by
  unfold canonicalizeModuleUrl at canonical
  split at canonical
  case isTrue => cases canonical
  case isFalse =>
    split at canonical
    case h_1 => cases canonical
    case h_2 url found =>
      split at canonical
      case isTrue => cases canonical
      case isFalse =>
        obtain ⟨_, _, rest⟩ := found_of_bind canonical
        obtain ⟨known, isKnown, checked⟩ := found_of_bind rest
        have same : some known = some root := (newUrl_ok isKnown).symm.trans isRoot.parsed
        rw [Option.some.inj same] at checked
        split at checked
        case isTrue inside =>
          rw [← Except.ok.inj checked]
          exact below_of_canonical (standard.reparse _ _ _ found) inside
        case isFalse => cases checked

theorem cut_spec {path : Text} (among : 47 ∈ path) : ∃ before last,
    path = before ++ 47 :: last ∧ 47 ∉ last ∧
      (path.reverse.dropWhile fun unit => unit ≠ 47).reverse = before ++ [47] := by
  have stops : path.reverse.dropWhile (fun unit => decide (unit ≠ 47)) ≠ [] := by
    intro none
    have all := List.dropWhile_eq_nil_iff.mp none 47 (List.mem_reverse.mpr among)
    exact absurd rfl (of_decide_eq_true all)
  obtain ⟨slash, before, rest⟩ := List.exists_cons_of_ne_nil stops
  have isSlash : slash = 47 := by
    have head := List.head?_dropWhile_not (fun unit : UInt16 => decide (unit ≠ 47)) path.reverse
    rw [rest] at head
    simpa using head
  let last := path.reverse.takeWhile fun unit => decide (unit ≠ 47)
  have parts : last ++ 47 :: before = path.reverse := by
    rw [← isSlash, ← rest]
    exact List.takeWhile_append_dropWhile
  have noSlash : 47 ∉ last := by
    intro inside
    have different := List.mem_takeWhile_imp inside
    exact absurd different (by decide)
  refine ⟨before.reverse, last.reverse, ?_, fun inside => noSlash (List.mem_reverse.mp inside), ?_⟩
  · rw [← List.reverse_reverse path, ← parts, List.reverse_append, List.reverse_cons,
      List.append_assoc, List.singleton_append]
  · rw [rest, isSlash, List.reverse_cons]

theorem directory_toDirectoryUrl (standard : loader.urls.Standard encode)
    (isRoot : IsRoot loader root) (canonical : loader.urls.Canonical url)
    (inside : Inside root url) : loader.urls.Directory (loader.toDirectoryUrl url) ∧
      Inside root (loader.toDirectoryUrl url) := by
  have hierarchical : url.Hierarchical := hierarchical_of_inside inside isRoot.isDirectory.starts
  obtain ⟨cleared, sameOrigin, path⟩ := standard.clearQuery url canonical hierarchical
  have starts : startsWith (loader.urls.clearQuery url).pathname root.pathname = true := by
    rw [path]
    exact inside.2.2.2.2
  have clearedInside := inside_of_sameOrigin inside sameOrigin starts
  have clearedHierarchical := hierarchical_of_inside clearedInside isRoot.isDirectory.starts
  unfold toDirectoryUrl
  dsimp only
  by_cases ends : endsWith (loader.urls.clearQuery url).pathname (js "/") = true
  · rw [if_pos ends]
    exact ⟨⟨cleared, ⟨clearedHierarchical, ends⟩⟩, clearedInside⟩
  · rw [if_neg ends]
    obtain ⟨before, last, splits, noSlash, cuts⟩ :=
      cut_spec (List.mem_of_mem_head? (Option.mem_def.mpr clearedHierarchical))
    rw [cuts]
    obtain ⟨shorter, sameToo, shortPath⟩ :=
      standard.cutPath _ before last cleared clearedHierarchical splits noSlash
    rw [splits] at starts
    have stillStarts := startsWith_cut isRoot.isDirectory.ends noSlash starts
    rw [← shortPath] at stillStarts
    have shortInside := inside_of_sameOrigin clearedInside sameToo stillStarts
    refine ⟨⟨shorter, ⟨hierarchical_of_inside shortInside isRoot.isDirectory.starts, ?_⟩⟩,
      shortInside⟩
    rw [shortPath]
    exact endsWith_slash.mpr ⟨before, rfl⟩

theorem directory_here (standard : loader.urls.Standard encode) (isRoot : IsRoot loader root)
    {text : Text} (below : loader.urls.Below root text)
    (parsed : loader.urls.parse (js "./") (some text) = some other) :
    loader.urls.Directory other ∧ Inside root other := by
  obtain ⟨url, found, _, inside⟩ := below
  have hierarchical := hierarchical_of_inside inside isRoot.isDirectory.starts
  obtain ⟨sameOrigin, leads⟩ := standard.relative (js "./") text url other found hierarchical
    isPathReference_here parsed
  have two : ((withoutBreaks (js "./")).splitOn 47).map encode = [js "."] ++ [[]] := by
    rw [show (withoutBreaks (js "./")).splitOn 47 = [js ".", []] by decide, List.map_cons,
      List.map_singleton, standard.plain [] rfl, standard.plain (js ".") (by decide)]
    rfl
  obtain ⟨above, ends, folded⟩ := appendSegments_directory url.protocol
    (shortenPath url.protocol (segments url.pathname)) [js "."]
  have stays : above = shortenPath url.protocol (segments url.pathname) := by
    rw [folded, List.foldl_cons, List.foldl_nil]
    unfold appendSegment
    rw [if_neg (by decide), if_pos (by decide)]
  rw [two, ends, stays] at leads
  have apart : segments url.pathname ≠ [] := List.splitOn_ne_nil _ _
  obtain ⟨front, last, isLast⟩ := (List.eq_nil_or_concat (segments url.pathname)).resolve_left apart
  rw [List.concat_eq_append] at isLast
  have path : url.pathname = pathOf front ++ 47 :: last := by
    rw [← pathOf_segments hierarchical, isLast, pathOf_append]
    simp [pathOf]
  have noSlash : 47 ∉ last := not_mem_of_mem_splitOn (by
    show last ∈ segments url.pathname
    rw [isLast]
    exact List.mem_append_right _ (List.mem_singleton.mpr rfl))
  have starts := inside.2.2.2.2
  refine ⟨⟨standard.reparse _ _ _ parsed, ?_⟩, inside_of_sameOrigin inside sameOrigin ?_⟩
  · rw [leads]
    exact isDirectory_pathOf _
  · rw [leads, isLast, pathOf_append]
    rcases shortenPath_append url.protocol front last with short | same
    · rw [short]
      rw [path] at starts
      exact startsWith_cut isRoot.isDirectory.ends noSlash starts
    · rw [same, ← isLast, pathOf_segments hierarchical]
      exact startsWith_trans (startsWith_iff.mpr (List.prefix_append _ _)) starts

theorem fileUrl_ok {name directory result : Text}
    (found : loader.fileUrl name directory = .ok result) :
    ∃ target, loader.urls.parse name (some directory) = some target ∧ target.href = result := by
  unfold fileUrl at found
  cases parsed : loader.newUrl name (some directory) with
  | error error =>
    rw [parsed] at found
    cases found
  | ok target =>
    rw [parsed] at found
    exact ⟨target, newUrl_ok parsed, Except.ok.inj found⟩

section

variable (standard : loader.urls.Standard encode)

include standard

theorem below_packageJson {directory : Url} {result : Text}
    (isDirectory : loader.urls.Directory directory) (inside : Inside root directory)
    (found : loader.fileUrl (js "package.json") directory.href = .ok result) :
    loader.urls.Below root result := by
  obtain ⟨target, parsed, same⟩ := fileUrl_ok found
  obtain ⟨canonical, sameOrigin, path⟩ := packageJson_directory standard isDirectory parsed
  have longer : startsWith target.pathname directory.pathname = true := by
    rw [path, startsWith_iff]
    exact List.prefix_append _ _
  rw [← same]
  exact below_of_canonical canonical
    (inside_of_sameOrigin inside sameOrigin (startsWith_trans longer inside.2.2.2.2))

theorem below_packageRoot {directory : Url}
    {name result : Text} (isDirectory : loader.urls.Directory directory)
    (inside : Inside root directory) (isName : IsPackageName name)
    (found : loader.fileUrl (js "node_modules/" ++ name ++ js "/") directory.href = .ok result) :
    ∃ target, loader.urls.Directory target ∧ Inside root target ∧ target.href = result := by
  obtain ⟨target, parsed, same⟩ := fileUrl_ok found
  obtain ⟨isTarget, sameOrigin, longer⟩ := package_directory standard isDirectory isName parsed
  exact ⟨target, isTarget,
    inside_of_sameOrigin inside sameOrigin (startsWith_trans longer inside.2.2.2.2), same⟩

theorem directory_parentDirectoryUrl {directory parent : Url}
    (isDirectory : loader.urls.Directory directory)
    (found : loader.parentDirectoryUrl directory = .ok parent) :
    loader.urls.Directory parent ∧ SameOrigin parent directory := by
  unfold parentDirectoryUrl at found
  cases parsed : loader.newUrl (js "../") (some directory.href) with
  | error error =>
    rw [parsed] at found
    cases found
  | ok target =>
    rw [parsed] at found
    obtain ⟨isTarget, sameOrigin⟩ := above_directory standard isDirectory (newUrl_ok parsed)
    obtain ⟨cleared, same, path⟩ :=
      standard.clearQuery target isTarget.canonical isTarget.isDirectory.starts
    rw [← Except.ok.inj found]
    refine ⟨⟨cleared, ?_⟩, same.1.trans sameOrigin.1, same.2.1.trans sameOrigin.2.1,
      same.2.2.1.trans sameOrigin.2.2.1, same.2.2.2.trans sameOrigin.2.2.2⟩
    rw [path]
    exact isTarget.isDirectory

theorem below_withPathSuffix (canonical : loader.urls.Canonical url) (inside : Inside root url)
    (hierarchical : url.Hierarchical) {suffix : Text} (follows : IsPathSuffix suffix)
    (tail : startsWith suffix (js "/") = true → IsPathSuffix suffix.tail) :
    loader.urls.Below root (loader.withPathSuffix url suffix) := by
  have extended : ∀ suffix, IsPathSuffix suffix →
      loader.urls.Below root (loader.urls.setPathname url (url.pathname ++ suffix)).href := by
    intro suffix follows
    obtain ⟨longer, sameOrigin, path⟩ :=
      standard.extendPath url suffix canonical hierarchical follows
    refine below_of_canonical longer (inside_of_sameOrigin inside sameOrigin ?_)
    rw [path]
    exact startsWith_trans (startsWith_iff.mpr (List.prefix_append _ _)) inside.2.2.2.2
  unfold withPathSuffix
  split
  case isTrue slashes => exact extended _ (tail slashes.2)
  case isFalse => exact extended _ follows

end

theorem isPathSuffix_name {name : Text} (plain : name.all isPlain = true)
    (noDots : name.any isUndotted = true) : IsPathSuffix name ∧ IsPathSuffix (47 :: name) :=
  ⟨.inr ⟨name, plain, noDots, .inl rfl⟩, .inr ⟨name, plain, noDots, .inr rfl⟩⟩

theorem below_candidates (standard : loader.urls.Standard encode)
    (canonical : loader.urls.Canonical url) (inside : Inside root url)
    (hierarchical : url.Hierarchical) (exactly : Bool) :
    ∀ candidate ∈ loader.candidates url url.href exactly, loader.urls.Below root candidate := by
  have itself : loader.urls.Below root url.href := below_of_canonical canonical inside
  have file : ∀ name ∈ [js ".js", js ".mjs", js ".cjs", js ".json"],
      loader.urls.Below root (loader.withPathSuffix url name) := by
    intro name among
    have facts : name.all isPlain = true ∧ name.any isUndotted = true ∧
        startsWith name (js "/") = false := by
      simp only [List.mem_cons, List.not_mem_nil, or_false] at among
      rcases among with rfl | rfl | rfl | rfl <;> decide
    exact below_withPathSuffix standard canonical inside hierarchical
      (isPathSuffix_name facts.1 facts.2.1).1 fun slash => absurd slash (by rw [facts.2.2]; decide)
  have index : ∀ name ∈ [js "/index.js", js "/index.mjs", js "/index.cjs", js "/index.json"],
      loader.urls.Below root (loader.withPathSuffix url name) := by
    intro name among
    have facts : name.tail.all isPlain = true ∧ name.tail.any isUndotted = true ∧
        name = 47 :: name.tail := by
      simp only [List.mem_cons, List.not_mem_nil, or_false] at among
      rcases among with rfl | rfl | rfl | rfl <;> decide
    obtain ⟨alone, behind⟩ := isPathSuffix_name facts.1 facts.2.1
    exact below_withPathSuffix standard canonical inside hierarchical (facts.2.2 ▸ behind)
      fun _ => alone
  intro candidate among
  unfold candidates at among
  split at among
  case isTrue =>
    rw [List.mem_singleton.mp among]
    exact itself
  case isFalse =>
    rw [List.mem_eraseDups] at among
    rcases List.mem_append.mp among with isFile | isIndex
    · split at isFile
      case isTrue => exact absurd isFile List.not_mem_nil
      case isFalse =>
        rcases List.mem_cons.mp isFile with same | extended
        · rw [same]
          exact itself
        · obtain ⟨name, isName, same⟩ := List.mem_map.mp extended
          rw [← same]
          refine file name ?_
          split at isName
          · exact isName
          · exact List.mem_append_left [js ".json"] (List.append_nil _ ▸ isName)
    · obtain ⟨name, isName, same⟩ := List.mem_map.mp isIndex
      rw [← same]
      refine index name ?_
      split at isName
      · exact isName
      · exact List.mem_append_left [js "/index.json"] (List.append_nil _ ▸ isName)

end Below

section Confined

variable (loader : HolonomyModuleLoader) (root : Url)

def IsKnown (url : Text) : Prop := loader.urls.Below root url ∨ loader.isSynthetic url = true

def NamesApart : Prop := ∀ name, loader.isSynthetic name = true → loader.urls.Below root name ∨
  ∀ url, loader.urls.parse name none = some url →
    startsWith (loader.toDirectoryUrl url).pathname root.pathname = false

structure Confined (caches : Caches) : Prop where
  source : ∀ key source, caches.sourceCache.lookup key = some source →
    source.canonicalUrl = key ∧ loader.urls.Below root key
  aliased : ∀ url canonicalUrl, caches.aliasCache.lookup url = some canonicalUrl →
    loader.urls.Below root url ∧ (caches.sourceCache.lookup canonicalUrl).isSome
  resolution : ∀ key url, caches.resolutionCache.lookup key = some url → IsKnown loader root url
  package : ∀ key packageData, caches.packageCache.lookup key = some (some packageData) →
    loader.urls.Below root packageData.rootUrl
  module : ∀ key module, caches.moduleCache.lookup key = some module → module.format ≠ .synthetic →
    loader.urls.Below root key

abbrev Held (working : Working) : Prop := Confined loader root working.caches

abbrev AsksBelow (question : HostRead) (working : Working) : Prop :=
  loader.urls.Below root question.url ∧ Held loader root working

def Stays {α : Type} (program : Load α) (after : α → Prop) : Prop :=
  Returns (AsksBelow loader root) (Held loader root) program fun value working =>
    after value ∧ Held loader root working

end Confined

section Entries

variable {loader : HolonomyModuleLoader} {root : Url} {working : Working} {url key : Text}

variable {caches : Caches} {source : VerifiedSource}

theorem confined_new : Confined loader root Caches.new := by
  have nothing : ∀ {α : Type} (key : Text) (value : α),
      Finmap.lookup key (∅ : Cache α) ≠ some value := by
    intro α key value found
    rw [Finmap.lookup_empty] at found
    cases found
  exact ⟨fun key source found => absurd found (nothing key source),
    fun url target found => absurd found (nothing url target),
    fun key url found => absurd found (nothing key url),
    fun key packageData found => absurd found (nothing key _),
    fun key module found => absurd found (nothing key module)⟩

theorem lookup_insert_or {α : Type} {cache : Cache α} {key other : Text} {value found : α}
    (isFound : (cache.insert key value).lookup other = some found) :
    (other = key ∧ found = value) ∨ cache.lookup other = some found := by
  by_cases same : other = key
  · rw [same, Finmap.lookup_insert] at isFound
    exact .inl ⟨same, (Option.some.inj isFound).symm⟩
  · rw [Finmap.lookup_insert_of_ne _ same] at isFound
    exact .inr isFound

theorem Confined.known_below (confined : Confined loader root caches)
    (below : loader.urls.Below root url) :
    loader.urls.Below root (caches.knownCanonicalUrl url) := by
  unfold Caches.knownCanonicalUrl
  cases found : caches.aliasCache.lookup url with
  | none => exact below
  | some target =>
    obtain ⟨source, isSource⟩ := Option.isSome_iff_exists.mp (confined.aliased url target found).2
    exact (confined.source target source isSource).2

theorem Confined.known (confined : Confined loader root caches) (known : IsKnown loader root url) :
    IsKnown loader root (caches.knownCanonicalUrl url) := by
  unfold Caches.knownCanonicalUrl
  cases found : caches.aliasCache.lookup url with
  | none => exact known
  | some target =>
    obtain ⟨source, isSource⟩ := Option.isSome_iff_exists.mp (confined.aliased url target found).2
    exact .inl (confined.source target source isSource).2

theorem held_enterResolution (held : Held loader root working) (known : IsKnown loader root url) :
    Held loader root (enterResolution key url working) := by
  unfold enterResolution
  split
  · exact held
  · refine { held with resolution := fun other target found => ?_ }
    rcases lookup_insert_or found with ⟨_, same⟩ | before
    · rw [same]
      exact known
    · exact held.resolution other target before

theorem held_enterPackage (held : Held loader root working) {packageData : Option ParsedPackage}
    (below : ∀ found ∈ packageData, loader.urls.Below root found.rootUrl) :
    Held loader root (enterPackage key packageData working) := by
  unfold enterPackage
  split
  · exact held
  · refine { held with package := fun other parsed found => ?_ }
    rcases lookup_insert_or found with ⟨_, same⟩ | before
    · exact below parsed same.symm
    · exact held.package other parsed before

theorem Confined.insertSource (confined : Confined loader root caches)
    (keyed : source.canonicalUrl = key) (below : loader.urls.Below root key) :
    Confined loader root { caches with sourceCache := caches.sourceCache.insert key source } := by
  refine { confined with
    source := fun other another found => ?_
    aliased := fun url target found => ?_ }
  · rcases lookup_insert_or found with ⟨isKey, same⟩ | before
    · rw [same, isKey]
      exact ⟨keyed, below⟩
    · exact confined.source other another before
  · obtain ⟨isBelow, known⟩ := confined.aliased url target found
    refine ⟨isBelow, ?_⟩
    show (Finmap.lookup target (caches.sourceCache.insert key source)).isSome = true
    by_cases same : target = key
    · rw [same, Finmap.lookup_insert]
      rfl
    · rw [Finmap.lookup_insert_of_ne _ same]
      exact known

section

variable (held : Held loader root working)

include held

theorem held_enterSource (keyed : source.canonicalUrl = key) (below : loader.urls.Below root key) :
    Held loader root (enterSource key source working) ∧
      (enterSource key source working).caches.aliasCache = working.caches.aliasCache ∧
      ((enterSource key source working).caches.sourceCache.lookup key).isSome := by
  unfold enterSource
  split
  case isTrue known => exact ⟨held, rfl, known⟩
  case isFalse => exact ⟨held.insertSource keyed below, rfl, by rw [Finmap.lookup_insert]; rfl⟩

theorem held_exchangeSource (keyed : source.canonicalUrl = key)
    (below : loader.urls.Below root key) :
    Held loader root (exchangeSource key source working) ∧
      (exchangeSource key source working).caches.aliasCache = working.caches.aliasCache ∧
      ((exchangeSource key source working).caches.sourceCache.lookup key).isSome := by
  unfold exchangeSource
  split
  · exact held_enterSource held keyed below
  · exact ⟨held.insertSource keyed below, rfl, by rw [Finmap.lookup_insert]; rfl⟩

theorem held_enterModuleGrant : Held loader root (enterModuleGrant url working) := by
  unfold enterModuleGrant
  split
  · exact held
  · exact { held with }

theorem held_enterNegativeSource
    (key : ModuleReadPurpose × Text) : Held loader root (enterNegativeSource key working) := by
  unfold enterNegativeSource
  split
  · exact held
  · exact { held with }

theorem held_enterAlias {canonicalUrl : Text} (below : loader.urls.Below root url)
    (known : (working.caches.sourceCache.lookup canonicalUrl).isSome = true) :
    Held loader root (enterAlias url canonicalUrl working) := by
  unfold enterAlias
  split
  · exact held
  · refine { held with aliased := fun other target found => ?_ }
    rcases lookup_insert_or found with ⟨isUrl, same⟩ | before
    · rw [isUrl, same]
      exact ⟨below, known⟩
    · exact held.aliased other target before

theorem held_enterModule {module : PlannedModule}
    (below : module.format ≠ .synthetic → loader.urls.Below root key) :
    Held loader root (enterModule key module working) := by
  unfold enterModule
  split
  · exact held
  · refine { held with module := fun other another found format => ?_ }
    rcases lookup_insert_or found with ⟨isKey, same⟩ | before
    · rw [same] at format
      rw [isKey]
      exact below format
    · exact held.module other another before format

theorem held_addDependency (dependency : ModuleDependency) :
    Held loader root (addDependency url dependency working) := by
  unfold addDependency
  split
  · exact held
  case h_2 module isModule =>
    refine { held with module := fun other another found format => ?_ }
    rcases lookup_insert_or found with ⟨isUrl, same⟩ | before
    · rw [same] at format
      rw [isUrl]
      exact held.module url module isModule format
    · exact held.module other another before format

end

end Entries

section Rules

variable {loader : HolonomyModuleLoader} {root : Url} {α β : Type}

variable {after : α → Prop} {program : Load α} {condition : Prop}

theorem stays_pure {value : α} (holds : after value) : Stays loader root (pure value) after :=
  returns_pure fun _ held => ⟨holds, held⟩

theorem stays_throw (error : HolonomyModuleLoaderError) :
    Stays loader root (throw error) after := returns_throw error

theorem stays_error (error : HolonomyModuleLoaderError) :
    Stays loader root (lift (.error error)) after := returns_error error

theorem stays_lift (value : Except HolonomyModuleLoaderError α) :
    Stays loader root (lift value) fun result => value = .ok result := returns_lift value

theorem stays_get : Stays loader root get (Held loader root) := by
  refine returns_get.weaken (fun _ held => held) ?_
  rintro value working ⟨same, held⟩
  exact ⟨same ▸ held, held⟩

theorem stays_modify {change : Working → Working}
    (kept : ∀ working, Held loader root working → Held loader root (change working)) :
    Stays loader root (update change) fun _ => True :=
  returns_modify fun working held => ⟨trivial, kept working held⟩

theorem Stays.bind {middle : α → Prop} {after : β → Prop} {next : α → Load β}
    (first : Stays loader root program middle)
    (follows : ∀ value, middle value → Stays loader root (next value) after) :
    Stays loader root (program >>= next) after :=
  Returns.bind first fun value => Returns.given (follows value)

theorem Stays.ite [Decidable condition] {first second : Load α}
    (left : condition → Stays loader root first after)
    (right : ¬ condition → Stays loader root second after) :
    Stays loader root (if condition then first else second) after := Returns.ite left right

theorem Stays.when [Decidable condition] {program : Load Unit}
    (stays : condition → Stays loader root program fun _ => True) :
    Stays loader root (when condition program) fun _ => True := by
  unfold Asking.when
  exact Stays.ite stays fun _ => stays_pure trivial

theorem Stays.weaken {before : α → Prop} (stays : Stays loader root program before)
    (gives : ∀ value, before value → after value) : Stays loader root program after :=
  Returns.weaken stays (fun _ held => held) fun value _ reached =>
    ⟨gives value reached.1, reached.2⟩

end Rules

section Reading

variable {loader : HolonomyModuleLoader} {encode : Text → Text} {root : Url} {url : Text}
  (standard : loader.urls.Standard encode) (isRoot : IsRoot loader root)

variable {canonicalUrl : Text} {start : Working}

theorem stays_accountModule (url : Text) :
    Stays loader root (accountModule loader url) fun _ => True := by
  have charges : Stays loader root (update (chargeModule url)) fun _ => True :=
    stays_modify fun _ held => held
  exact stays_get.bind fun _ _ => Stays.ite (fun _ => stays_pure trivial) fun _ =>
    charges.bind fun _ _ => stays_get.bind fun _ _ => Stays.when fun _ => stays_throw _

include standard isRoot in
theorem below_canonicalizeHostSourceUrl (below : loader.urls.Below root url)
    {named : Option (Option Text)}
    (found : loader.canonicalizeHostSourceUrl named url = .ok canonicalUrl) :
    loader.urls.Below root canonicalUrl := by
  unfold canonicalizeHostSourceUrl at found
  split at found
  case h_1 => exact Except.ok.inj found ▸ below
  case h_2 => cases found
  case h_3 value =>
    split at found
    case isTrue => cases found
    case isFalse =>
      split at found
      case h_1 =>
        split at found
        case isTrue => cases found
        case isFalse =>
          split at found
          case h_1 canonical isCanonical =>
            split at found
            case isTrue => cases found
            case isFalse same =>
              have isBelow := below_of_canonicalizeModuleUrl standard isRoot isCanonical
              rw [not_ne_iff.mp same] at isBelow
              exact Except.ok.inj found ▸ isBelow
          case h_2 => cases found
      case h_2 => cases found

structure Prepared (loader : HolonomyModuleLoader) (root : Url) (start : Working)
    (canonicalUrl : Text) (working : Working) : Prop where
  held : Held loader root working
  sameAliases : working.caches.aliasCache = start.caches.aliasCache
  known : (working.caches.sourceCache.lookup canonicalUrl).isSome

theorem returns_publishing (below : loader.urls.Below root url)
    (agree : ∀ target, start.caches.aliasCache.lookup url = some target → target = canonicalUrl)
    (purpose : ModuleReadPurpose) {source : VerifiedSource}
    (keyed : source.canonicalUrl = canonicalUrl) :
    Returns (AsksBelow loader root) (Prepared loader root start canonicalUrl)
      (do
        Asking.when (purpose = .module) (publishModuleGrant url canonicalUrl)
        publishAlias url canonicalUrl
        pure source)
      fun source working => working.caches.knownCanonicalUrl url = source.canonicalUrl ∧
        Held loader root working := by
  have granting : ∀ other working, Prepared loader root start canonicalUrl working →
      Prepared loader root start canonicalUrl (enterModuleGrant other working) := by
    intro other working prepared
    refine ⟨held_enterModuleGrant prepared.held, ?_, ?_⟩
    · rw [← prepared.sameAliases]
      unfold enterModuleGrant
      split <;> rfl
    · have same : (enterModuleGrant other working).caches.sourceCache =
          working.caches.sourceCache := by
        unfold enterModuleGrant
        split <;> rfl
      rw [same]
      exact prepared.known
  refine Returns.via (fun _ => Prepared loader root start canonicalUrl)
    (Returns.when (fun _ => (returns_modify (granting url)).bind fun _ =>
      returns_modify (granting canonicalUrl)) fun _ _ prepared => prepared) fun _ => ?_
  refine Returns.via (fun _ working => working.caches.knownCanonicalUrl url = canonicalUrl ∧
    Held loader root working) ?_ fun _ => returns_pure fun _ reached =>
      ⟨keyed ▸ reached.1, reached.2⟩
  refine returns_get.bind fun value => Returns.ite (fun known => returns_pure ?_) fun new =>
    Returns.ite (fun _ => returns_throw _) fun _ => returns_modify ?_
  · rintro working ⟨rfl, prepared⟩
    refine ⟨?_, prepared.held⟩
    unfold Caches.knownCanonicalUrl
    cases found : value.caches.aliasCache.lookup url with
    | none =>
      rw [found] at known
      exact known.resolve_right Bool.false_ne_true
    | some target =>
      rw [prepared.sameAliases] at found
      exact agree target found
  · rintro working ⟨rfl, prepared⟩
    refine ⟨?_, held_enterAlias prepared.held below prepared.known⟩
    unfold enterAlias Caches.knownCanonicalUrl
    rw [if_neg (not_or.mp new).2]
    show ((value.caches.aliasCache.insert url canonicalUrl).lookup url).getD url = canonicalUrl
    rw [Finmap.lookup_insert]
    rfl

theorem returns_regranting {before : Working → Prop}
    (canonicalBelow : loader.urls.Below root canonicalUrl) (below : loader.urls.Below root url)
    (agree : ∀ target, start.caches.aliasCache.lookup url = some target → target = canonicalUrl)
    {purpose : ModuleReadPurpose} {metadataOnly : Bool} {existing : VerifiedSource}
    (keyed : existing.canonicalUrl = canonicalUrl)
    (prepared : ∀ working, before working → Prepared loader root start canonicalUrl working) :
    Returns (AsksBelow loader root) before
      (regrantSource existing url canonicalUrl purpose metadataOnly)
      fun source working => working.caches.knownCanonicalUrl url = source.canonicalUrl ∧
        Held loader root working := by
  unfold regrantSource
  dsimp only
  generalize isVerified : (if purpose = .module then
    { existing with grant := .module, metadataOnly := false }
    else if metadataOnly = true ∧ ¬ existing.metadataOnly = true then
      { existing with metadataOnly := true } else existing) = verified
  have sameUrl : verified.canonicalUrl = canonicalUrl := by
    rw [← isVerified, ← keyed]
    split
    · rfl
    · split <;> rfl
  refine Returns.via (fun _ => Prepared loader root start canonicalUrl)
    (Returns.when (fun _ => returns_modify fun working began => ?_)
      fun _ working began => prepared working began)
    fun _ => returns_publishing below agree purpose sameUrl
  have ready := prepared working began
  obtain ⟨held, sameAliases, known⟩ := held_exchangeSource ready.held sameUrl canonicalBelow
  exact ⟨held, sameAliases.trans ready.sameAliases, known⟩

include standard isRoot in
theorem returns_verifySource_held (below : loader.urls.Below root url) (purpose : ModuleReadPurpose)
    (hostSource : HostModuleSource) (start : Working) :
    Returns (AsksBelow loader root) (fun working => working = start ∧ Held loader root start)
      (loader.verifySource url purpose
        (start.caches.sourceCache.lookup (start.caches.knownCanonicalUrl url)) hostSource)
      fun source working => working.caches.knownCanonicalUrl url = source.canonicalUrl ∧
        Held loader root working := by
  unfold HolonomyModuleLoader.verifySource
  split
  case h_2 => exact returns_error _
  case h_1 bytes claimed _ _ =>
    refine (returns_lift _).bind fun metadataOnly => (returns_lift _).bind fun canonicalUrl =>
      returns_get.bind fun value => ?_
    refine Returns.ite (fun _ => returns_error _) fun same => Returns.ite (fun _ => returns_error _)
      fun _ => ?_
    rintro working ⟨rfl, isCanonical, _, rfl, held⟩
    have canonicalBelow := below_canonicalizeHostSourceUrl standard isRoot below isCanonical
    have agree : ∀ target, value.caches.aliasCache.lookup url = some target →
        target = canonicalUrl := by
      intro target found
      have isTarget : value.caches.knownCanonicalUrl url = target := by
        unfold Caches.knownCanonicalUrl
        rw [found]
        rfl
      obtain ⟨source, isSource⟩ := Option.isSome_iff_exists.mp (held.aliased url target found).2
      rw [isTarget, isSource, Option.any_some, decide_eq_true_iff, not_ne_iff] at same
      rw [same, (held.source target source isSource).1]
    refine Returns.via (fun _ state => state.caches = value.caches) ?_ (fun _ => ?_) value rfl
    · intro state sameCaches
      refine (returns_accountSource canonicalUrl bytes.length state state rfl).weaken
        (fun _ _ asked => asked) ?_
      intro result after reached nothing isOk
      rw [(reached nothing isOk).1, ← sameCaches]
      unfold accounted
      split <;> rfl
    · dsimp only
      refine Returns.ite (fun _ => returns_error _) fun _ => ?_
      have begins : ∀ state : Working, state.caches = value.caches → Held loader root state := by
        intro state sameCaches
        show Confined loader root state.caches
        rw [sameCaches]
        exact held
      have prepared : ∀ state next : Working, state.caches = value.caches →
          (Held loader root next ∧ next.caches.aliasCache = state.caches.aliasCache ∧
            (next.caches.sourceCache.lookup canonicalUrl).isSome) →
          Prepared loader root value canonicalUrl next := by
        intro state next sameCaches entered
        exact ⟨entered.1, entered.2.1.trans (congrArg Caches.aliasCache sameCaches), entered.2.2⟩
      split
      case h_1 existing isExisting =>
        have keyed := (held.source canonicalUrl existing isExisting).1
        refine returns_regranting canonicalBelow below agree keyed ?_
        intro state sameCaches
        refine prepared state state sameCaches ⟨begins state sameCaches, rfl, ?_⟩
        rw [sameCaches, isExisting]
        rfl
      case h_2 =>
        split
        case h_1 => exact returns_error _
        case h_2 source _ =>
          refine Returns.via (fun _ => Prepared loader root value canonicalUrl)
            (returns_modify fun state sameCaches => ?_)
            fun _ => returns_publishing below agree purpose rfl
          exact prepared state _ sameCaches
            (held_enterSource (begins state sameCaches) rfl canonicalBelow)

include standard isRoot in
theorem returns_readVerifiedSource_held (below : loader.urls.Below root url)
    (purpose : ModuleReadPurpose) :
    Returns (AsksBelow loader root) (Held loader root) (loader.readVerifiedSource url purpose)
      fun read working => (∀ source ∈ read,
        working.caches.knownCanonicalUrl url = source.canonicalUrl) ∧ Held loader root working := by
  unfold HolonomyModuleLoader.readVerifiedSource
  refine returns_get.bind fun value => ?_
  dsimp only
  split
  case h_1 source usable =>
    obtain ⟨found, _⟩ := Option.filter_eq_some_iff.mp usable
    rintro working ⟨rfl, held⟩
    refine Returns.via (fun _ state => state.caches = value.caches) ?_ (fun _ => returns_pure ?_)
      value rfl
    · intro state sameCaches
      refine (returns_accountSource source.canonicalUrl source.byteLength state state rfl).weaken
        (fun _ _ asked => asked) ?_
      intro result after reached nothing isOk
      rw [(reached nothing isOk).1, ← sameCaches]
      unfold accounted
      split <;> rfl
    · intro state sameCaches
      show _ ∧ Confined loader root state.caches
      rw [sameCaches]
      refine ⟨fun other same => ?_, held⟩
      rw [← Option.mem_some.mp same]
      exact (held.source _ source found).1.symm
  case h_2 =>
    refine Returns.ite (fun _ => returns_pure ?_) fun _ => ?_
    · intro working reached
      refine ⟨fun source none => ?_, reached.2⟩
      cases none
    · refine Returns.via (fun _ working => value = working ∧ Held loader root working) ?_
        fun answer => ?_
      · refine (returns_ask fun _ reached => ⟨below, reached.2⟩).bind fun answer => ?_
        cases answer with
        | threw reentrant => exact returns_throw _
        | _ => exact returns_pure fun _ reached => reached
      · cases answer with
        | none =>
          refine Returns.starting (Held loader root) (fun _ reached => reached.2)
            (Returns.ite (fun _ => returns_error _) fun _ => ?_)
          refine Returns.via (fun _ => Held loader root)
            (returns_modify fun working held => held_enterNegativeSource held (purpose, url))
            fun _ => returns_pure fun working held => ⟨fun source none => ?_, held⟩
          cases none
        | some hostSource =>
          rintro working ⟨rfl, held⟩
          refine Returns.bind (returns_verifySource_held standard isRoot below purpose hostSource
            value) (fun source => returns_pure fun working reached => ⟨fun other same => ?_,
              reached.2⟩) value ⟨rfl, held⟩
          rw [← Option.mem_some.mp same]
          exact reached.1

include standard isRoot in
theorem stays_readVerifiedSource (below : loader.urls.Below root url)
    (purpose : ModuleReadPurpose) :
    Stays loader root (loader.readVerifiedSource url purpose)
      fun read => ∀ source ∈ read, loader.urls.Below root source.canonicalUrl := by
  refine (returns_readVerifiedSource_held standard isRoot below purpose).weaken
    (fun _ held => held) ?_
  rintro read working ⟨named, held⟩
  refine ⟨fun source among => ?_, held⟩
  rw [← named source among]
  exact held.known_below below

end Reading

end Holonomy.Modules
