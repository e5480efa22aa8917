import Holonomy.Modules.Reads
import Holonomy.Modules.PlainUrls

/-!
# What is read to load modules

What a call asks the host for is below the root, and everything that it leaves in the caches is, so
that this holds of every later call too, however calls and answers follow each other.
-/

namespace Holonomy.Modules

open Foundation Asking HolonomyModuleLoader

/-! ## What is read to resolve a specifier

Looking for a package, the loader reads its source in directories below the root only.
-/

section Resolving

variable {loader : HolonomyModuleLoader} {encode : Text → Text} {root : Url} {url : Text}
  (standard : loader.urls.Standard encode) (isRoot : IsRoot loader root)

include standard isRoot

variable {α : Type} {directory base : Url} {result parentUrl : Text} {packageData : ParsedPackage}
  {resolve : Resolver} {after : α → Prop}

theorem stays_readGrantedSource (below : loader.urls.Below root url) :
    Stays loader root (loader.readGrantedSource url) fun _ => True :=
  (stays_readVerifiedSource standard isRoot below .module).bind fun read _ => by
    cases read with
    | none => exact stays_error _
    | some granted => exact stays_pure trivial

theorem returns_canonicalizeResolvedModuleAlias (url : Text) :
    Returns (AsksBelow loader root) (Held loader root) (loader.canonicalizeResolvedModuleAlias url)
      fun result working => working.caches.knownCanonicalUrl url = result ∧
        Held loader root working := by
  refine Returns.via (fun value working => value = working ∧ Held loader root working)
    returns_get fun value => ?_
  refine Returns.via (fun _ => Held loader root) (Returns.when (fun needed => ?_)
    fun _ _ reached => reached.2) fun _ => ?_
  · rintro working ⟨rfl, held⟩
    -- Only a URL below the root is an alias.
    obtain ⟨target, isAlias⟩ := Option.isSome_iff_exists.mp needed.1
    have below := (held.aliased url target isAlias).1
    have granted := stays_readGrantedSource standard isRoot below
    refine Returns.bind granted (fun _ => ?_) value held
    exact returns_pure fun _ reached => reached.2
  · refine returns_get.bind fun value => returns_pure ?_
    rintro working ⟨rfl, held⟩
    exact ⟨rfl, held⟩

theorem stays_canonicalizeResolvedModuleAlias (known : IsKnown loader root url) :
    Stays loader root (loader.canonicalizeResolvedModuleAlias url) (IsKnown loader root) := by
  refine (returns_canonicalizeResolvedModuleAlias standard isRoot url).weaken
    (fun _ held => held) ?_
  rintro result working ⟨same, held⟩
  exact ⟨same ▸ held.known known, held⟩

omit standard isRoot in
theorem stays_publishResolution (key : Text) (known : IsKnown loader root url) :
    Stays loader root (publishResolution key url) (IsKnown loader root) :=
  (stays_modify fun _ held => held_enterResolution held known).bind fun _ _ =>
    stays_get.bind fun working held => stays_pure <| by
      cases found : working.caches.resolutionCache.lookup key with
      | none => exact known
      | some other => exact held.resolution key other found

omit standard isRoot in
theorem stays_invalidPackageConfig (rootUrl packageJsonUrl : Text) :
    Stays loader root (invalidPackageConfig rootUrl packageJsonUrl : Load α) after :=
  (stays_modify fun _ held => held_enterPackage held fun _ none => by cases none).bind fun _ _ =>
    stays_error _

theorem below_parsePackage {source : VerifiedSource} {parsed : ParsedPackage}
    (below : loader.urls.Below root source.canonicalUrl)
    (isParsed : loader.parsePackage source = some parsed) :
    loader.urls.Below root parsed.rootUrl := by
  unfold HolonomyModuleLoader.parsePackage at isParsed
  obtain ⟨url, _, isParsed⟩ := Option.bind_eq_some_iff.mp isParsed
  split at isParsed
  case isTrue => cases isParsed
  case isFalse =>
    obtain ⟨json, _, isParsed⟩ := Option.bind_eq_some_iff.mp isParsed
    cases json with
    | object members =>
      have made : ∀ type, ((loader.urls.parse (js "./") (some source.canonicalUrl)).bind
          fun here => some ⟨members, here.href, type⟩) = some parsed →
            loader.urls.Below root parsed.rootUrl := by
        intro type isMade
        obtain ⟨here, found, same⟩ := Option.bind_eq_some_iff.mp isMade
        obtain ⟨directory, inside⟩ := directory_here standard isRoot below found
        rw [← Option.some.inj same]
        exact below_of_canonical directory.canonical inside
      dsimp only at isParsed
      split at isParsed
      · exact made _ isParsed
      · exact made _ isParsed
      · split at isParsed
        · exact made _ isParsed
        · split at isParsed
          · exact made _ isParsed
          · cases isParsed
      · cases isParsed
    | _ => cases isParsed

theorem stays_readPackage (isDirectory : loader.urls.Directory directory)
    (inside : Inside root directory) :
    Stays loader root (loader.readPackage directory.href)
      fun packageData => loader.urls.Below root packageData.rootUrl := by
  unfold HolonomyModuleLoader.readPackage
  refine stays_get.bind fun working held => ?_
  split
  case h_1 known found => exact stays_pure (held.package _ known found)
  case h_2 => exact stays_error _
  case h_3 =>
    refine (stays_lift _).bind fun packageJsonUrl found => ?_
    have below := below_packageJson standard isDirectory inside found
    refine (stays_readVerifiedSource standard isRoot below .packageMetadata).bind
      fun read sources => ?_
    cases read with
    | none => exact stays_invalidPackageConfig _ _
    | some source =>
      dsimp only
      split
      case h_1 => exact stays_invalidPackageConfig _ _
      case h_2 parsed isParsed =>
        have rootBelow := below_parsePackage standard isRoot (sources source rfl) isParsed
        have entering : ∀ key, Stays loader root (publishPackage key (some parsed)) fun _ =>
            True := by
          refine fun key => stays_modify fun _ held => held_enterPackage held fun other same => ?_
          rw [← Option.mem_some.mp same]
          exact rootBelow
        exact (entering _).bind fun _ _ => (entering _).bind fun _ _ => stays_pure rootBelow

omit isRoot in
theorem stays_inParent
    (isDirectory : loader.urls.Directory directory) (inside : Inside root directory) {otherwise : α}
    (stops : after otherwise) {next : Url → Load α}
    (follows : ∀ parent, loader.urls.Directory parent → Inside root parent →
      Stays loader root (next parent) after) :
    Stays loader root (loader.inParent root directory otherwise next) after := by
  refine Stays.ite (fun _ => stays_pure stops) fun _ => (stays_lift _).bind fun parent found =>
    Stays.ite (fun _ => stays_pure stops) fun goesOn => ?_
  obtain ⟨isParent, sameOrigin⟩ := directory_parentDirectoryUrl standard isDirectory found
  exact follows parent isParent
    (inside_of_sameOrigin inside sameOrigin (not_not.mp (not_or.mp goesOn).1))

theorem stays_packageScopeFrom (fuel : ℕ)
    (place : startsWith directory.pathname root.pathname = true →
      loader.urls.Directory directory ∧ Inside root directory) :
    Stays loader root (loader.packageScopeFrom root fuel directory)
      fun scope => ∀ found ∈ scope, loader.urls.Below root found.rootUrl := by
  have nothing : ∀ found ∈ (none : Option ParsedPackage), loader.urls.Below root found.rootUrl :=
    fun _ none => by cases none
  induction fuel generalizing directory with
  | zero => exact stays_pure nothing
  | succ fuel ih =>
    refine Stays.ite (fun _ => stays_pure nothing) fun starts => ?_
    obtain ⟨isDirectory, inside⟩ := place (not_not.mp (not_or.mp starts).1)
    refine (stays_lift _).bind fun packageJsonUrl found => ?_
    have below := below_packageJson standard isDirectory inside found
    refine (stays_readVerifiedSource standard isRoot below .packageMetadata).bind fun read _ => ?_
    cases read with
    | none =>
      exact stays_inParent standard isDirectory inside nothing fun parent isParent parentInside =>
        ih fun _ => ⟨isParent, parentInside⟩
    | some source =>
      refine (stays_readPackage standard isRoot isDirectory inside).bind fun found below =>
        stays_pure fun other same => ?_
      rw [← Option.mem_some.mp same]
      exact below

variable (apart : NamesApart loader root)

include apart in
theorem place_toDirectoryUrl (known : IsKnown loader root url) {parsed : Url}
    (found : loader.newUrl url none = .ok parsed)
    (starts : startsWith (loader.toDirectoryUrl parsed).pathname root.pathname = true) :
    loader.urls.Directory (loader.toDirectoryUrl parsed) ∧
      Inside root (loader.toDirectoryUrl parsed) := by
  have isParsed := newUrl_ok found
  have ofBelow : loader.urls.Below root url → loader.urls.Directory (loader.toDirectoryUrl parsed) ∧
      Inside root (loader.toDirectoryUrl parsed) := by
    rintro ⟨other, isOther, spelled, inside⟩
    have same : other = parsed := Option.some.inj (isOther.symm.trans isParsed)
    rw [same] at spelled inside
    rw [← spelled] at isParsed
    exact directory_toDirectoryUrl standard isRoot isParsed inside
  rcases known with below | synthetic
  · exact ofBelow below
  · rcases apart url synthetic with below | never
    · exact ofBelow below
    · rw [never parsed isParsed] at starts
      cases starts

omit standard in
theorem root_eq {found : Url} (isFound : loader.newUrl loader.rootUrl none = .ok found) :
    found = root :=
  Option.some.inj ((newUrl_ok isFound).symm.trans isRoot.parsed)

include apart in
theorem stays_findPackageScope (known : IsKnown loader root url) :
    Stays loader root (loader.findPackageScope url)
      fun scope => ∀ found ∈ scope, loader.urls.Below root found.rootUrl := by
  refine Stays.ite (fun _ => stays_pure fun _ none => by cases none) fun _ => ?_
  refine (stays_lift _).bind fun parent isParent => (stays_lift _).bind fun found isFound => ?_
  rw [root_eq isRoot isFound]
  exact stays_packageScopeFrom standard isRoot _
    (place_toDirectoryUrl standard isRoot apart known isParent)

theorem returns_firstExisting (url : Text) {candidates : List Text}
    (below : ∀ candidate ∈ candidates, loader.urls.Below root candidate ∧
      loader.urls.Below base candidate) :
    Returns (AsksBelow loader root) (Held loader root) (loader.firstExisting url candidates)
      fun result working => (∃ candidate, loader.urls.Below root candidate ∧
        loader.urls.Below base candidate ∧ working.caches.knownCanonicalUrl candidate = result) ∧
          Held loader root working := by
  induction candidates with
  | nil => exact returns_error _
  | cons candidate rest ih =>
    obtain ⟨inRoot, inBase⟩ := below candidate List.mem_cons_self
    refine (returns_readVerifiedSource_held standard isRoot inRoot .module).bind fun read => ?_
    cases read with
    | none =>
      exact Returns.starting (Held loader root) (fun _ reached => reached.2)
        (ih fun other among => below other (List.mem_cons_of_mem _ among))
    | some source =>
      refine (returns_lift _).bind fun _ => returns_pure ?_
      rintro working ⟨_, named, held⟩
      exact ⟨⟨candidate, inRoot, inBase, named source rfl⟩, held⟩

theorem returns_resolveExistingModuleUrl (exactly : Bool) (inRoot : loader.urls.Below root url)
    (inBase : loader.urls.Below base url) :
    Returns (AsksBelow loader root) (Held loader root) (loader.resolveExistingModuleUrl url exactly)
      fun result working => (∃ candidate, loader.urls.Below root candidate ∧
        loader.urls.Below base candidate ∧ working.caches.knownCanonicalUrl candidate = result) ∧
          Held loader root working := by
  refine (returns_lift _).bind fun parsed => ?_
  refine Returns.given fun isParsed => ?_
  obtain ⟨own, isOwn, spelled, inside⟩ := inRoot
  obtain ⟨same, isSame, _, insideBase⟩ := inBase
  have ownParsed : own = parsed := Option.some.inj (isOwn.symm.trans (newUrl_ok isParsed))
  have sameParsed : same = parsed := Option.some.inj (isSame.symm.trans (newUrl_ok isParsed))
  rw [ownParsed] at isOwn spelled inside
  rw [sameParsed] at insideBase
  have canonical : loader.urls.Canonical parsed := by
    unfold UrlParser.Canonical
    rw [spelled]
    exact isOwn
  have hierarchical := hierarchical_of_inside inside isRoot.isDirectory.starts
  refine Returns.via (fun _ => Held loader root) (Returns.when (fun _ => ?_) fun _ _ held => held)
    fun _ => ?_
  · exact (returns_lift _).weaken (fun _ held => held) fun _ _ reached => reached.2
  · rw [← spelled]
    exact returns_firstExisting standard isRoot _ fun candidate among =>
      ⟨below_candidates standard canonical inside hierarchical exactly candidate among,
        below_candidates standard canonical insideBase hierarchical exactly candidate among⟩

theorem below_of_startsWith (isBase : loader.urls.parse url none = some base)
    (baseBelow : loader.urls.Below root url) (below : loader.urls.Below root result)
    (starts : startsWith result url = true) : loader.urls.Below base result := by
  obtain ⟨other, isOther, spelledBase, insideBase⟩ := baseBelow
  rw [Option.some.inj (isOther.symm.trans isBase)] at spelledBase insideBase
  obtain ⟨target, isTarget, spelled, inside⟩ := below
  refine ⟨target, isTarget, spelled, ?_⟩
  have sameOrigin := sameOrigin_of_inside inside insideBase
  rw [← spelled, ← spelledBase] at starts
  rw [← spelled] at isTarget
  rw [← spelledBase] at isBase
  have longer := standard.spelled target base isTarget isBase
    (hierarchical_of_inside inside isRoot.isDirectory.starts)
    (hierarchical_of_inside insideBase isRoot.isDirectory.starts) sameOrigin starts
  exact ⟨sameOrigin.1, sameOrigin.2.1, sameOrigin.2.2.1, sameOrigin.2.2.2, longer⟩

omit standard isRoot in
theorem stays_selectTarget (selected : SelectedEntry) (mode : ModuleResolutionMode)
    (validate : Text → Except HolonomyModuleLoaderError Text) :
    Stays loader root (loader.selectTarget selected mode validate) fun _ => True := by
  refine stays_get.bind fun working _ => ?_
  have counts : ∀ steps, Stays loader root (update (countSteps steps)) fun _ => True :=
    fun steps => stays_modify fun _ held => held
  exact (counts _).bind fun _ _ => (stays_lift _).weaken fun _ _ => trivial

theorem stays_targetUrl (target rootUrl : Text) :
    Stays loader root (loader.targetUrl target rootUrl) (IsKnown loader root) :=
  (stays_lift _).bind fun _ resolved => (stays_lift _).bind fun _ _ =>
    (stays_canonicalizeResolvedModuleAlias standard isRoot
      (.inl (below_of_canonicalizeModuleUrl standard isRoot resolved))).bind fun _ known =>
        (stays_lift _).bind fun _ _ => stays_pure known

def IsNamed (loader : HolonomyModuleLoader) (root base : Url) (result : Text) (working : Working) :
    Prop :=
  ∃ url, loader.urls.Below root url ∧ loader.urls.Below base url ∧
    working.caches.knownCanonicalUrl url = result

omit standard isRoot in
theorem stays_of_named {program : Load Text}
    (returns : Returns (AsksBelow loader root) (Held loader root) program fun result working =>
      IsNamed loader root base result working ∧ Held loader root working) :
    Stays loader root program (IsKnown loader root) := by
  refine returns.weaken (fun _ held => held) ?_
  rintro result working ⟨⟨url, below, _, same⟩, held⟩
  exact ⟨same ▸ held.known (.inl below), held⟩

theorem returns_resolveExported (isBase : loader.urls.parse url none = some base)
    (baseBelow : loader.urls.Below root url) (exportsValue : JsonValue) (exportKey : Text)
    (mode : ModuleResolutionMode) (specifier : Text) :
    Returns (AsksBelow loader root) (Held loader root)
      (loader.resolveExported url exportsValue exportKey mode specifier)
      fun result working => IsNamed loader root base result working ∧ Held loader root working := by
  unfold HolonomyModuleLoader.resolveExported
  split
  case h_1 => exact returns_error _
  case h_2 selected _ =>
    refine Returns.via (fun _ => Held loader root) (Returns.weaken (stays_selectTarget _ _ _)
      (fun _ held => held) fun _ _ reached => reached.2) fun found => ?_
    cases found with
    | null => exact returns_error _
    | undefined => exact returns_error _
    | target target =>
      refine (returns_lift _).bind fun _ => Returns.given fun _ =>
        (returns_lift _).bind fun resolved =>
        Returns.given fun isResolved => (returns_lift _).bind fun _ => Returns.given fun isInside =>
          (returns_lift _).bind fun _ => Returns.given fun _ => ?_
      have below := below_of_canonicalizeModuleUrl standard isRoot isResolved
      have starts : startsWith resolved url = true := by
        unfold checkInside at isInside
        split at isInside
        · assumption
        · cases isInside
      refine (returns_canonicalizeResolvedModuleAlias standard isRoot resolved).bind
        fun canonical =>
        (returns_lift _).bind fun _ => returns_pure ?_
      rintro working ⟨_, known, held⟩
      exact ⟨⟨resolved, below, below_of_startsWith standard isRoot isBase baseBelow below starts,
        known⟩, held⟩

theorem returns_resolvePackageEntry
    (isBase : loader.urls.parse packageData.rootUrl none = some base)
    (baseBelow : loader.urls.Below root packageData.rootUrl) (exportKey : Text)
    (mode : ModuleResolutionMode) (specifier : Text) :
    Returns (AsksBelow loader root) (Held loader root)
      (loader.resolvePackageEntry packageData exportKey mode specifier)
      fun result working => IsNamed loader root base result working ∧ Held loader root working := by
  unfold HolonomyModuleLoader.resolvePackageEntry
  split
  case h_1 exportsValue _ =>
    exact returns_resolveExported standard isRoot isBase baseBelow exportsValue exportKey mode
      specifier
  case h_2 =>
    refine (returns_lift _).bind fun _ => Returns.given fun _ =>
      (returns_lift _).bind fun resolved =>
      Returns.given fun isResolved => (returns_lift _).bind fun _ =>
        Returns.given fun isInside => ?_
    have below := below_of_canonicalizeModuleUrl standard isRoot isResolved
    have starts : startsWith resolved packageData.rootUrl = true := by
      unfold checkInside at isInside
      split at isInside
      · assumption
      · cases isInside
    exact returns_resolveExistingModuleUrl standard isRoot false below
      (below_of_startsWith standard isRoot isBase baseBelow below starts)

theorem stays_resolvePackageEntry (baseBelow : loader.urls.Below root packageData.rootUrl)
    (exportKey : Text) (mode : ModuleResolutionMode) (specifier : Text) :
    Stays loader root (loader.resolvePackageEntry packageData exportKey mode specifier)
      (IsKnown loader root) := by
  obtain ⟨base, isBase, _, _⟩ := id baseBelow
  exact stays_of_named
    (returns_resolvePackageEntry standard isRoot isBase baseBelow exportKey mode specifier)

theorem stays_packageFrom {packageName : Text} (isName : IsPackageName packageName) (fuel : ℕ)
    (place : startsWith directory.pathname root.pathname = true →
      loader.urls.Directory directory ∧ Inside root directory) :
    Stays loader root (loader.packageFrom root packageName fuel directory)
      fun found => ∀ packageData ∈ found, loader.urls.Below root packageData.rootUrl := by
  have nothing : ∀ packageData ∈ (none : Option ParsedPackage),
      loader.urls.Below root packageData.rootUrl := fun _ none => by cases none
  induction fuel generalizing directory with
  | zero => exact stays_pure nothing
  | succ fuel ih =>
    refine Stays.ite (fun _ => stays_pure nothing) fun starts => ?_
    obtain ⟨isDirectory, inside⟩ := place (not_not.mp starts)
    refine (stays_lift _).bind fun packageRoot isPackageRoot => ?_
    obtain ⟨target, isTarget, targetInside, same⟩ :=
      below_packageRoot standard isDirectory inside isName isPackageRoot
    refine (stays_lift _).bind fun packageJsonUrl found => ?_
    rw [← same] at found ⊢
    have below := below_packageJson standard isTarget targetInside found
    refine (stays_readVerifiedSource standard isRoot below .packageMetadata).bind fun read _ => ?_
    cases read with
    | none =>
      exact stays_inParent standard isDirectory inside nothing fun parent isParent parentInside =>
        ih fun _ => ⟨isParent, parentInside⟩
    | some source =>
      refine (stays_readPackage standard isRoot isTarget targetInside).bind fun found below =>
        stays_pure fun other same => ?_
      rw [← Option.mem_some.mp same]
      exact below

include apart

theorem stays_resolvePackage (specifier : Text) (known : IsKnown loader root parentUrl)
    (mode : ModuleResolutionMode) :
    Stays loader root (loader.resolvePackage specifier parentUrl mode) (IsKnown loader root) := by
  unfold HolonomyModuleLoader.resolvePackage
  split
  case h_1 => exact stays_error _
  case h_2 parsed isSplit =>
    refine (stays_findPackageScope standard isRoot apart known).bind fun scope below => ?_
    split
    case h_1 own isOwn =>
      exact stays_resolvePackageEntry standard isRoot
        (below own (Option.filter_eq_some_iff.mp isOwn).1) _ _ _
    case h_2 =>
      refine (stays_lift _).bind fun parent isParent => (stays_lift _).bind fun found isFound => ?_
      rw [root_eq isRoot isFound]
      refine (stays_packageFrom standard isRoot (isPackageName_of_split isSplit) _
        (place_toDirectoryUrl standard isRoot apart known isParent)).bind fun found below => ?_
      cases found with
      | none => exact stays_error _
      | some packageData =>
        exact stays_resolvePackageEntry standard isRoot (below packageData rfl) _ _ _

section

variable (resolves : ∀ specifier parentUrl mode,
    Stays loader root (resolve specifier parentUrl mode) (IsKnown loader root))

include resolves

omit apart in
theorem stays_resolveImportTarget (rootUrl target : Text) (mode : ModuleResolutionMode) :
    Stays loader root (loader.resolveImportTarget resolve rootUrl target mode)
      (IsKnown loader root) :=
  Stays.ite (fun _ => stays_targetUrl standard isRoot _ _) fun _ =>
    Stays.ite (fun _ => stays_error _) fun _ => (stays_lift _).bind fun _ _ => resolves _ _ _

theorem stays_resolvePackageImport (specifier : Text) (known : IsKnown loader root parentUrl)
    (mode : ModuleResolutionMode) :
    Stays loader root (loader.resolvePackageImport resolve specifier parentUrl mode)
      (IsKnown loader root) := by
  refine Stays.ite (fun _ => stays_error _) fun _ =>
    (stays_findPackageScope standard isRoot apart known).bind fun scope _ =>
      (stays_lift _).bind fun found _ => ?_
  cases found with
  | none => exact stays_error _
  | some found =>
    refine (stays_selectTarget _ _ _).bind fun selected _ => ?_
    cases selected with
    | target target => exact stays_resolveImportTarget standard isRoot resolves _ _ _
    | null => exact stays_error _
    | undefined => exact stays_error _

end

omit standard apart isRoot in
theorem known_resolveSynthetic {specifier : Text}
    (found : loader.resolveSynthetic specifier = .ok result) : IsKnown loader root result := by
  unfold HolonomyModuleLoader.resolveSynthetic at found
  split at found
  case isTrue => cases found
  case isFalse fine =>
    simp only [not_or, not_not] at fine
    rw [← Except.ok.inj found]
    exact .inr fine.2.2.2.2

omit apart in
theorem known_canonicalizeModuleParent {caches : Caches} (confined : Confined loader root caches)
    {value : Text} (found : loader.canonicalizeModuleParent caches value = .ok result) :
    IsKnown loader root result := by
  unfold HolonomyModuleLoader.canonicalizeModuleParent at found
  split at found
  case isTrue => exact known_resolveSynthetic found
  case isFalse =>
    cases canonical : loader.canonicalizeModuleUrl value loader.rootUrl false with
    | error error =>
      rw [canonical] at found
      cases found
    | ok url =>
      rw [canonical] at found
      rw [← Except.ok.inj found]
      exact .inl (confined.known_below (below_of_canonicalizeModuleUrl standard isRoot canonical))

theorem stays_resolveWith {imports : Resolver} (resolves : ∀ specifier parentUrl mode,
    IsKnown loader root parentUrl →
      Stays loader root (imports specifier parentUrl mode) (IsKnown loader root))
    (specifier parentUrl : Text) (mode : ModuleResolutionMode) :
    Stays loader root (loader.resolveWith imports specifier parentUrl mode)
      (IsKnown loader root) := by
  refine Stays.ite (fun _ => stays_error _) fun _ => stays_get.bind fun working held =>
    (stays_lift _).bind fun canonicalParent isParent => ?_
  have known := known_canonicalizeModuleParent standard isRoot held isParent
  dsimp only
  split
  case h_1 cached found =>
    exact stays_canonicalizeResolvedModuleAlias standard isRoot (held.resolution _ cached found)
  case h_2 =>
    refine Stays.ite (fun _ => (stays_lift _).bind fun _ found =>
      stays_publishResolution _ (known_resolveSynthetic found)) fun _ => ?_
    have uncached : Stays loader root
        (loader.resolveUncached imports specifier canonicalParent mode) (IsKnown loader root) := by
      refine Stays.ite (fun _ => resolves _ _ _ known) fun _ => Stays.ite (fun _ => ?_) fun _ =>
        stays_resolvePackage standard isRoot apart _ known _
      refine (stays_lift _).bind fun url isUrl => ?_
      have below := below_of_canonicalizeModuleUrl standard isRoot isUrl
      exact stays_of_named
        (returns_resolveExistingModuleUrl standard isRoot _ below below)
    exact uncached.bind fun _ resolved =>
      (stays_canonicalizeResolvedModuleAlias standard isRoot resolved).bind fun _ canonical =>
        stays_publishResolution _ canonical

theorem stays_resolveInternal (specifier parentUrl : Text) (mode : ModuleResolutionMode) :
    Stays loader root (loader.resolveInternal specifier parentUrl mode) (IsKnown loader root) :=
  stays_resolveWith standard isRoot apart (fun _ _ _ known =>
    stays_resolvePackageImport standard isRoot apart (stays_resolveWith standard isRoot apart
      fun _ _ _ _ => stays_error _) _ known _) _ _ _

end Resolving

section Loading

variable {loader : HolonomyModuleLoader} {encode : Text → Text} {root : Url} {url : Text}
  (standard : loader.urls.Standard encode) (isRoot : IsRoot loader root)
  (apart : NamesApart loader root)

include standard isRoot apart

variable {source : VerifiedSource} {loadModule : Text → Load PlannedModule}

theorem stays_moduleFormat (known : IsKnown loader root url) :
    Stays loader root (loader.moduleFormat url) fun _ => True := by
  refine (stays_lift _).bind fun _ _ => (stays_lift _).bind fun _ _ =>
    Stays.ite (fun _ => stays_pure trivial) fun _ => Stays.ite (fun _ => stays_pure trivial)
      fun _ =>
      Stays.ite (fun _ => stays_pure trivial) fun _ => ?_
  have typed : Stays loader root (loader.findPackageType url) fun _ => True :=
    (stays_findPackageScope standard isRoot apart known).bind fun _ _ => stays_pure trivial
  exact typed.bind fun _ _ => stays_pure trivial

theorem stays_analyzeSource (below : loader.urls.Below root source.canonicalUrl) :
    Stays loader root (loader.analyzeSource source) fun _ => True :=
  (stays_moduleFormat standard isRoot apart (.inl below)).bind fun _ _ =>
    (Stays.when fun _ => (stays_lift _).weaken fun _ _ => trivial).bind fun _ _ =>
      (stays_lift _).bind fun _ _ => (stays_lift _).bind fun _ _ => stays_pure trivial

section

variable (loads : ∀ url, IsKnown loader root url → Stays loader root (loadModule url) fun _ => True)

include loads

theorem stays_loadDependency (url : Text) (dependency : AnalyzedDependency) :
    Stays loader root (loader.loadDependency loadModule url dependency) fun _ => True := by
  unfold HolonomyModuleLoader.loadDependency
  split
  · exact Stays.ite (fun _ => stays_error _) fun _ => stays_pure trivial
  · refine Stays.ite (fun _ => stays_pure trivial) fun _ =>
      (stays_resolveInternal standard isRoot apart _ _ _).bind fun resolved known => ?_
    refine Stays.ite (fun _ => stays_get.bind fun working held => ?_) fun _ =>
      (loads resolved known).bind fun target _ => stays_get.bind fun working _ =>
        Stays.ite (fun _ => stays_error _) fun _ => stays_pure trivial
    have formatted : Stays loader root
        (loader.resolvedFormat (working.caches.knownCanonicalUrl resolved)) fun _ => True :=
      Stays.ite (fun _ => stays_pure trivial) fun _ =>
        stays_moduleFormat standard isRoot apart (held.known known)
    exact formatted.bind fun _ _ => stays_pure trivial

theorem stays_loadDependencies (url : Text) (dependencies : List AnalyzedDependency) :
    Stays loader root (loader.loadDependencies loadModule url dependencies) fun _ => True := by
  induction dependencies with
  | nil => exact stays_pure trivial
  | cons dependency rest ih =>
    refine (stays_loadDependency standard isRoot apart loads url dependency).bind
      fun planned _ => ?_
    have adds : Stays loader root (pushDependency url planned) fun _ => True :=
      stays_modify fun _ held => held_addDependency held planned
    exact adds.bind fun _ _ => ih

end

omit apart in
theorem stays_loadCached {requestedUrl : Text} {cached : PlannedModule}
    (below : cached.format ≠ .synthetic → loader.urls.Below root requestedUrl) (url : Text) :
    Stays loader root (loader.loadCached requestedUrl url cached) fun _ => True := by
  refine (stays_accountModule url).bind fun _ _ => stays_get.bind fun working _ =>
    (Stays.when fun needed => ?_).bind fun _ _ => stays_pure trivial
  exact (stays_readGrantedSource standard isRoot (below needed.1)).bind fun _ _ =>
    Stays.when fun _ => (stays_lift _).weaken fun _ _ => trivial

omit standard isRoot apart in
theorem stays_loadSynthetic (url : Text) (exportNames : List Text) :
    Stays loader root (loader.loadSynthetic url exportNames) fun _ => True := by
  refine (stays_accountModule url).bind fun _ _ => ?_
  have enters : ∀ module : PlannedModule, module.format = .synthetic →
      Stays loader root (publishModule url module) fun _ => True :=
    fun module isSynthetic => stays_modify fun _ held =>
      held_enterModule held fun different => absurd isSynthetic different
  exact (enters _ rfl).bind fun _ _ => stays_pure trivial

theorem stays_loadSource
    (loads : ∀ url, IsKnown loader root url → Stays loader root (loadModule url) fun _ => True)
    (below : loader.urls.Below root source.canonicalUrl) :
    Stays loader root (loader.loadSource loadModule source) fun _ => True := by
  refine (stays_accountModule _).bind fun _ _ => stays_get.bind fun working _ => ?_
  split
  · exact stays_pure trivial
  · refine (stays_analyzeSource standard isRoot apart below).bind fun found _ => ?_
    have enters : Stays loader root (publishModule source.canonicalUrl found.1) fun _ => True :=
      stays_modify fun _ held => held_enterModule held fun _ => below
    exact enters.bind fun _ _ =>
      (stays_loadDependencies standard isRoot apart loads _ _).bind fun _ _ =>
        stays_get.bind fun _ _ => stays_pure trivial

omit standard isRoot apart in
theorem syntheticExports_eq_none (url : Text) :
    loader.syntheticExports url = none ↔ loader.isSynthetic url = false := by
  unfold HolonomyModuleLoader.syntheticExports HolonomyModuleLoader.isSynthetic
  rw [Option.map_eq_none_iff, List.find?_eq_none, Bool.eq_false_iff, ne_eq, List.contains_iff_mem,
    List.mem_map]
  simp only [decide_eq_true_eq, not_exists, not_and]

theorem stays_loadModuleWithin (depth : ℕ) (known : IsKnown loader root url) :
    Stays loader root (loader.loadModuleWithin depth url) fun _ => True := by
  induction depth generalizing url with
  | zero => exact stays_throw _
  | succ depth ih =>
    refine stays_get.bind fun working held => ?_
    -- A URL that is not below the root is no alias.
    have ownName : ¬ loader.urls.Below root url → working.caches.knownCanonicalUrl url = url := by
      intro outside
      unfold Caches.knownCanonicalUrl
      cases found : working.caches.aliasCache.lookup url with
      | none => rfl
      | some target => exact absurd (held.aliased url target found).1 outside
    dsimp only
    split
    case h_1 cached isCached =>
      refine stays_loadCached standard isRoot (fun format => ?_) _
      by_contra outside
      rw [ownName outside] at isCached
      exact outside (held.module url cached isCached format)
    case h_2 =>
      split
      case h_1 => exact stays_loadSynthetic _ _
      case h_2 noNames =>
        have below : loader.urls.Below root url := by
          by_contra outside
          rw [ownName outside] at noNames
          have noName := (syntheticExports_eq_none url).mp noNames
          exact absurd (known.resolve_left outside) (by rw [noName]; exact Bool.false_ne_true)
        refine (stays_readVerifiedSource standard isRoot below .module).bind fun read sources => ?_
        cases read with
        | none => exact stays_error _
        | some source =>
          exact stays_loadSource standard isRoot apart (fun url known => ih known)
            (sources source rfl)

theorem stays_operation (call : LoaderCall) :
    Stays loader root (loader.operation call) fun _ => True := by
  cases call with
  | resolve specifier parentUrl mode =>
    exact (stays_lift _).bind fun _ _ =>
      (stays_resolveInternal standard isRoot apart _ _ _).bind fun _ _ => stays_pure trivial
  | load canonicalUrl =>
    refine (stays_lift _).bind fun url isUrl => ?_
    have known : IsKnown loader root url := by
      unfold HolonomyModuleLoader.loadedUrl at isUrl
      split at isUrl
      · exact known_resolveSynthetic isUrl
      · exact .inl (below_of_canonicalizeModuleUrl standard isRoot isUrl)
    exact (stays_loadModuleWithin standard isRoot apart _ known).bind fun _ _ => stays_pure trivial
  | createPlan specifier parentUrl mode =>
    exact (stays_lift _).bind fun _ _ =>
      (stays_resolveInternal standard isRoot apart _ _ _).bind fun _ known =>
        (stays_loadModuleWithin standard isRoot apart _ known).bind fun _ _ => stays_pure trivial

end Loading

section Runs

variable {loader : HolonomyModuleLoader} {encode : Text → Text} {root : Url}
  (standard : loader.urls.Standard encode)

def PackagesNamed (loader : HolonomyModuleLoader) (root : Url) (working : Working) : Prop :=
  ∀ key packageData, working.caches.packageCache.lookup key = some (some packageData) →
    ∃ base, loader.urls.parse packageData.rootUrl none = some base ∧
      ∀ exportKey mode specifier,
        (loader.resolvePackageEntry packageData exportKey mode specifier working).Ensures
          (fun question _ => loader.urls.Below root question.url)
          fun result after => ∀ url, result = .ok url → IsNamed loader root base url after

include standard

theorem packagesNamed (isRoot : IsRoot loader root) {working : Working}
    (held : Held loader root working) : PackagesNamed loader root working := by
  intro key packageData found
  have below := held.package key packageData found
  obtain ⟨base, isBase, _, _⟩ := id below
  refine ⟨base, isBase, fun exportKey mode specifier => ?_⟩
  refine (returns_resolvePackageEntry standard isRoot isBase below exportKey mode specifier working
    held).weaken (fun _ _ asked => asked.1) fun result after reached url isOk => ?_
  exact (reached url isOk).1

theorem OneByOne.confined (isRoot : IsRoot loader root) (apart : NamesApart loader root)
    {before after : Caches} {calls : List FinishedCall}
    (all : OneByOne loader before calls after) (confined : Confined loader root before) :
    Confined loader root after := by
  induction all with
  | nil => exact confined
  | @resolved before after call answers begun working rest ran _ ih =>
    have ends := (stays_operation standard isRoot apart call ⟨before, LoaderTransaction.new⟩
      confined).answered ran
    exact ih (ends _ rfl).2
  | rejected _ _ ih => exact ih confined

/-- Whatever is called and whatever the host answers, it is asked for URLs below the root only, and
what a package names is below the root of the package, until the host names another canonical URL
for it. -/
theorem reads_below_root {value : Text}
    (constructed : normalizeRootUrl loader.urls value = .ok loader.rootUrl)
    (apart : ∀ root, loader.urls.parse loader.rootUrl none = some root → NamesApart loader root)
    {events : List LoaderEvent} {state : LoaderState}
    (reached : loader.machine.Reaches events state) :
    ∃ root, loader.urls.parse loader.rootUrl none = some root ∧
      (∀ active ∈ state.active, ∀ question working resume,
        active.task = .ask question working resume →
          loader.urls.Below root question.url ∧ PackagesNamed loader root working) ∧
      PackagesNamed loader root ⟨state.settledCaches, LoaderTransaction.new⟩ := by
  obtain ⟨root, isRoot⟩ := isRoot_of_normalizeRootUrl standard constructed
  have names := apart root isRoot.parsed
  have serial := serial_of_reaches reached
  have confined : Confined loader root state.settledCaches :=
    OneByOne.confined standard isRoot names serial.oneByOne confined_new
  refine ⟨root, isRoot.parsed, fun active isActive question working resume asks => ?_,
    packagesNamed standard isRoot confined⟩
  have stays := (stays_operation standard isRoot names active.call
    ⟨state.settledCaches, LoaderTransaction.new⟩ confined).answered (serial.running active isActive)
  rw [asks] at stays
  exact ⟨stays.1.1, packagesNamed standard isRoot stays.1.2⟩

end Runs

section Examples

/-- A package whose module the host is asked for. -/
theorem reads_below_root_package : ∃ state,
    (plainLoader {} (js "app://h/")).machine.Reaches
      [.call (.resolve (js "pkg") none .import), .start, .answer .missing,
        .answer (plainSource (js "\x7b\"main\":\"./m.js\"\x7d"))] state ∧
      (state.active.map fun active => match active.task with
        | .ask question _ _ => question.url
        | _ => []) = some (js "app://h/node_modules/pkg/m.js") ∧
      ∃ root, plainUrls.parse (js "app://h/") none = some root ∧
        (∀ active ∈ state.active, ∀ question working resume,
          active.task = .ask question working resume → plainUrls.Below root question.url ∧
            PackagesNamed (plainLoader {} (js "app://h/")) root working) ∧
        PackagesNamed (plainLoader {} (js "app://h/")) root
          ⟨state.settledCaches, LoaderTransaction.new⟩ := by
  have run : ((plainLoader {} (js "app://h/")).machine.run
      [.call (.resolve (js "pkg") none .import), .start, .answer .missing,
        .answer (plainSource (js "\x7b\"main\":\"./m.js\"\x7d"))]).map (fun state =>
          state.active.map fun active => match active.task with
            | .ask question _ _ => question.url
            | _ => []) = some (some (js "app://h/node_modules/pkg/m.js")) := by
    decide +kernel
  obtain ⟨state, reached, asks⟩ := Machine.exists_of_run run
  have constructed : normalizeRootUrl (plainLoader {} (js "app://h/")).urls (js "app://h/") =
      .ok (plainLoader {} (js "app://h/")).rootUrl := by
    decide +kernel
  exact ⟨state, reached, asks, reads_below_root plainUrls_standard constructed
    (fun _ _ _ synthetic => by cases synthetic) reached⟩

def entryOf (state : LoaderState) (key specifier : Text) : Option Text :=
  (state.settledCaches.packageCache.lookup key).join.bind fun packageData =>
    ((plainLoader {} (js "app://h/")).resolvePackageEntry packageData (js ".") .import specifier
      ⟨state.settledCaches, LoaderTransaction.new⟩).value

/-- The host names a canonical URL outside the package for the module that the package names. -/
theorem not_packages_below_root : ¬ ∀ (loader : HolonomyModuleLoader) (encode : Text → Text)
    (value : Text) (events : List LoaderEvent) (state : LoaderState),
      loader.urls.Standard encode → normalizeRootUrl loader.urls value = .ok loader.rootUrl →
      loader.machine.Reaches events state → ∀ key packageData base,
        state.settledCaches.packageCache.lookup key = some (some packageData) →
        loader.urls.parse packageData.rootUrl none = some base →
        ∀ exportKey mode specifier answers url working,
          (loader.resolvePackageEntry packageData exportKey mode specifier
            ⟨state.settledCaches, LoaderTransaction.new⟩).answered answers =
              some (.done (.ok url) working) →
          loader.urls.Below base url := by
  intro claimed
  have run : ((plainLoader {} (js "app://h/")).machine.run
      [.call (.resolve (js "pkg") none .import), .start, .answer .missing,
        .answer (plainSource (js "\x7b\"main\":\"./m.js\"\x7d")),
        .answer (.source ⟨some [], some (Kernel.sha256Hex []), some (some (js "app://h/other.js")),
          none⟩), .settle]).map (fun state =>
        ((state.settledCaches.packageCache.lookup (js "app://h/node_modules/pkg/")).join.map
          ParsedPackage.rootUrl,
          entryOf state (js "app://h/node_modules/pkg/") (js "pkg"))) =
      some (some (js "app://h/node_modules/pkg/"), some (js "app://h/other.js")) := by
    decide +kernel
  have constructed : normalizeRootUrl (plainLoader {} (js "app://h/")).urls (js "app://h/") =
      .ok (plainLoader {} (js "app://h/")).rootUrl := by
    decide +kernel
  have parsedBase : plainUrls.parse (js "app://h/node_modules/pkg/") none =
      some (plainUrl (js "h") [js "node_modules", js "pkg", []]) := by
    decide +kernel
  have parsedOther : plainUrls.parse (js "app://h/other.js") none =
      some (plainUrl (js "h") [js "other.js"]) := by
    decide +kernel
  obtain ⟨state, reached, found⟩ := Machine.exists_of_run run
  obtain ⟨isRoot, isResult⟩ := Prod.mk.inj found
  obtain ⟨packageData, isPackage, rootUrl⟩ := Option.map_eq_some_iff.mp isRoot
  have cached := Option.join_eq_some_iff.mp isPackage
  unfold entryOf at isResult
  rw [isPackage, Option.bind_some] at isResult
  obtain ⟨working, ends⟩ := Task.done_of_value isResult
  have below := claimed _ _ _ _ state plainUrls_standard constructed reached _ packageData _
    cached (by rw [rootUrl]; exact parsedBase) (js ".") .import (js "pkg") [] _ working
    (by rw [ends]; exact Task.answered_nil)
  obtain ⟨other, isOther, _, inside⟩ := below
  rw [← Option.some.inj (parsedOther.symm.trans isOther)] at inside
  exact absurd inside (by decide +kernel)

end Examples

end Holonomy.Modules
