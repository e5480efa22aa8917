import Holonomy.Modules.Queue

/-!
# What the loader keeps

All that the loader does to what it works on are the entries of its caches and the charges of its
transaction. What every entry keeps is kept by resolution, and what is kept by the entries of
modules too is kept by loading, whatever the host answers.
-/

namespace Holonomy.Modules

open Foundation Asking

structure KeptByEntries (holds : Working → Prop) : Prop where
  resolution : ∀ key url working, holds working → holds (enterResolution key url working)
  package : ∀ key packageData working, holds working → holds (enterPackage key packageData working)
  source : ∀ key source working, holds working → holds (enterSource key source working)
  exchange : ∀ key source working, holds working → holds (exchangeSource key source working)
  moduleGrant : ∀ url working, holds working → holds (enterModuleGrant url working)
  aliasing : ∀ url canonicalUrl working, holds working → holds (enterAlias url canonicalUrl working)
  negativeSource : ∀ key working, holds working → holds (enterNegativeSource key working)
  bytes : ∀ url byteLength working, holds working → holds (chargeSource url byteLength working)
  moduleUrl : ∀ url working, holds working → holds (chargeModule url working)
  steps : ∀ steps working, holds working → holds (countSteps steps working)

structure KeptByLoading (holds : Working → Prop) : Prop extends KeptByEntries holds where
  module : ∀ key module working, holds working → holds (enterModule key module working)
  dependency : ∀ url dependency working, holds working → url ∈ working.transaction.moduleKeys →
    holds (addDependency url dependency working)

structure KeptByResolution (loader : HolonomyModuleLoader) (holds broken : Working → Prop) :
    Prop where
  breaks : ∀ working, holds working → broken working
  read : ∀ url purpose, Keeps holds broken (loader.readVerifiedSource url purpose)
  resolution : ∀ key url working, holds working → holds (enterResolution key url working)
  package : ∀ key packageData working, holds working → holds (enterPackage key packageData working)
  steps : ∀ steps working, holds working → holds (countSteps steps working)

section Entries

variable {url key canonicalUrl : Text} (working : Working)

variable {holds : Working → Prop}

@[simp]
theorem moduleCache_enterResolution : (enterResolution key url working).caches.moduleCache =
    working.caches.moduleCache := by
  unfold enterResolution
  split <;> rfl

@[simp]
theorem moduleCache_enterPackage (packageData : Option ParsedPackage) :
    (enterPackage key packageData working).caches.moduleCache = working.caches.moduleCache := by
  unfold enterPackage
  split <;> rfl

@[simp]
theorem moduleCache_enterSource (source : VerifiedSource) :
    (enterSource key source working).caches.moduleCache = working.caches.moduleCache := by
  unfold enterSource
  split <;> rfl

@[simp]
theorem moduleCache_exchangeSource (source : VerifiedSource) :
    (exchangeSource key source working).caches.moduleCache = working.caches.moduleCache := by
  unfold exchangeSource
  split
  · exact moduleCache_enterSource working source
  · rfl

@[simp]
theorem moduleCache_enterModuleGrant : (enterModuleGrant url working).caches.moduleCache =
    working.caches.moduleCache := by
  unfold enterModuleGrant
  split <;> rfl

@[simp]
theorem moduleCache_enterAlias : (enterAlias url canonicalUrl working).caches.moduleCache =
    working.caches.moduleCache := by
  unfold enterAlias
  split <;> rfl

@[simp]
theorem moduleCache_enterNegativeSource (key : ModuleReadPurpose × Text) :
    (enterNegativeSource key working).caches.moduleCache = working.caches.moduleCache := by
  unfold enterNegativeSource
  split <;> rfl

theorem KeptByEntries.withoutModule (kept : KeptByEntries holds) (url : Text) :
    KeptByEntries fun working =>
      holds working ∧ working.caches.moduleCache.lookup url = none where
  resolution key url working held := by
    rw [moduleCache_enterResolution]
    exact ⟨kept.resolution key url working held.1, held.2⟩
  package key packageData working held := by
    rw [moduleCache_enterPackage]
    exact ⟨kept.package key packageData working held.1, held.2⟩
  source key source working held := by
    rw [moduleCache_enterSource]
    exact ⟨kept.source key source working held.1, held.2⟩
  exchange key source working held := by
    rw [moduleCache_exchangeSource]
    exact ⟨kept.exchange key source working held.1, held.2⟩
  moduleGrant url working held := by
    rw [moduleCache_enterModuleGrant]
    exact ⟨kept.moduleGrant url working held.1, held.2⟩
  aliasing url canonicalUrl working held := by
    rw [moduleCache_enterAlias]
    exact ⟨kept.aliasing url canonicalUrl working held.1, held.2⟩
  negativeSource key working held := by
    rw [moduleCache_enterNegativeSource]
    exact ⟨kept.negativeSource key working held.1, held.2⟩
  bytes url byteLength working held := ⟨kept.bytes url byteLength working held.1, held.2⟩
  moduleUrl url working held := ⟨kept.moduleUrl url working held.1, held.2⟩
  steps steps working held := ⟨kept.steps steps working held.1, held.2⟩

theorem entered_of_keys {url : Text} {before after : Working}
    (same : after.transaction.moduleKeys = before.transaction.moduleKeys)
    (entered : url ∈ before.transaction.moduleKeys) : url ∈ after.transaction.moduleKeys :=
  same ▸ entered

theorem KeptByLoading.withModule (kept : KeptByLoading holds) (url : Text) :
    KeptByLoading fun working =>
      holds working ∧ url ∈ working.transaction.moduleKeys where
  resolution key other working held := by
    refine ⟨kept.resolution key other working held.1, entered_of_keys ?_ held.2⟩
    unfold enterResolution
    split <;> rfl
  package key packageData working held := by
    refine ⟨kept.package key packageData working held.1, entered_of_keys ?_ held.2⟩
    unfold enterPackage
    split <;> rfl
  source key source working held := by
    refine ⟨kept.source key source working held.1, entered_of_keys ?_ held.2⟩
    unfold enterSource
    split <;> rfl
  exchange key source working held := by
    refine ⟨kept.exchange key source working held.1, entered_of_keys ?_ held.2⟩
    unfold exchangeSource enterSource
    split
    · split <;> rfl
    · rfl
  moduleGrant other working held := by
    refine ⟨kept.moduleGrant other working held.1, entered_of_keys ?_ held.2⟩
    unfold enterModuleGrant
    split <;> rfl
  aliasing other canonicalUrl working held := by
    refine ⟨kept.aliasing other canonicalUrl working held.1, entered_of_keys ?_ held.2⟩
    unfold enterAlias
    split <;> rfl
  negativeSource key working held := by
    refine ⟨kept.negativeSource key working held.1, entered_of_keys ?_ held.2⟩
    unfold enterNegativeSource
    split <;> rfl
  bytes other byteLength working held := ⟨kept.bytes other byteLength working held.1, held.2⟩
  moduleUrl other working held := ⟨kept.moduleUrl other working held.1, held.2⟩
  steps steps working held := ⟨kept.steps steps working held.1, held.2⟩
  module key module working held := by
    refine ⟨kept.module key module working held.1, ?_⟩
    unfold enterModule
    split
    · exact held.2
    · exact List.mem_append_left _ held.2
  dependency other dependency working held entered := by
    refine ⟨kept.dependency other dependency working held.1 entered, entered_of_keys ?_ held.2⟩
    unfold addDependency
    split <;> rfl

theorem mem_moduleKeys_enterModule {module : PlannedModule} {working : Working}
    (missing : working.caches.moduleCache.lookup url = none) :
    url ∈ (enterModule url module working).transaction.moduleKeys := by
  unfold enterModule
  rw [if_neg (by rw [missing]; exact Bool.false_ne_true)]
  exact List.mem_append_right _ (List.mem_singleton.mpr rfl)

end Entries

section Reading

variable {loader : HolonomyModuleLoader} {holds : Working → Prop} (kept : KeptByEntries holds)

include kept

theorem keeps_publishAlias (url canonicalUrl : Text) :
    Keeps holds holds (publishAlias url canonicalUrl) :=
  keeps_get.bind fun _ => (keeps_pure ()).ite
    ((keeps_throw (fun _ held => held) _).ite (keeps_modify (kept.aliasing url canonicalUrl)))

theorem keeps_publishModuleGrant (requestedUrl canonicalUrl : Text) :
    Keeps holds holds (publishModuleGrant requestedUrl canonicalUrl) :=
  (keeps_modify (kept.moduleGrant requestedUrl)).bind fun _ =>
    keeps_modify (kept.moduleGrant canonicalUrl)

theorem keeps_accountSource (url : Text) (byteLength : ℕ) :
    Keeps holds holds (accountSource loader url byteLength) :=
  (keeps_throw (fun _ held => held) _).ite <| keeps_get.bind fun _ => (keeps_pure ()).ite <|
    (keeps_modify (kept.bytes url byteLength)).bind fun _ => keeps_get.bind fun _ =>
      Keeps.when fun _ => keeps_throw (fun _ held => held) _

theorem keeps_accountModule (url : Text) : Keeps holds holds (accountModule loader url) :=
  keeps_get.bind fun _ => (keeps_pure ()).ite <|
    (keeps_modify (kept.moduleUrl url)).bind fun _ => keeps_get.bind fun _ =>
      Keeps.when fun _ => keeps_throw (fun _ held => held) _

omit kept in
theorem keeps_readHostSource (url : Text) (purpose : ModuleReadPurpose) :
    Keeps holds holds (HolonomyModuleLoader.readHostSource url purpose) :=
  (keeps_ask _).bind fun answer => by
    cases answer with
    | threw reentrant => exact keeps_throw (fun _ held => held) _
    | missing => exact keeps_pure _
    | source source => exact keeps_pure _

theorem keeps_regrantSource (existing : VerifiedSource) (url canonicalUrl : Text)
    (purpose : ModuleReadPurpose) (metadataOnly : Bool) :
    Keeps holds holds
      (HolonomyModuleLoader.regrantSource existing url canonicalUrl purpose metadataOnly) :=
  (Keeps.when fun _ => keeps_modify (kept.exchange canonicalUrl _)).bind fun _ =>
    (Keeps.when fun _ => keeps_publishModuleGrant kept url canonicalUrl).bind fun _ =>
      (keeps_publishAlias kept url canonicalUrl).bind fun _ => keeps_pure _

theorem keeps_verifySource (url : Text) (purpose : ModuleReadPurpose)
    (cached : Option VerifiedSource) (hostSource : HostModuleSource) :
    Keeps holds holds (loader.verifySource url purpose cached hostSource) := by
  unfold HolonomyModuleLoader.verifySource
  split
  · refine (keeps_lift (fun _ held => held) _).bind fun metadataOnly =>
      (keeps_lift (fun _ held => held) _).bind fun canonicalUrl =>
      keeps_get.bind fun working => (keeps_lift (fun _ held => held) _).ite
        ((keeps_lift (fun _ held => held) _).ite ?_)
    refine (keeps_accountSource kept _ _).bind fun _ => (keeps_lift (fun _ held => held) _).ite ?_
    split
    · exact keeps_regrantSource kept _ _ _ _ _
    · split
      · exact keeps_lift (fun _ held => held) _
      · exact (keeps_modify (kept.source _ _)).bind fun _ =>
          (Keeps.when fun _ => keeps_publishModuleGrant kept _ _).bind fun _ =>
            (keeps_publishAlias kept _ _).bind fun _ => keeps_pure _
  · exact keeps_lift (fun _ held => held) _

theorem keeps_readVerifiedSource (url : Text) (purpose : ModuleReadPurpose) :
    Keeps holds holds (loader.readVerifiedSource url purpose) := by
  unfold HolonomyModuleLoader.readVerifiedSource
  refine keeps_get.bind fun working => ?_
  dsimp only
  split
  · exact (keeps_accountSource kept _ _).bind fun _ => keeps_pure _
  · refine (keeps_pure _).ite ((keeps_readHostSource url purpose).bind fun answer => ?_)
    cases answer with
    | none =>
      exact (keeps_lift (fun _ held => held) _).ite
        ((keeps_modify (kept.negativeSource _)).bind fun _ => keeps_pure _)
    | some hostSource => exact (keeps_verifySource kept _ _ _ _).bind fun _ => keeps_pure _

theorem KeptByEntries.resolutions : KeptByResolution loader holds holds where
  breaks _ held := held
  read := keeps_readVerifiedSource kept
  resolution := kept.resolution
  package := kept.package
  steps := kept.steps

end Reading

section Resolving

variable {loader : HolonomyModuleLoader} {holds broken : Working → Prop}
  (kept : KeptByResolution loader holds broken)

include kept

variable {α : Type} {resolve : HolonomyModuleLoader.Resolver}

theorem keeps_publishResolution (key url : Text) : Keeps holds broken (publishResolution key url) :=
  (keeps_modify (kept.resolution key url)).bind fun _ => keeps_get.bind fun _ => keeps_pure _

theorem keeps_publishPackage (key : Text) (packageData : Option ParsedPackage) :
    Keeps holds broken (publishPackage key packageData) :=
  keeps_modify (kept.package key packageData)

theorem keeps_readGrantedSource (url : Text) : Keeps holds broken (loader.readGrantedSource url) :=
  (kept.read url .module).bind fun read => by
    cases read with
    | none => exact keeps_lift kept.breaks _
    | some granted => exact keeps_pure _

theorem keeps_canonicalizeResolvedModuleAlias (url : Text) :
    Keeps holds broken (loader.canonicalizeResolvedModuleAlias url) :=
  keeps_get.bind fun _ =>
    (Keeps.when fun _ => (keeps_readGrantedSource kept url).bind fun _ => keeps_pure _).bind
      fun _ => keeps_get.bind fun _ => keeps_pure _

theorem keeps_invalidPackageConfig (rootUrl packageJsonUrl : Text) :
    Keeps holds broken (HolonomyModuleLoader.invalidPackageConfig rootUrl packageJsonUrl :
    Load α) :=
  (keeps_publishPackage kept rootUrl none).bind fun _ => keeps_lift kept.breaks _

theorem keeps_readPackage (rootUrl : Text) : Keeps holds broken (loader.readPackage rootUrl) := by
  unfold HolonomyModuleLoader.readPackage
  refine keeps_get.bind fun working => ?_
  split
  · exact keeps_pure _
  · exact keeps_lift kept.breaks _
  · refine (keeps_lift kept.breaks _).bind fun packageJsonUrl =>
      (kept.read _ _).bind fun read => ?_
    cases read with
    | none => exact keeps_invalidPackageConfig kept _ _
    | some source =>
      dsimp only
      split
      · exact keeps_invalidPackageConfig kept _ _
      · exact (keeps_publishPackage kept _ _).bind fun _ =>
          (keeps_publishPackage kept _ _).bind fun _ => keeps_pure _

theorem keeps_inParent (root directory : Url) (otherwise : α) {next : Url → Load α}
    (follows : ∀ parent, Keeps holds broken (next parent)) :
    Keeps holds broken (loader.inParent root directory otherwise next) :=
  (keeps_pure _).ite <| (keeps_lift kept.breaks _).bind fun parent =>
    (keeps_pure _).ite (follows parent)

theorem keeps_packageScopeFrom (root : Url) (fuel : ℕ) (directory : Url) :
    Keeps holds broken (loader.packageScopeFrom root fuel directory) := by
  induction fuel generalizing directory with
  | zero => exact keeps_pure _
  | succ fuel ih =>
    refine (keeps_pure _).ite <| (keeps_lift kept.breaks _).bind fun packageJsonUrl =>
      (kept.read _ _).bind fun read => ?_
    cases read with
    | none => exact keeps_inParent kept root directory _ ih
    | some source => exact (keeps_readPackage kept _).bind fun _ => keeps_pure _

theorem keeps_findPackageScope (parentUrl : Text) :
    Keeps holds broken (loader.findPackageScope parentUrl) :=
  (keeps_pure _).ite <| (keeps_lift kept.breaks _).bind fun _ => (keeps_lift kept.breaks _).bind
    fun root =>
    keeps_packageScopeFrom kept root _ _

theorem keeps_firstExisting (url : Text) (candidates : List Text) :
    Keeps holds broken (loader.firstExisting url candidates) := by
  induction candidates with
  | nil => exact keeps_lift kept.breaks _
  | cons candidate rest ih =>
    refine (kept.read _ _).bind fun read => ?_
    cases read with
    | none => exact ih
    | some source => exact (keeps_lift kept.breaks _).bind fun _ => keeps_pure _

theorem keeps_resolveExistingModuleUrl (url : Text) (exactly : Bool) :
    Keeps holds broken (loader.resolveExistingModuleUrl url exactly) :=
  (keeps_lift kept.breaks _).bind fun _ => (Keeps.when fun _ => keeps_lift kept.breaks _).bind
    fun _ =>
    keeps_firstExisting kept url _

theorem keeps_selectTarget (selected : SelectedEntry) (mode : ModuleResolutionMode)
    (validate : Text → Except HolonomyModuleLoaderError Text) :
    Keeps holds broken (loader.selectTarget selected mode validate) :=
  keeps_get.bind fun _ => (keeps_modify (kept.steps _)).bind fun _ => keeps_lift kept.breaks _

theorem keeps_targetUrl (target rootUrl : Text) :
    Keeps holds broken (loader.targetUrl target rootUrl) :=
  (keeps_lift kept.breaks _).bind fun resolved => (keeps_lift kept.breaks _).bind fun _ =>
    (keeps_canonicalizeResolvedModuleAlias kept resolved).bind fun _ =>
      (keeps_lift kept.breaks _).bind fun _ => keeps_pure _

theorem keeps_resolveExported (rootUrl : Text) (exportsValue : JsonValue) (exportKey : Text)
    (mode : ModuleResolutionMode) (specifier : Text) :
    Keeps holds broken (loader.resolveExported rootUrl exportsValue exportKey mode specifier) := by
  unfold HolonomyModuleLoader.resolveExported
  split
  · exact keeps_lift kept.breaks _
  · refine (keeps_selectTarget kept _ _ _).bind fun selected => ?_
    cases selected with
    | target target =>
      exact (keeps_lift kept.breaks _).bind fun _ => (keeps_lift kept.breaks _).bind fun resolved =>
        (keeps_lift kept.breaks _).bind fun _ => (keeps_lift kept.breaks _).bind fun _ =>
          (keeps_canonicalizeResolvedModuleAlias kept resolved).bind fun _ =>
            (keeps_lift kept.breaks _).bind fun _ => keeps_pure _
    | null => exact keeps_lift kept.breaks _
    | undefined => exact keeps_lift kept.breaks _

theorem keeps_resolvePackageEntry (packageData : ParsedPackage) (exportKey : Text)
    (mode : ModuleResolutionMode) (specifier : Text) :
    Keeps holds broken (loader.resolvePackageEntry packageData exportKey mode specifier) := by
  unfold HolonomyModuleLoader.resolvePackageEntry
  split
  · exact keeps_resolveExported kept _ _ _ _ _
  · exact (keeps_lift kept.breaks _).bind fun _ => (keeps_lift kept.breaks _).bind fun _ =>
      (keeps_lift kept.breaks _).bind fun _ =>
      keeps_resolveExistingModuleUrl kept _ _

theorem keeps_packageFrom (root : Url) (packageName : Text) (fuel : ℕ) (directory : Url) :
    Keeps holds broken (loader.packageFrom root packageName fuel directory) := by
  induction fuel generalizing directory with
  | zero => exact keeps_pure _
  | succ fuel ih =>
    refine (keeps_pure _).ite <| (keeps_lift kept.breaks _).bind fun packageRoot =>
      (keeps_lift kept.breaks _).bind fun packageJsonUrl =>
        (kept.read _ _).bind fun read => ?_
    cases read with
    | none => exact keeps_inParent kept root directory _ ih
    | some source => exact (keeps_readPackage kept _).bind fun _ => keeps_pure _

theorem keeps_resolvePackage (specifier parentUrl : Text) (mode : ModuleResolutionMode) :
    Keeps holds broken (loader.resolvePackage specifier parentUrl mode) := by
  unfold HolonomyModuleLoader.resolvePackage
  split
  · exact keeps_lift kept.breaks _
  · refine (keeps_findPackageScope kept _).bind fun scope => ?_
    split
    · exact keeps_resolvePackageEntry kept _ _ _ _
    · refine (keeps_lift kept.breaks _).bind fun _ => (keeps_lift kept.breaks _).bind fun root =>
        (keeps_packageFrom kept root _ _ _).bind fun found => ?_
      cases found with
      | none => exact keeps_lift kept.breaks _
      | some found => exact keeps_resolvePackageEntry kept _ _ _ _

section

variable (resolves : ∀ specifier parentUrl mode,
    Keeps holds broken (resolve specifier parentUrl mode))

include resolves

theorem keeps_resolveImportTarget (rootUrl target : Text) (mode : ModuleResolutionMode) :
    Keeps holds broken (loader.resolveImportTarget resolve rootUrl target mode) :=
  (keeps_targetUrl kept _ _).ite <| (keeps_lift kept.breaks _).ite <| (keeps_lift kept.breaks
    _).bind fun _ =>
    resolves _ _ _

theorem keeps_resolvePackageImport (specifier parentUrl : Text) (mode : ModuleResolutionMode) :
    Keeps holds broken (loader.resolvePackageImport resolve specifier parentUrl mode) := by
  refine (keeps_lift kept.breaks _).ite <| (keeps_findPackageScope kept _).bind fun scope =>
    (keeps_lift kept.breaks _).bind fun found => ?_
  cases found with
  | none => exact keeps_lift kept.breaks _
  | some found =>
    refine (keeps_selectTarget kept _ _ _).bind fun selected => ?_
    cases selected with
    | target target => exact keeps_resolveImportTarget kept resolves _ _ _
    | null => exact keeps_lift kept.breaks _
    | undefined => exact keeps_lift kept.breaks _

end

theorem keeps_resolveWith {imports : HolonomyModuleLoader.Resolver}
    (resolves : ∀ specifier parentUrl mode, Keeps holds broken (imports specifier parentUrl mode))
    (specifier parentUrl : Text) (mode : ModuleResolutionMode) :
    Keeps holds broken (loader.resolveWith imports specifier parentUrl mode) := by
  refine (keeps_lift kept.breaks _).ite <| keeps_get.bind fun working =>
    (keeps_lift kept.breaks _).bind fun parent => ?_
  dsimp only
  split
  · exact keeps_canonicalizeResolvedModuleAlias kept _
  · refine ((keeps_lift kept.breaks _).bind fun _ => keeps_publishResolution kept _ _).ite ?_
    refine Keeps.bind ?_ fun resolved =>
      (keeps_canonicalizeResolvedModuleAlias kept resolved).bind fun _ =>
        keeps_publishResolution kept _ _
    exact (resolves _ _ _).ite <| ((keeps_lift kept.breaks _).bind fun _ =>
      keeps_resolveExistingModuleUrl kept _ _).ite (keeps_resolvePackage kept _ _ _)

theorem keeps_resolveInternal (specifier parentUrl : Text) (mode : ModuleResolutionMode) :
    Keeps holds broken (loader.resolveInternal specifier parentUrl mode) :=
  keeps_resolveWith kept (keeps_resolvePackageImport kept
    (keeps_resolveWith kept fun _ _ _ => keeps_lift kept.breaks _)) _ _ _

theorem keeps_moduleFormat (url : Text) : Keeps holds broken (loader.moduleFormat url) :=
  (keeps_lift kept.breaks _).bind fun _ => (keeps_lift kept.breaks _).bind fun _ =>
    (keeps_pure _).ite <|
    (keeps_pure _).ite <| (keeps_pure _).ite <|
      ((keeps_findPackageScope kept _).bind fun _ => keeps_pure _).bind fun _ => keeps_pure _

theorem keeps_analyzeSource (source : VerifiedSource) :
    Keeps holds broken (loader.analyzeSource source) :=
  (keeps_moduleFormat kept _).bind fun _ => (Keeps.when fun _ => keeps_lift kept.breaks _).bind
    fun _ =>
    (keeps_lift kept.breaks _).bind fun _ => (keeps_lift kept.breaks _).bind fun _ => keeps_pure _

end Resolving

section Loads

variable {loader : HolonomyModuleLoader} {holds : Working → Prop}

variable {loadModule : Text → Load PlannedModule}

theorem keeps_loadCached (kept : KeptByEntries holds) (requestedUrl url : Text)
    (cached : PlannedModule) : Keeps holds holds (loader.loadCached requestedUrl url cached) :=
  (keeps_accountModule kept url).bind fun _ => keeps_get.bind fun _ =>
    (Keeps.when fun _ => (keeps_readGrantedSource kept.resolutions _).bind fun _ =>
      Keeps.when fun _ => keeps_lift (fun _ held => held) _).bind fun _ => keeps_pure _

theorem keeps_loadDependency (kept : KeptByEntries holds)
    (loads : ∀ url, Keeps holds holds (loadModule url)) (url : Text)
    (dependency : AnalyzedDependency) :
    Keeps holds holds (loader.loadDependency loadModule url dependency) := by
  have same : ∀ working, holds working → holds working := fun _ held => held
  unfold HolonomyModuleLoader.loadDependency
  split
  · exact (keeps_lift same _).ite (keeps_pure _)
  · refine (keeps_pure _).ite <| (keeps_resolveInternal kept.resolutions _ _ _).bind fun resolved =>
      ?_
    refine Keeps.ite ?_ ?_
    · exact keeps_get.bind fun _ =>
        ((keeps_pure _).ite (keeps_moduleFormat kept.resolutions _)).bind fun _ => keeps_pure _
    · exact (loads resolved).bind fun _ => keeps_get.bind fun _ =>
        (keeps_lift same _).ite (keeps_pure _)

theorem keeps_loadDependencies (kept : KeptByLoading holds) {url : Text}
    (entered : ∀ working, holds working → url ∈ working.transaction.moduleKeys)
    (loads : ∀ url, Keeps holds holds (loadModule url)) (dependencies : List AnalyzedDependency) :
    Keeps holds holds (loader.loadDependencies loadModule url dependencies) := by
  induction dependencies with
  | nil => exact keeps_pure ()
  | cons dependency rest ih =>
    exact (keeps_loadDependency kept.toKeptByEntries loads url dependency).bind fun planned =>
      (keeps_modify fun working held =>
        kept.dependency url planned working held (entered working held)).bind fun _ => ih

theorem keeps_loadSource (kept : KeptByLoading holds)
    (loads : ∀ url other, Keeps (fun working => holds working ∧
      other ∈ working.transaction.moduleKeys) (fun working => holds working ∧
      other ∈ working.transaction.moduleKeys) (loadModule url)) (source : VerifiedSource) :
    Keeps holds holds (loader.loadSource loadModule source) := by
  refine (keeps_accountModule kept.toKeptByEntries _).bind fun _ => ?_
  intro working held
  dsimp only [bind, Asking.get, Foundation.Task.bind]
  cases missing : working.caches.moduleCache.lookup source.canonicalUrl with
  | some cached => exact held
  | none =>
    have analyzed : Keeps _ _ (loader.analyzeSource source) := keeps_analyzeSource
      (kept.toKeptByEntries.withoutModule source.canonicalUrl).resolutions source
    refine ((analyzed working ⟨held, missing⟩).weaken (fun _ _ held => held.1) fun _ _ held =>
      held).bind
      (fun _ _ held => held.1) fun found working held => ?_
    -- From here on the module is entered, and what is below it is loaded with that in hand.
    have entered : Keeps _ _ (loader.loadDependencies loadModule source.canonicalUrl found.2) :=
      keeps_loadDependencies (kept.withModule source.canonicalUrl) (fun working held => held.2)
        (fun url => loads url source.canonicalUrl) found.2
    have begun := entered (enterModule source.canonicalUrl found.1 working)
      ⟨kept.module _ _ _ held.1, mem_moduleKeys_enterModule held.2⟩
    refine (begun.weaken (fun _ _ held => held.1) fun _ _ held => held).bind
      (fun _ _ held => held.1) fun _ _ held => held.1

theorem keeps_loadModuleWithin (depth : ℕ) (url : Text) (kept : KeptByLoading holds) :
    Keeps holds holds (loader.loadModuleWithin depth url) := by
  induction depth generalizing url holds with
  | zero => exact keeps_throw (fun _ held => held) _
  | succ depth ih =>
    unfold HolonomyModuleLoader.loadModuleWithin
    refine keeps_get.bind fun working => ?_
    dsimp only
    split
    · exact keeps_loadCached kept.toKeptByEntries _ _ _
    · split
      · exact (keeps_accountModule kept.toKeptByEntries _).bind fun _ =>
          (keeps_modify (kept.module _ _)).bind fun _ => keeps_pure _
      · refine (keeps_readVerifiedSource kept.toKeptByEntries _ _).bind fun read => ?_
        cases read with
        | none => exact keeps_lift (fun _ held => held) _
        | some source =>
          exact keeps_loadSource kept (fun url other => ih url (kept.withModule other)) source

theorem keeps_operation (kept : KeptByLoading holds) (call : LoaderCall) :
    Keeps holds holds (loader.operation call) := by
  have same : ∀ working, holds working → holds working := fun _ held => held
  have resolves : ∀ specifier parentUrl mode,
      Keeps holds holds (loader.resolveInternal specifier parentUrl mode) :=
    keeps_resolveInternal kept.toKeptByEntries.resolutions
  cases call with
  | resolve specifier parentUrl mode =>
    exact (keeps_lift same _).bind fun _ => (resolves _ _ _).bind fun _ => keeps_pure _
  | load canonicalUrl =>
    exact (keeps_lift same _).bind fun _ => (keeps_loadModuleWithin _ _ kept).bind fun _ =>
      keeps_pure _
  | createPlan specifier parentUrl mode =>
    exact (keeps_lift same _).bind fun _ => (resolves _ _ _).bind fun _ =>
      (keeps_loadModuleWithin _ _ kept).bind fun _ => keeps_pure _

end Loads

end Holonomy.Modules
