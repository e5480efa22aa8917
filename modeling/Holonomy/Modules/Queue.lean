import Holonomy.Foundation.Search
import Holonomy.Modules.Resolution
import Holonomy.Foundation.Machine

/-!
# The queue of transactions

A call waits until the calls before it have ended. Then it runs in a transaction of its own, from
one read of the host to the next; a call that fails is undone.
-/

namespace Holonomy.Modules

open Foundation

/-! ## Loading

A module is entered into the cache before the modules that it depends on are loaded, so that modules
may depend on each other; each dependency is added to the entry when it has been loaded.
-/

def interopForFormat : PlannedModuleFormat → ModuleDependencyInterop
  | .commonjs => .commonjsNamespace
  | .synthetic => .syntheticNamespace
  | _ => .moduleNamespace

def ModuleDependencyKind.mode : ModuleDependencyKind → ModuleResolutionMode
  | .require => .require
  | .requireResolve => .require
  | _ => .import

def ModuleDependency.followed (dependency : ModuleDependency) : Option Text :=
  if dependency.kind = .requireResolve then none else dependency.resolvedUrl

namespace HolonomyModuleLoader

variable (loader : HolonomyModuleLoader)

section Modules

def findPackageType (url : Text) : Load PackageType := do
  let scope ← loader.findPackageScope url
  pure ((scope.map ParsedPackage.type).getD .commonjs)

def moduleFormat (url : Text) : Load PlannedModuleFormat := do
  Asking.lift (loader.assertSupportedModuleExtension url)
  let extension ← Asking.lift (loader.pathExtension url)
  if extension = js ".mjs" then pure .module
  else if extension = js ".cjs" then pure .commonjs
  else if extension = js ".json" then pure .json
  else do
    let type ← loader.findPackageType url
    pure (if type = .module then .module else .commonjs)

def checkAnalysis (analysis : ModuleSourceAnalysis) (url : Text) :
    Except HolonomyModuleLoaderError Unit :=
  if analysis.dependencies.length > loader.limits.maxDependenciesPerModule then
    .error (resourceExhausted url)
  else if analysis.usesDlopen then failUrl .nativeAddonUnsupported url
  else .ok ()

def analyzeSource (source : VerifiedSource) : Load (PlannedModule × List AnalyzedDependency) := do
  let format ← loader.moduleFormat source.canonicalUrl
  Asking.when (format = .json ∧ (JsonValue.parse loader.numbers source.source).isNone)
    (Asking.lift (failUrl .sourceInvalid source.canonicalUrl))
  let analysis ← Asking.lift
    (loader.analyzeModuleSource source.source format source.canonicalUrl loader.limits)
  Asking.lift (loader.checkAnalysis analysis source.canonicalUrl)
  pure (⟨[], analysis.exportNames, format, some source.sha256, some source.source,
    source.canonicalUrl⟩, analysis.dependencies)

def resolvedFormat (url : Text) : Load PlannedModuleFormat :=
  if loader.isSynthetic url then pure .synthetic else loader.moduleFormat url

def loadDependency (loadModule : Text → Load PlannedModule) (url : Text)
    (dependency : AnalyzedDependency) : Load ModuleDependency :=
  match dependency.specifier with
  | none =>
    if dependency.kind = .require ∨ dependency.kind = .requireResolve then
      Asking.lift (failUrl .dynamicRequireUnsupported url)
    else pure ⟨none, dependency.kind, none, none⟩
  | some specifier =>
    if dependency.kind = .dynamicImport ∧ ¬ loader.captureDynamicImports then
      pure ⟨none, dependency.kind, none, some specifier⟩
    else do
      let resolvedUrl ← loader.resolveInternal specifier url dependency.kind.mode
      if dependency.kind = .requireResolve then do
        let working ← Asking.get
        let canonicalUrl := working.caches.knownCanonicalUrl resolvedUrl
        let format ← loader.resolvedFormat canonicalUrl
        pure ⟨some (interopForFormat format), dependency.kind, some canonicalUrl, some specifier⟩
      else do
        let target ← loadModule resolvedUrl
        let working ← Asking.get
        let canonicalUrl := working.caches.knownCanonicalUrl target.url
        if dependency.kind = .require ∧ target.format = .module then
          Asking.lift (failUrl .requireEsm canonicalUrl)
        else
          pure ⟨some (interopForFormat target.format), dependency.kind, some canonicalUrl,
            some specifier⟩

def loadDependencies (loadModule : Text → Load PlannedModule) (url : Text) :
    List AnalyzedDependency → Load Unit
  | [] => pure ()
  | dependency :: rest => do
    let planned ← loader.loadDependency loadModule url dependency
    pushDependency url planned
    loadDependencies loadModule url rest

def loadCached (requestedUrl url : Text) (cached : PlannedModule) : Load PlannedModule := do
  accountModule loader url
  let working ← Asking.get
  Asking.when (cached.format ≠ .synthetic ∧ working.caches.NeedsGrant requestedUrl) do
    let granted ← loader.readGrantedSource requestedUrl
    Asking.when (granted.canonicalUrl ≠ url)
      (Asking.lift (failUrl .sourceInvalid requestedUrl))
  pure cached

def syntheticExports (name : Text) : Option (List Text) :=
  (loader.syntheticNodeModules.find? fun entry => entry.1 = name).map Prod.snd

/-- An own module of the engine. -/
def loadSynthetic (url : Text) (exportNames : List Text) : Load PlannedModule := do
  accountModule loader url
  let module : PlannedModule := ⟨[], (Precedence.ofLinear Text).sort exportNames.eraseDups,
    .synthetic, none, none, url⟩
  publishModule url module
  pure module

def loadSource (loadModule : Text → Load PlannedModule) (source : VerifiedSource) :
    Load PlannedModule := do
  accountModule loader source.canonicalUrl
  let working ← Asking.get
  match working.caches.moduleCache.lookup source.canonicalUrl with
  | some cached => pure cached
  | none => do
    let (module, dependencies) ← loader.analyzeSource source
    publishModule source.canonicalUrl module
    loader.loadDependencies loadModule source.canonicalUrl dependencies
    let working ← Asking.get
    pure ((working.caches.moduleCache.lookup source.canonicalUrl).getD module)

/-- Load a module, at most so deep. A module below another is charged after it, so that no more
modules lie below each other than may be charged. -/
def loadModuleWithin : ℕ → Text → Load PlannedModule
  | 0, url => Asking.throw (resourceExhausted url)
  | depth + 1, requestedUrl => do
    let working ← Asking.get
    let url := working.caches.knownCanonicalUrl requestedUrl
    match working.caches.moduleCache.lookup url with
    | some cached => loader.loadCached requestedUrl url cached
    | none =>
      match loader.syntheticExports url with
      | some exportNames => loader.loadSynthetic url exportNames
      | none => do
        match ← loader.readVerifiedSource requestedUrl .module with
        | none => Asking.lift (failUrl .notFound url)
        | some source => loader.loadSource (loadModuleWithin depth) source

def loadModule : Text → Load PlannedModule := loader.loadModuleWithin (loader.limits.maxModules + 1)

end Modules

end HolonomyModuleLoader

section Plans

def Caches.dependencies (caches : Caches) (url : Text) : Option (List Text) :=
  (caches.moduleCache.lookup url).map fun module =>
    module.dependencies.filterMap ModuleDependency.followed

def Caches.dependencyCount (caches : Caches) : ℕ :=
  ((caches.moduleCache.entries.map fun entry => entry.2.dependencies.length)).sum

def Caches.collectReachableModules (caches : Caches) (entryUrl : Text) : List Text :=
  search caches.dependencies (1 + caches.dependencyCount) [entryUrl] []

/-- A plan. -/
structure ModulePlan where
  entryUrl : Text
  modules : List PlannedModule
  rootUrl : Text
  deriving DecidableEq

def Caches.plan (caches : Caches) (rootUrl entryUrl : Text) : ModulePlan where
  entryUrl := entryUrl
  modules := ((Precedence.ofLinear Text).sort (caches.collectReachableModules entryUrl)).filterMap
    caches.moduleCache.lookup
  rootUrl := rootUrl

end Plans

section Calls

/-- A call of the loader. -/
inductive LoaderCall where
  | resolve (specifier : Text) (parentUrl : Option Text) (mode : ModuleResolutionMode)
  | load (canonicalUrl : Text)
  | createPlan (specifier : Text) (parentUrl : Option Text) (mode : ModuleResolutionMode)
  deriving DecidableEq

/-- What a call has found when it has asked for everything. -/
inductive Begun where
  | resolved (url : Text)
  | loaded (module : PlannedModule)
  | entry (url : Text)
  deriving DecidableEq

/-- What a call returns. -/
inductive LoaderResult where
  | resolved (url : Text)
  | loaded (module : PlannedModule)
  | planned (plan : ModulePlan)
  deriving DecidableEq

namespace HolonomyModuleLoader

variable (loader : HolonomyModuleLoader)

/-- The module that asks, unless another is named. -/
def entryParent (parentUrl : Option Text) : Except HolonomyModuleLoaderError Text :=
  match parentUrl with
  | some parentUrl => .ok parentUrl
  | none => loader.fileUrl (js "__entry__.mjs") loader.rootUrl

def loadedUrl (canonicalUrl : Text) : Except HolonomyModuleLoaderError Text :=
  if loader.isSynthetic canonicalUrl ∨ hasSyntheticScheme canonicalUrl then
    loader.resolveSynthetic canonicalUrl
  else loader.canonicalizeModuleUrl canonicalUrl loader.rootUrl false

def operation : LoaderCall → Load Begun
  | .resolve specifier parentUrl mode => do
    let parent ← Asking.lift (loader.entryParent parentUrl)
    let url ← loader.resolveInternal specifier parent mode
    pure (.resolved url)
  | .load canonicalUrl => do
    let url ← Asking.lift (loader.loadedUrl canonicalUrl)
    let module ← loader.loadModule url
    pure (.loaded module)
  | .createPlan specifier parentUrl mode => do
    let parent ← Asking.lift (loader.entryParent parentUrl)
    let url ← loader.resolveInternal specifier parent mode
    let entry ← loader.loadModule url
    pure (.entry entry.url)

/-- What a call returns in the end. -/
def finish (caches : Caches) : Begun → LoaderResult
  | .resolved url => .resolved url
  | .loaded module => .loaded module
  | .entry url => .planned (caches.plan loader.rootUrl url)

end HolonomyModuleLoader

end Calls

/-- A call in its transaction. -/
abbrev Transaction := Task HostRead HostAnswer Working HolonomyModuleLoaderError Begun

structure ActiveCall where
  call : LoaderCall
  answers : List HostAnswer
  task : Transaction

/-- A call that has ended. -/
structure FinishedCall where
  call : LoaderCall
  answers : List HostAnswer
  result : Except HolonomyModuleLoaderError LoaderResult

/-- The state of a loader. -/
structure LoaderState where
  /-- What is in the caches while no call is running. -/
  caches : Caches
  active : Option ActiveCall
  queue : List LoaderCall
  /-- The host is being asked and has not returned yet. -/
  invokingHostPort : Bool
  finished : List FinishedCall
  admitted : List LoaderCall

/-- What happens to a loader. -/
inductive LoaderEvent where
  | call (call : LoaderCall)
  | start
  | returned
  | answer (answer : HostAnswer)
  | settle

/-- A call that begins or goes on. -/
def LoaderState.resume (state : LoaderState) (active : ActiveCall) : LoaderState :=
  { state with active := some active, invokingHostPort := active.task.isAsking }

def FinishedCall.rejected (finished : FinishedCall) : Bool :=
  match finished.result with
  | .ok _ => false
  | .error _ => true

namespace HolonomyModuleLoader

variable (loader : HolonomyModuleLoader)

def begin (call : LoaderCall) (caches : Caches) : Transaction :=
  loader.operation call ⟨caches, LoaderTransaction.new⟩

def settled (result : Except HolonomyModuleLoaderError Begun) (working : Working) :
    Caches × Except HolonomyModuleLoaderError LoaderResult :=
  match result with
  | .ok begun => (working.caches, .ok (loader.finish working.caches begun))
  | .error error => (rollbackTransaction working, .error error)

def step (state : LoaderState) : LoaderEvent → Option LoaderState
  | .call call =>
    if state.invokingHostPort then some state
    else some { state with
      queue := state.queue ++ [call]
      admitted := state.admitted ++ [call] }
  | .start =>
    match state.active, state.queue with
    | none, call :: rest =>
      some ({ state with queue := rest }.resume ⟨call, [], loader.begin call state.caches⟩)
    | _, _ => none
  | .returned =>
    if state.invokingHostPort then some { state with invokingHostPort := false } else none
  | .answer answer =>
    match state.active with
    | some ⟨call, answers, .ask _ _ resume⟩ =>
      some (state.resume ⟨call, answers ++ [answer], resume answer⟩)
    | _ => none
  | .settle =>
    match state.active with
    | some ⟨call, answers, .done result working⟩ =>
      some { state with
        caches := (loader.settled result working).1
        active := none
        finished := state.finished ++ [⟨call, answers, (loader.settled result working).2⟩] }
    | _ => none

def machine : Machine LoaderState LoaderEvent where
  start := ⟨Caches.new, none, [], false, [], []⟩
  step := loader.step

end HolonomyModuleLoader

/-- The caches without what the running call has done. -/
def LoaderState.settledCaches (state : LoaderState) : Caches :=
  match state.active with
  | none => state.caches
  | some active => rollbackTransaction active.task.state

end Holonomy.Modules
