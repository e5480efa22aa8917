import Holonomy.Modules.Charges
import Holonomy.Modules.Rollback

/-!
# Plans and limits

A module that a call loads is charged with everything that it depends on, so that a plan of such
modules stays within the limits. A module that an earlier call has loaded is charged alone when it
is taken from the cache: neither its bytes nor the modules that it depends on are.
-/

namespace Holonomy.Modules

open Foundation Asking

section Modules

variable {loader : HolonomyModuleLoader} {start working : Working} {url : Text}

structure HasLoaded (loader : HolonomyModuleLoader) (start : Working) (module : PlannedModule)
    (working : Working) : Prop where
  charged : Charged loader working
  grown : Grown start working
  among : module.url ∈ working.transaction.moduleUrls
  noAlias : working.caches.aliasCache.lookup module.url = none

variable {caches : Caches}

theorem Sound.noAlias (sound : Sound caches) (known : (caches.sourceCache.lookup url).isSome) :
    caches.aliasCache.lookup url = none := by
  cases found : caches.aliasCache.lookup url with
  | none => rfl
  | some target =>
    rw [(sound.aliased url target found).1] at known
    cases known

theorem Sound.noAlias_known (sound : Sound caches) (url : Text) :
    caches.aliasCache.lookup (caches.knownCanonicalUrl url) = none := by
  unfold Caches.knownCanonicalUrl
  cases found : caches.aliasCache.lookup url with
  | none => exact found
  | some target => exact sound.noAlias (sound.aliased url target found).2

def accountedModule (url : Text) (working : Working) : Working :=
  if url ∈ working.transaction.moduleUrls then working else chargeModule url working

theorem returns_accountModule {may : HostRead → Working → Prop} (charged : Charged loader start) :
    Returns may (fun working => working = start) (accountModule loader url) fun _ working =>
      working = accountedModule url start ∧
        working.transaction.moduleUrls.length ≤ loader.limits.maxModules := by
  refine returns_get.bind fun value => ?_
  unfold accountedModule
  refine Returns.starting (fun working => value = start ∧ working = start)
    (by rintro working ⟨rfl, same⟩; exact ⟨same, same⟩) (Returns.ite ?_ ?_)
  · intro already
    refine returns_pure ?_
    rintro state ⟨rfl, rfl⟩
    exact ⟨(if_pos already).symm, charged.modules⟩
  · intro fresh
    refine Returns.via (fun _ state => value = start ∧ state = chargeModule url start)
      (returns_modify ?_) fun _ => returns_get.bind fun _ => Returns.when
        (fun _ => returns_throw _) ?_
    · rintro state ⟨rfl, rfl⟩
      exact ⟨rfl, rfl⟩
    · rintro small state ⟨rfl, rfl, rfl⟩
      exact ⟨(if_neg fresh).symm, not_lt.mp small⟩

theorem Charged.module (charged : Charged loader working)
    (fits : (accountedModule url working).transaction.moduleUrls.length ≤
      loader.limits.maxModules) : Charged loader (accountedModule url working) := by
  unfold accountedModule at fits ⊢
  by_cases already : url ∈ working.transaction.moduleUrls
  · rw [if_pos already]
    exact charged
  · rw [if_neg already] at fits ⊢
    refine ⟨charged.sound, ?_, fits, charged.sourcesOnce, charged.total, charged.bytes,
      charged.known, ?_⟩
    · show (working.transaction.moduleUrls ++ [url]).Nodup
      exact nodup_concat charged.modulesOnce already
    · intro key entered
      obtain ⟨here, rest⟩ := charged.entered key entered
      refine ⟨List.mem_append_left _ here, fun module isModule => ?_⟩
      obtain ⟨sources, follows⟩ := rest module isModule
      exact ⟨sources, fun other among => List.mem_append_left _ (follows other among)⟩

theorem accountedModule_spec (url : Text) (working : Working) :
    url ∈ (accountedModule url working).transaction.moduleUrls ∧
      Grown working (accountedModule url working) ∧
      (accountedModule url working).caches = working.caches ∧
      (accountedModule url working).transaction.sourceBytes =
        working.transaction.sourceBytes := by
  unfold accountedModule
  split
  case isTrue already => exact ⟨already, .refl working, rfl, rfl⟩
  case isFalse =>
    exact ⟨List.mem_append_right _ (List.mem_singleton.mpr rfl), ⟨fun _ among =>
      List.mem_append_left _ among, fun _ => id, fun _ => id, fun _ source known =>
        ⟨source, known, rfl, rfl⟩⟩, rfl, rfl⟩

theorem Charged.enterModule (charged : Charged loader working) {module : PlannedModule}
    (keyed : module.url = url) (alone : module.dependencies = [])
    (among : url ∈ working.transaction.moduleUrls)
    (contents : ∀ text, module.source = some text → working.HasCharged url ∧
      ∃ source, working.caches.sourceCache.lookup url = some source ∧ source.source = text ∧
        module.sha256 = some source.sha256) :
    Charged loader (Modules.enterModule url module working) ∧
      Grown working (Modules.enterModule url module working) := by
  unfold Modules.enterModule
  by_cases already : (working.caches.moduleCache.lookup url).isSome
  · rw [if_pos already]
    exact ⟨charged, .refl working⟩
  · rw [if_neg already]
    have missing := lookup_none already
    refine ⟨⟨⟨charged.sound.source, charged.sound.aliased, ?_⟩, charged.modulesOnce,
      charged.modules,
      charged.sourcesOnce, charged.total, charged.bytes, charged.known, ?_⟩, ⟨fun _ => id,
      fun _ among => List.mem_append_left _ among, fun _ => id, fun _ source known =>
        ⟨source, known, rfl, rfl⟩⟩⟩
    · intro key other found
      by_cases here : key = url
      · rw [here, Finmap.lookup_insert] at found
        rw [← Option.some.inj found, here]
        exact ⟨keyed, fun text isText => (contents text isText).2⟩
      · rw [Finmap.lookup_insert_of_ne _ here] at found
        exact charged.sound.module key other found
    · intro key entered
      by_cases here : key = url
      · rw [here]
        refine ⟨among, fun other found => ?_⟩
        rw [Finmap.lookup_insert] at found
        rw [← Option.some.inj found, alone]
        refine ⟨fun hasSource => ?_, fun other none => absurd none List.not_mem_nil⟩
        obtain ⟨text, isText⟩ := Option.isSome_iff_exists.mp hasSource
        exact (contents text isText).1
      · have before : key ∈ working.transaction.moduleKeys :=
          (List.mem_append.mp entered).resolve_right fun new => here (List.mem_singleton.mp new)
        obtain ⟨isCharged, rest⟩ := charged.entered key before
        refine ⟨isCharged, fun other found => ?_⟩
        rw [Finmap.lookup_insert_of_ne _ here] at found
        exact rest other found

theorem Charged.addDependency (charged : Charged loader working) {dependency : ModuleDependency}
    (follows : ∀ other, dependency.followed = some other → other ∈ working.transaction.moduleUrls) :
    Charged loader (Modules.addDependency url dependency working) ∧
      Grown working (Modules.addDependency url dependency working) := by
  unfold Modules.addDependency
  cases found : working.caches.moduleCache.lookup url with
  | none => exact ⟨charged, .refl working⟩
  | some module =>
    refine ⟨⟨⟨charged.sound.source, charged.sound.aliased, ?_⟩, charged.modulesOnce,
      charged.modules,
      charged.sourcesOnce, charged.total, charged.bytes, charged.known, ?_⟩, ⟨fun _ => id,
      fun _ => id, fun _ => id, fun _ source known => ⟨source, known, rfl, rfl⟩⟩⟩
    · intro key other there
      by_cases here : key = url
      · rw [here, Finmap.lookup_insert] at there
        rw [← Option.some.inj there, here]
        exact charged.sound.module url module found
      · rw [Finmap.lookup_insert_of_ne _ here] at there
        exact charged.sound.module key other there
    · intro key before
      obtain ⟨isCharged, rest⟩ := charged.entered key before
      refine ⟨isCharged, fun other there => ?_⟩
      by_cases here : key = url
      · rw [here, Finmap.lookup_insert] at there
        rw [← Option.some.inj there]
        rw [here] at rest ⊢
        obtain ⟨sources, old⟩ := rest module found
        refine ⟨sources, fun other among => ?_⟩
        rw [List.filterMap_append, List.mem_append] at among
        rcases among with before | new
        · exact old other before
        · obtain ⟨added, isAdded, isFollowed⟩ := List.mem_filterMap.mp new
          rw [List.mem_singleton.mp isAdded] at isFollowed
          exact follows other isFollowed
      · rw [Finmap.lookup_insert_of_ne _ here] at there
        exact rest other there

end Modules

section Loading

variable {loader : HolonomyModuleLoader} {start : Working}

/-- Nothing is asked that must not be asked. -/
abbrev anything : HostRead → Working → Prop := fun _ _ => True

theorem returns_loadCached (charged : Charged loader start) {requestedUrl : Text}
    {cached : PlannedModule} (found : start.caches.moduleCache.lookup
      (start.caches.knownCanonicalUrl requestedUrl) = some cached) :
    Returns anything (fun working => working = start)
      (loader.loadCached requestedUrl (start.caches.knownCanonicalUrl requestedUrl) cached)
      (HasLoaded loader start) := by
  set url := start.caches.knownCanonicalUrl requestedUrl with urlEq
  have keyed := (charged.sound.module url cached found).1
  unfold HolonomyModuleLoader.loadCached
  obtain ⟨among, grown, sameCaches, _⟩ := accountedModule_spec url start
  refine (returns_accountModule charged).bind fun _ => returns_get.bind fun value => ?_
  rintro working ⟨rfl, rfl, fits⟩
  have after := charged.module fits
  refine Returns.starting (fun state => state = accountedModule url start) (fun _ same => same)
    (Returns.via (fun _ state => HasLoaded loader start cached state) (Returns.when ?_ ?_)
      fun _ => returns_pure fun _ loaded => loaded) _ rfl
  · intro _
    refine Returns.via (HasRead loader (accountedModule url start)) ?_ fun granted =>
      Returns.when (fun _ => returns_error _) ?_
    · refine Returns.bind (((returns_readVerifiedSource after requestedUrl .module).asking
        fun _ _ _ => trivial)) fun read => ?_
      cases read with
      | none => exact returns_error _
      | some granted => exact returns_pure fun _ read => read.2.2 granted rfl
    · intro same working read
      rw [not_not] at same
      refine ⟨read.charged, grown.trans read.onlyRead.toGrown, ?_, ?_⟩
      · exact read.onlyRead.moduleUrls _ (keyed ▸ among)
      · rw [keyed, ← same]
        refine read.charged.sound.noAlias ?_
        rw [read.held]
        rfl
  · rintro _ working rfl
    refine ⟨after, grown, keyed ▸ among, ?_⟩
    rw [sameCaches, keyed]
    exact charged.sound.noAlias_known requestedUrl

theorem returns_loadSynthetic (charged : Charged loader start) (requestedUrl : Text)
    (exportNames : List Text) :
    Returns anything (fun working => working = start)
      (loader.loadSynthetic (start.caches.knownCanonicalUrl requestedUrl) exportNames)
      (HasLoaded loader start) := by
  set url := start.caches.knownCanonicalUrl requestedUrl with urlEq
  obtain ⟨among, grown, sameCaches, _⟩ := accountedModule_spec url start
  refine (returns_accountModule charged).bind fun _ => ?_
  rintro working ⟨rfl, fits⟩
  set module : PlannedModule := ⟨[], (Precedence.ofLinear Text).sort exportNames.eraseDups,
    .synthetic, none, none, url⟩ with moduleEq
  have keyed : module.url = url := rfl
  have alone : module.dependencies = [] := rfl
  obtain ⟨entered, further⟩ := (charged.module fits).enterModule keyed alone among
    fun text isText => by cases isText
  refine Returns.via (fun _ state => HasLoaded loader start module state)
    (returns_modify ?_) (fun _ => returns_pure fun _ loaded => loaded) _ rfl
  rintro working rfl
  refine ⟨entered, grown.trans further, further.moduleUrls _ among, ?_⟩
  have aliases : (enterModule url module (accountedModule url start)).caches.aliasCache =
      start.caches.aliasCache := by
    unfold enterModule
    rw [sameCaches]
    split
    · rw [sameCaches]
    · rfl
  show (enterModule url module (accountedModule url start)).caches.aliasCache.lookup url = none
  rw [aliases]
  exact charged.sound.noAlias_known requestedUrl

theorem returns_analyzeSource {holds broken : Working → Prop}
    (kept : KeptByResolution loader holds broken) (source : VerifiedSource) :
    Returns (fun _ => holds) holds (loader.analyzeSource source) fun found working =>
      holds working ∧ found.1.url = source.canonicalUrl ∧ found.1.dependencies = [] ∧
        found.1.source = some source.source ∧ found.1.sha256 = some source.sha256 := by
  unfold HolonomyModuleLoader.analyzeSource
  refine (keeps_moduleFormat kept source.canonicalUrl).returns.bind fun format =>
    Returns.via (fun _ => holds) (Returns.when (fun _ => returns_error _) fun _ _ held => held)
      fun _ => (returns_lift _).bind fun analysis => (returns_lift _).bind fun _ => returns_pure ?_
  rintro working ⟨_, _, held⟩
  exact ⟨held, rfl, rfl, rfl, rfl⟩

def Loads (loader : HolonomyModuleLoader) (loadModule : Text → Load PlannedModule) : Prop :=
  ∀ start url, Charged loader start →
    Returns anything (fun working => working = start) (loadModule url) (HasLoaded loader start)

variable {loadModule : Text → Load PlannedModule}

section

variable (loads : Loads loader loadModule)

include loads

theorem returns_loadDependency (charged : Charged loader start)
    (url : Text) (dependency : AnalyzedDependency) :
    Returns anything (fun working => working = start)
      (loader.loadDependency loadModule url dependency) fun planned working =>
        Charged loader working ∧ Grown start working ∧ ∀ other,
          planned.followed = some other → other ∈ working.transaction.moduleUrls := by
  have nothing : ∀ planned : ModuleDependency, planned.resolvedUrl = none → ∀ working,
      working = start → Charged loader working ∧ Grown start working ∧ ∀ other,
        planned.followed = some other → other ∈ working.transaction.moduleUrls := by
    rintro planned unresolved working rfl
    refine ⟨charged, .refl _, fun other isFollowed => ?_⟩
    unfold ModuleDependency.followed at isFollowed
    rw [unresolved, ite_self] at isFollowed
    cases isFollowed
  unfold HolonomyModuleLoader.loadDependency
  cases dependency.specifier with
  | none => exact Returns.ite (fun _ => returns_error _) fun _ => returns_pure (nothing _ rfl)
  | some specifier =>
    refine Returns.ite (fun _ => returns_pure (nothing _ rfl)) fun _ => ?_
    have resolves : Returns _ _ (loader.resolveInternal specifier url dependency.kind.mode) _ :=
      (keeps_resolveInternal (keptByResolution_charged start) specifier url
        dependency.kind.mode).returns
    refine Returns.bind ((resolves.starting _ ?_).asking fun _ _ _ => trivial) fun resolved => ?_
    · rintro working rfl
      exact ⟨charged, .refl _⟩
    refine Returns.ite ?_ ?_
    · intro isResolve
      refine returns_get.bind fun value => ?_
      have formats : Returns anything (fun working => Charged loader working ∧
        OnlyRead start working)
          (loader.resolvedFormat (value.caches.knownCanonicalUrl resolved))
          fun _ working => Charged loader working ∧ OnlyRead start working :=
        (Keeps.ite (keeps_pure _)
          (keeps_moduleFormat (keptByResolution_charged start) _)).returns.asking
            fun _ _ _ => trivial
      refine Returns.starting _ (fun working held => held.2) (formats.bind fun format =>
        returns_pure ?_)
      rintro working ⟨after, onlyRead⟩
      refine ⟨after, onlyRead.toGrown, fun other isFollowed => ?_⟩
      unfold ModuleDependency.followed at isFollowed
      rw [if_pos isResolve] at isFollowed
      cases isFollowed
    · intro _ working held
      refine ((loads working resolved held.1).bind fun target => returns_get.bind fun value =>
        Returns.ite (fun _ => returns_error _) fun _ => returns_pure ?_) working rfl
      rintro state ⟨rfl, loaded⟩
      refine ⟨loaded.charged, held.2.toGrown.trans loaded.grown, fun other isFollowed => ?_⟩
      unfold ModuleDependency.followed at isFollowed
      have same : other = target.url := by
        have known : value.caches.knownCanonicalUrl target.url = target.url := by
          unfold Caches.knownCanonicalUrl
          rw [loaded.noAlias, Option.getD_none]
        split at isFollowed
        · cases isFollowed
        · exact (Option.some.inj isFollowed).symm.trans known
      rw [same]
      exact loaded.among

theorem returns_loadDependencies {url : Text}
    (dependencies : List AnalyzedDependency) (charged : Charged loader start)
    (entered : url ∈ start.transaction.moduleKeys) :
    Returns anything (fun working => working = start)
      (loader.loadDependencies loadModule url dependencies) fun _ working =>
        Charged loader working ∧ Grown start working := by
  induction dependencies generalizing start with
  | nil =>
    refine returns_pure ?_
    rintro working rfl
    exact ⟨charged, .refl _⟩
  | cons dependency rest ih =>
    refine (returns_loadDependency loads charged url dependency).bind fun planned => ?_
    rintro working ⟨charged, grown, follows⟩
    have still := grown.moduleKeys url entered
    obtain ⟨after, further⟩ := charged.addDependency follows
    refine (Returns.via (fun _ state => state = addDependency url planned working)
      (returns_modify fun state same => by rw [same]) fun _ => ?_) working rfl
    exact (ih after (further.moduleKeys url still)).weaken (fun _ same => same)
      fun _ _ done => ⟨done.1, grown.trans (further.trans done.2)⟩

theorem returns_loadSource {source : VerifiedSource}
    {before : Working} (read : HasRead loader before source start) :
    Returns anything (fun working => working = start) (loader.loadSource loadModule source)
      (HasLoaded loader start) := by
  set url := source.canonicalUrl with urlEq
  obtain ⟨among, grown, sameCaches, sameBytes⟩ := accountedModule_spec url start
  have hasSource : ∀ {state : Working}, Grown start state →
      (state.caches.sourceCache.lookup url).isSome := by
    intro state further
    obtain ⟨later, there, _⟩ := further.contents url source read.held
    rw [there]
    rfl
  refine (returns_accountModule read.charged).bind fun _ => returns_get.bind fun value => ?_
  rintro working ⟨rfl, rfl, fits⟩
  have charged := read.charged.module fits
  cases found : (accountedModule url start).caches.moduleCache.lookup url with
  | some cached =>
    have keyed := (charged.sound.module url cached found).1
    intro value same
    cases same
    exact ⟨charged, grown, keyed ▸ among, keyed ▸ charged.sound.noAlias (hasSource grown)⟩
  | none =>
    have analyzed : Returns _ (fun working => Charged loader working ∧
        OnlyRead (accountedModule url start) working) (loader.analyzeSource source) _ :=
      returns_analyzeSource (keptByResolution_charged (accountedModule url start)) source
    refine ((analyzed.asking fun _ _ _ => trivial).bind fun found => ?_) _ ⟨charged, .refl _⟩
    rintro working ⟨⟨charged, onlyRead⟩, keyed, alone, text, digest⟩
    have further := grown.trans onlyRead.toGrown
    obtain ⟨later, there, sameText, sameDigest⟩ := further.contents url source read.held
    have isCharged := onlyRead.moduleUrls url among
    have contents : ∀ content, found.1.source = some content → working.HasCharged url ∧
        ∃ other, working.caches.sourceCache.lookup url = some other ∧ other.source = content ∧
          found.1.sha256 = some other.sha256 := by
      intro content isContent
      rw [text] at isContent
      exact ⟨further.sources url read.hasCharged, later, there,
        sameText.trans (Option.some.inj isContent), digest.trans (congrArg some sameDigest.symm)⟩
    obtain ⟨after, entering⟩ := charged.enterModule keyed alone isCharged contents
    have isEntered : url ∈ (enterModule url found.1 working).transaction.moduleKeys := by
      refine mem_moduleKeys_enterModule ?_
      rw [onlyRead.moduleCache]
      assumption
    refine (Returns.via (fun _ state => state = enterModule url found.1 working)
      (returns_modify fun state same => by rw [same]) fun _ =>
        (returns_loadDependencies loads found.2 after isEntered).bind fun _ =>
          returns_get.bind fun value => returns_pure ?_) working rfl
    rintro state ⟨rfl, charged, growing⟩
    have whole := further.trans (entering.trans growing)
    have sameUrl : ((value.caches.moduleCache.lookup url).getD found.1).url = url := by
      cases there : value.caches.moduleCache.lookup url with
      | none => exact keyed
      | some module => exact (charged.sound.module url module there).1
    refine ⟨charged, whole, ?_, ?_⟩
    · rw [sameUrl]
      exact growing.moduleUrls _ (entering.moduleUrls _ isCharged)
    · rw [sameUrl]
      exact charged.sound.noAlias (hasSource whole)

end

theorem loads_loadModuleWithin (depth : ℕ) : Loads loader (loader.loadModuleWithin depth) := by
  induction depth with
  | zero => exact fun _ _ _ => returns_throw _
  | succ depth ih =>
    intro start url charged
    unfold HolonomyModuleLoader.loadModuleWithin
    refine returns_get.bind fun value => ?_
    rintro working ⟨rfl, rfl⟩
    dsimp only
    cases found : value.caches.moduleCache.lookup (value.caches.knownCanonicalUrl url) with
    | some cached => exact returns_loadCached charged found value rfl
    | none =>
      dsimp only
      cases loader.syntheticExports (value.caches.knownCanonicalUrl url) with
      | some exportNames => exact returns_loadSynthetic charged url exportNames value rfl
      | none =>
        refine (((returns_readVerifiedSource charged url .module).asking fun _ _ _ => trivial).bind
          fun read => ?_) value rfl
        cases read with
        | none => exact returns_error _
        | some source =>
          rintro working ⟨_, onlyRead, found⟩
          refine (returns_loadSource ih (found source rfl)).weaken (fun _ same => same)
            (fun _ _ loaded => ?_) working rfl
          exact ⟨loaded.charged, onlyRead.toGrown.trans loaded.grown, loaded.among, loaded.noAlias⟩

end Loading

section Plans

variable {loader : HolonomyModuleLoader}

def ModulePlan.Within (plan : ModulePlan) (limits : HolonomyModuleLoaderLimits) : Prop :=
  plan.modules.length ≤ limits.maxModules ∧ ∃ bytesOf : Text → List UInt8,
    (∀ module ∈ plan.modules, ∀ text, module.source = some text →
      decodeUtf8 (bytesOf module.url) = some text ∧
        module.sha256 = some (Kernel.sha256Hex (bytesOf module.url))) ∧
      ((plan.modules.filter fun module => module.source.isSome).map fun module =>
        (bytesOf module.url).length).sum ≤ limits.maxTotalSourceBytesPerPlan

def Recharged (working : Working) : Prop :=
  ∀ url ∈ working.transaction.moduleUrls, url ∉ working.transaction.moduleKeys →
    ∀ module ∈ working.caches.moduleCache.lookup url,
      (module.source.isSome → url ∈ working.transaction.sourceBytes.map Prod.fst) ∧
      ∀ other ∈ module.dependencies.filterMap ModuleDependency.followed,
        other ∈ working.transaction.moduleUrls

instance : DecidablePred Recharged := fun _ => inferInstanceAs (Decidable (∀ _ ∈ _, _))

variable {working : Working} {entryUrl : Text} {caches : Caches}

theorem Charged.everywhere (charged : Charged loader working) (recharged : Recharged working)
    {url : Text} (among : url ∈ working.transaction.moduleUrls) {module : PlannedModule}
    (found : working.caches.moduleCache.lookup url = some module) :
    (module.source.isSome → working.HasCharged url) ∧
      ∀ other ∈ module.dependencies.filterMap ModuleDependency.followed,
        other ∈ working.transaction.moduleUrls := by
  by_cases entered : url ∈ working.transaction.moduleKeys
  · exact (charged.entered url entered).2 module found
  · exact recharged url among entered module found

theorem Charged.reachable (charged : Charged loader working) (recharged : Recharged working)
    (among : entryUrl ∈ working.transaction.moduleUrls) :
    ∀ url ∈ working.caches.collectReachableModules entryUrl,
      url ∈ working.transaction.moduleUrls := by
  refine search_within ?_ _ _ _ ?_ fun url none => absurd none List.not_mem_nil
  · intro url found here follows other reached
    obtain ⟨module, isModule, rfl⟩ := Option.map_eq_some_iff.mp follows
    exact (charged.everywhere recharged here isModule).2 other reached
  · intro url first
    rw [List.mem_singleton.mp first]
    exact among

theorem sum_le_of_distinct {keys : List Text} (distinct : keys.Nodup) (size : Text → ℕ)
    (entries : List (Text × ℕ)) (among : ∀ key ∈ keys, (key, size key) ∈ entries) :
    (keys.map size).sum ≤ (entries.map Prod.snd).sum := by
  have sublist : (keys.map fun key => (key, size key)).Subperm entries := by
    refine List.subperm_of_subset ?_ fun entry isEntry => ?_
    · refine distinct.map fun first second same => ?_
      exact (Prod.mk.inj same).1
    · obtain ⟨key, isKey, rfl⟩ := List.mem_map.mp isEntry
      exact among key isKey
  obtain ⟨others, perm, fewer⟩ := sublist
  have smaller : (others.map Prod.snd).sum ≤ (entries.map Prod.snd).sum :=
    (fewer.map Prod.snd).sum_le_sum fun _ _ => Nat.zero_le _
  have same : ((keys.map fun key => (key, size key)).map Prod.snd).sum =
      (others.map Prod.snd).sum := ((perm.map Prod.snd).sum_eq).symm
  rw [List.map_map] at same
  exact same.trans_le smaller

theorem Sound.urls_sublist (sound : Sound caches) (urls : List Text) :
    ((urls.filterMap caches.moduleCache.lookup).map PlannedModule.url).Sublist urls := by
  induction urls with
  | nil => exact List.Sublist.slnil
  | cons url rest ih =>
    cases found : caches.moduleCache.lookup url with
    | none =>
      simp only [List.filterMap_cons, found]
      exact ih.cons url
    | some module =>
      simp only [List.filterMap_cons, found, List.map_cons, (sound.module url module found).1]
      exact ih.cons_cons url

theorem Charged.plan_within (charged : Charged loader working) (recharged : Recharged working)
    (among : entryUrl ∈ working.transaction.moduleUrls) :
    (working.caches.plan loader.rootUrl entryUrl).Within loader.limits := by
  set urls := (Precedence.ofLinear Text).sort
    (working.caches.collectReachableModules entryUrl) with urlsEq
  have distinct : urls.Nodup := by
    rw [urlsEq, Precedence.nodup_sort]
    exact nodup_search _ _ _ List.nodup_nil
  have allCharged : ∀ url ∈ urls, url ∈ working.transaction.moduleUrls := by
    intro url isUrl
    rw [urlsEq, Precedence.mem_sort] at isUrl
    exact charged.reachable recharged among url isUrl
  have inPlan : ∀ module ∈ urls.filterMap working.caches.moduleCache.lookup,
      module.url ∈ working.transaction.moduleUrls ∧
        working.caches.moduleCache.lookup module.url = some module := by
    intro module isModule
    obtain ⟨url, isUrl, found⟩ := List.mem_filterMap.mp isModule
    rw [(charged.sound.module url module found).1]
    exact ⟨allCharged url isUrl, found⟩
  have fewUrls := (charged.sound.urls_sublist urls)
  show (urls.filterMap working.caches.moduleCache.lookup).length ≤ _ ∧
    ∃ bytesOf : Text → List UInt8,
    (∀ module ∈ urls.filterMap working.caches.moduleCache.lookup, _) ∧
      (((urls.filterMap working.caches.moduleCache.lookup).filter _).map _).sum ≤ _
  set modules := urls.filterMap working.caches.moduleCache.lookup with modulesEq
  have few : modules.length ≤ loader.limits.maxModules := by
    have shorter : modules.length ≤ urls.length := by
      rw [← List.length_map PlannedModule.url]
      exact fewUrls.length_le
    have within : urls.length ≤ working.transaction.moduleUrls.length :=
      (List.subperm_of_subset distinct allCharged).length_le
    exact shorter.trans (within.trans charged.modules)
  refine ⟨few,
    fun url => ((working.caches.sourceCache.lookup url).map VerifiedSource.bytes).getD [], ?_, ?_⟩
  · intro module isModule text isText
    obtain ⟨source, there, sameText, digest⟩ :=
      (charged.sound.module module.url module (inPlan module isModule).2).2 text isText
    obtain ⟨_, _, sameDigest, decoded⟩ := charged.sound.source module.url source there
    dsimp only
    rw [there, Option.map_some, Option.getD_some, decoded, sameText, digest, sameDigest]
    exact ⟨rfl, rfl⟩
  · set size : Text → ℕ := fun url =>
      (((working.caches.sourceCache.lookup url).map VerifiedSource.bytes).getD []).length
        with sizeEq
    have keysDistinct : ((modules.filter fun module => module.source.isSome).map
        PlannedModule.url).Nodup :=
      (distinct.sublist fewUrls).sublist (List.filter_sublist.map PlannedModule.url)
    have bound := sum_le_of_distinct keysDistinct size working.transaction.sourceBytes (by
        intro key isKey
        obtain ⟨module, isModule, rfl⟩ := List.mem_map.mp isKey
        obtain ⟨inModules, hasSource⟩ := List.mem_filter.mp isModule
        obtain ⟨isCharged, found⟩ := inPlan module inModules
        obtain ⟨entry, isEntry, same⟩ := List.mem_map.mp
          ((charged.everywhere recharged isCharged found).1 hasSource)
        obtain ⟨source, there, length⟩ := charged.known entry isEntry
        have size : size module.url = entry.2 := by
          rw [sizeEq, ← same]
          show (((working.caches.sourceCache.lookup entry.1).map VerifiedSource.bytes).getD
            []).length = _
          rw [there]
          exact length
        rw [size, ← same]
        exact isEntry)
    rw [List.map_map, ← charged.total] at bound
    exact bound.trans charged.bytes

theorem charged_new (sound : Sound caches) : Charged loader ⟨caches, LoaderTransaction.new⟩ :=
  ⟨sound, List.nodup_nil, Nat.zero_le _, List.nodup_nil, rfl, Nat.zero_le _,
    fun _ none => absurd none List.not_mem_nil, fun _ none => absurd none List.not_mem_nil⟩

theorem returns_operation (sound : Sound caches) (call : LoaderCall) :
    Returns anything (fun working => working = ⟨caches, LoaderTransaction.new⟩)
      (loader.operation call) fun begun working => Charged loader working ∧
        ∀ entryUrl, begun = .entry entryUrl → entryUrl ∈ working.transaction.moduleUrls := by
  have charged : Charged loader ⟨caches, LoaderTransaction.new⟩ := charged_new sound
  have resolves : ∀ specifier parent mode, Returns anything
      (fun working => working = ⟨caches, LoaderTransaction.new⟩)
      (loader.resolveInternal specifier parent mode) fun _ working => Charged loader working := by
    intro specifier parent mode
    have kept : Returns _ _ (loader.resolveInternal specifier parent mode) _ :=
      (keeps_resolveInternal (keptByResolution_charged ⟨caches, LoaderTransaction.new⟩) specifier
        parent mode).returns
    refine ((kept.asking fun _ _ _ => trivial).weaken ?_) fun _ _ held => held.1
    rintro working rfl
    exact ⟨charged, .refl _⟩
  have loads : ∀ url, Returns anything (fun working => Charged loader working)
      (loader.loadModule url) fun module working => Charged loader working ∧
        module.url ∈ working.transaction.moduleUrls := by
    intro url working charged
    exact (loads_loadModuleWithin _ working url charged).weaken (fun _ same => same)
      (fun _ _ loaded => ⟨loaded.charged, loaded.among⟩) working rfl
  cases call with
  | resolve specifier parentUrl mode =>
    refine (returns_lift _).bind fun parent => ?_
    refine Returns.starting (fun working => working = ⟨caches, LoaderTransaction.new⟩)
      (fun _ held => held.2) ((resolves specifier parent mode).bind fun _ => returns_pure ?_)
    refine fun _ held => ⟨held, fun entryUrl same => ?_⟩
    cases same
  | load canonicalUrl =>
    refine (returns_lift _).bind fun url => ?_
    refine Returns.starting (fun working => Charged loader working) ?_
      ((loads url).bind fun _ => returns_pure ?_)
    · rintro working ⟨_, rfl⟩
      exact charged
    · refine fun _ held => ⟨held.1, fun entryUrl same => ?_⟩
      cases same
  | createPlan specifier parentUrl mode =>
    refine (returns_lift _).bind fun parent => ?_
    refine Returns.starting (fun working => working = ⟨caches, LoaderTransaction.new⟩)
      (fun _ held => held.2) ((resolves specifier parent mode).bind fun url =>
        (loads url).bind fun entry => returns_pure fun _ held => ⟨held.1, ?_⟩)
    intro entryUrl same
    cases same
    exact held.2

theorem OneByOne.sound {before after : Caches} {calls : List FinishedCall}
    (all : OneByOne loader before calls after) (sound : Sound before) : Sound after := by
  induction all with
  | nil => exact sound
  | resolved ran _ ih =>
    have ends := (returns_operation sound _ _ rfl).answered ran
    exact ih (ends _ rfl).1.sound
  | rejected _ _ ih => exact ih sound

theorem sound_new : Sound Caches.new := by
  have nothing : ∀ {α : Type} (key : Text) (value : α),
      Finmap.lookup key (∅ : Cache α) ≠ some value := by
    intro α key value found
    rw [Finmap.lookup_empty] at found
    cases found
  exact ⟨fun key source found => absurd found (nothing key source),
    fun url target found => absurd found (nothing url target),
    fun key module found => absurd found (nothing key module)⟩

/-- A step that ends a call with a plan ends it with everything charged. -/
def SettlesRecharged (state : LoaderState) : LoaderEvent → Prop
  | .settle =>
    match state.active with
    | some ⟨_, _, .done (.ok (.entry _)) working⟩ => Recharged working
    | _ => True
  | _ => True

instance (state : LoaderState) : DecidablePred (SettlesRecharged state) := fun event => by
  unfold SettlesRecharged
  split
  · split <;> infer_instance
  · infer_instance

/-- In every run in which each plan is made when every module from the cache is charged with its
source and with what it depends on, the plans stay within the limits. -/
theorem plans_within_limits {events : List LoaderEvent} {state : LoaderState}
    (reached : loader.machine.ReachesWhen SettlesRecharged events state) :
    ∀ finished ∈ state.finished, ∀ plan, finished.result = .ok (.planned plan) →
      plan.Within loader.limits := by
  have both : Serial loader state ∧ ∀ finished ∈ state.finished, ∀ plan,
      finished.result = .ok (.planned plan) → plan.Within loader.limits := by
    refine Machine.Leads.keeps reached (fun state => Serial loader state ∧
      ∀ finished ∈ state.finished, ∀ plan, finished.result = .ok (.planned plan) →
        plan.Within loader.limits) ⟨⟨rfl, .nil _, fun active isActive => by cases isActive⟩,
          fun finished none => absurd none List.not_mem_nil⟩ ?_
    rintro state event next ⟨serial, within⟩ recharged stepped
    refine ⟨serial_step serial stepped, ?_⟩
    cases event with
    | settle =>
      simp only [HolonomyModuleLoader.machine, HolonomyModuleLoader.step] at stepped
      split at stepped
      case h_1 call answers result working isActive =>
        cases stepped
        intro finished isFinished plan planned
        rcases List.mem_append.mp isFinished with old | new
        · exact within finished old plan planned
        · rw [List.mem_singleton.mp new] at planned
          have sound := serial.oneByOne.sound sound_new
          have ends := (returns_operation sound _ _ rfl).answered (serial.running _ isActive)
          cases result with
          | error error => cases planned
          | ok begun =>
            cases begun with
            | resolved url => cases planned
            | loaded module => cases planned
            | entry entryUrl =>
              have conditions : Recharged working := by
                unfold SettlesRecharged at recharged
                rw [isActive] at recharged
                exact recharged
              obtain ⟨charged, among⟩ := ends _ rfl
              cases planned
              exact charged.plan_within conditions (among entryUrl rfl)
      case h_2 => cases stepped
    | call call =>
      simp only [HolonomyModuleLoader.machine, HolonomyModuleLoader.step] at stepped
      split at stepped <;> (cases stepped; exact within)
    | start =>
      simp only [HolonomyModuleLoader.machine, HolonomyModuleLoader.step] at stepped
      split at stepped
      · cases stepped
        exact within
      · cases stepped
    | returned =>
      simp only [HolonomyModuleLoader.machine, HolonomyModuleLoader.step] at stepped
      split at stepped
      · cases stepped
        exact within
      · cases stepped
    | answer answer =>
      simp only [HolonomyModuleLoader.machine, HolonomyModuleLoader.step] at stepped
      split at stepped
      · cases stepped
        exact within
      · cases stepped
  exact both.2

def FinishedCall.moduleCount (finished : FinishedCall) : ℕ :=
  match finished.result with
  | .ok (.planned plan) => plan.modules.length
  | _ => 0

/-- A module without dependencies that is taken from the cache for another parent. -/
theorem plans_within_limits_again : ∃ state,
    (plainLoader { maxModules := 1 } (js "app://h/")).machine.ReachesWhen SettlesRecharged
      [.call (.createPlan (js "./a.mjs") none .import),
        .call (.createPlan (js "./a.mjs") (some (js "app://h/b.mjs")) .import), .start,
        .answer (plainSource []), .settle, .start, .settle] state ∧
      (state.finished.map fun finished => finished.rejected) = [false, false] ∧
      ∀ finished ∈ state.finished, ∀ plan, finished.result = .ok (.planned plan) →
        plan.Within { maxModules := 1 } := by
  have run : (((plainLoader { maxModules := 1 } (js "app://h/")).machine.guarded
      SettlesRecharged).run [.call (.createPlan (js "./a.mjs") none .import),
        .call (.createPlan (js "./a.mjs") (some (js "app://h/b.mjs")) .import), .start,
        .answer (plainSource []), .settle, .start, .settle]).map (fun state =>
          state.finished.map FinishedCall.rejected) = some [false, false] := by
    decide +kernel
  obtain ⟨state, reached, fields⟩ := Machine.exists_of_guarded_run run
  exact ⟨state, reached, fields, plans_within_limits reached⟩

/-- Two modules may be loaded; the second call loads one, and takes one from the cache that depends
on a third. -/
theorem not_plans_within_limits : ¬ ∀ (loader : HolonomyModuleLoader) (events : List LoaderEvent)
    (state : LoaderState), loader.machine.Reaches events state → ∀ finished ∈ state.finished,
      ∀ plan, finished.result = .ok (.planned plan) →
        plan.modules.length ≤ loader.limits.maxModules := by
  intro claimed
  have run : ((plainLoader { maxModules := 2 } (js "app://h/")).machine.run
      [.call (.createPlan (js "./a.mjs") none .import), .start,
        .answer (plainSource (js "import './b.mjs'")), .answer (plainSource []), .settle,
        .call (.createPlan (js "./c.mjs") none .import), .start,
        .answer (plainSource (js "import './a.mjs'")), .settle]).map (fun state =>
          state.finished.map FinishedCall.moduleCount) = some [2, 3] := by
    decide +kernel
  obtain ⟨state, reached, lengths⟩ := Machine.exists_of_run run
  have three : 3 ∈ state.finished.map FinishedCall.moduleCount := by
    rw [lengths]
    decide
  obtain ⟨finished, isFinished, length⟩ := List.mem_map.mp three
  unfold FinishedCall.moduleCount at length
  split at length
  case h_1 plan planned =>
    have few := claimed _ _ state reached finished isFinished plan planned
    rw [length] at few
    have small : (3 : ℕ) ≤ 2 := few
    omega
  case h_2 => cases length

end Plans

end Holonomy.Modules
