import Holonomy.Modules.Keeping

/-!
# What a transaction is charged for

A transaction is charged once for each source that it reads and for each module that it loads, and
fails when it is charged too much. What it is charged for is in the caches, where every alias stands
for a source that is known under another URL.
-/

namespace Holonomy.Modules

open Foundation Asking

/-- The caches agree with each other. -/
structure Sound (caches : Caches) : Prop where
  source : ∀ key source, caches.sourceCache.lookup key = some source →
    source.canonicalUrl = key ∧ source.byteLength = source.bytes.length ∧
      source.sha256 = Kernel.sha256Hex source.bytes ∧ decodeUtf8 source.bytes = some source.source
  aliased : ∀ url canonicalUrl, caches.aliasCache.lookup url = some canonicalUrl →
    caches.sourceCache.lookup url = none ∧ (caches.sourceCache.lookup canonicalUrl).isSome
  module : ∀ key module, caches.moduleCache.lookup key = some module → module.url = key ∧
    ∀ text, module.source = some text → ∃ source, caches.sourceCache.lookup key = some source ∧
      source.source = text ∧ module.sha256 = some source.sha256

def Working.HasCharged (working : Working) (url : Text) : Prop :=
  url ∈ working.transaction.sourceBytes.map Prod.fst

structure Charged (loader : HolonomyModuleLoader) (working : Working) : Prop where
  sound : Sound working.caches
  modulesOnce : working.transaction.moduleUrls.Nodup
  modules : working.transaction.moduleUrls.length ≤ loader.limits.maxModules
  sourcesOnce : (working.transaction.sourceBytes.map Prod.fst).Nodup
  total : working.transaction.totalSourceBytes =
    (working.transaction.sourceBytes.map Prod.snd).sum
  bytes : working.transaction.totalSourceBytes ≤ loader.limits.maxTotalSourceBytesPerPlan
  known : ∀ entry ∈ working.transaction.sourceBytes, ∃ source,
    working.caches.sourceCache.lookup entry.1 = some source ∧ source.bytes.length = entry.2
  entered : ∀ url ∈ working.transaction.moduleKeys, url ∈ working.transaction.moduleUrls ∧
    ∀ module, working.caches.moduleCache.lookup url = some module →
      (module.source.isSome → working.HasCharged url) ∧
      ∀ other ∈ module.dependencies.filterMap ModuleDependency.followed,
        other ∈ working.transaction.moduleUrls

/-- A transaction has gone on, without forgetting anything. -/
structure Grown (before after : Working) : Prop where
  moduleUrls : ∀ url ∈ before.transaction.moduleUrls, url ∈ after.transaction.moduleUrls
  moduleKeys : ∀ url ∈ before.transaction.moduleKeys, url ∈ after.transaction.moduleKeys
  sources : ∀ url, before.HasCharged url → after.HasCharged url
  contents : ∀ key source, before.caches.sourceCache.lookup key = some source →
    ∃ later, after.caches.sourceCache.lookup key = some later ∧ later.source = source.source ∧
      later.sha256 = source.sha256

/-- A transaction has gone on without loading anything. -/
structure OnlyRead (before after : Working) : Prop extends Grown before after where
  moduleCache : after.caches.moduleCache = before.caches.moduleCache
  sameKeys : after.transaction.moduleKeys = before.transaction.moduleKeys
  sameUrls : after.transaction.moduleUrls = before.transaction.moduleUrls

section Growing

variable {before middle after : Working}

theorem Grown.refl (working : Working) : Grown working working :=
  ⟨fun _ => id, fun _ => id, fun _ => id, fun _ source known => ⟨source, known, rfl, rfl⟩⟩

theorem Grown.trans (left : Grown before middle) (right : Grown middle after) :
    Grown before after where
  moduleUrls url among := right.moduleUrls url (left.moduleUrls url among)
  moduleKeys url among := right.moduleKeys url (left.moduleKeys url among)
  sources url among := right.sources url (left.sources url among)
  contents key source known := by
    obtain ⟨between, there, sameText, sameDigest⟩ := left.contents key source known
    obtain ⟨later, here, text, digest⟩ := right.contents key between there
    exact ⟨later, here, text.trans sameText, digest.trans sameDigest⟩

theorem OnlyRead.refl (working : Working) : OnlyRead working working :=
  ⟨.refl working, rfl, rfl, rfl⟩

theorem OnlyRead.trans (left : OnlyRead before middle) (right : OnlyRead middle after) :
    OnlyRead before after :=
  ⟨left.toGrown.trans right.toGrown, right.moduleCache.trans left.moduleCache,
    right.sameKeys.trans left.sameKeys, right.sameUrls.trans left.sameUrls⟩

end Growing

section Alike

/-- Nothing has changed of what charges are about. -/
structure Alike (before after : Working) : Prop where
  sourceCache : after.caches.sourceCache = before.caches.sourceCache
  aliasCache : after.caches.aliasCache = before.caches.aliasCache
  moduleCache : after.caches.moduleCache = before.caches.moduleCache
  moduleKeys : after.transaction.moduleKeys = before.transaction.moduleKeys
  moduleUrls : after.transaction.moduleUrls = before.transaction.moduleUrls
  sourceBytes : after.transaction.sourceBytes = before.transaction.sourceBytes
  total : after.transaction.totalSourceBytes = before.transaction.totalSourceBytes

variable {loader : HolonomyModuleLoader} {before after : Working}

theorem Alike.charged (alike : Alike before after) (charged : Charged loader before) :
    Charged loader after where
  sound := by
    refine ⟨?_, ?_, ?_⟩
    · rw [alike.sourceCache]
      exact charged.sound.source
    · rw [alike.sourceCache, alike.aliasCache]
      exact charged.sound.aliased
    · rw [alike.sourceCache, alike.moduleCache]
      exact charged.sound.module
  modulesOnce := alike.moduleUrls ▸ charged.modulesOnce
  modules := alike.moduleUrls ▸ charged.modules
  sourcesOnce := alike.sourceBytes ▸ charged.sourcesOnce
  total := by rw [alike.total, alike.sourceBytes, charged.total]
  bytes := alike.total ▸ charged.bytes
  known := by
    rw [alike.sourceBytes, alike.sourceCache]
    exact charged.known
  entered := by
    unfold Working.HasCharged
    rw [alike.moduleKeys, alike.moduleUrls, alike.moduleCache, alike.sourceBytes]
    exact charged.entered

theorem Alike.onlyRead (alike : Alike before after) : OnlyRead before after where
  moduleUrls _ among := alike.moduleUrls ▸ among
  moduleKeys _ among := alike.moduleKeys ▸ among
  sources _ among := by
    unfold Working.HasCharged
    rw [alike.sourceBytes]
    exact among
  contents _ source known := ⟨source, alike.sourceCache ▸ known, rfl, rfl⟩
  moduleCache := alike.moduleCache
  sameKeys := alike.moduleKeys
  sameUrls := alike.moduleUrls

theorem alike_enterResolution (key url : Text) (working : Working) :
    Alike working (enterResolution key url working) := by
  unfold enterResolution
  split <;> exact ⟨rfl, rfl, rfl, rfl, rfl, rfl, rfl⟩

theorem alike_enterPackage (key : Text) (packageData : Option ParsedPackage) (working : Working) :
    Alike working (enterPackage key packageData working) := by
  unfold enterPackage
  split <;> exact ⟨rfl, rfl, rfl, rfl, rfl, rfl, rfl⟩

theorem alike_enterModuleGrant (url : Text) (working : Working) :
    Alike working (enterModuleGrant url working) := by
  unfold enterModuleGrant
  split <;> exact ⟨rfl, rfl, rfl, rfl, rfl, rfl, rfl⟩

theorem alike_enterNegativeSource (key : ModuleReadPurpose × Text) (working : Working) :
    Alike working (enterNegativeSource key working) := by
  unfold enterNegativeSource
  split <;> exact ⟨rfl, rfl, rfl, rfl, rfl, rfl, rfl⟩

theorem alike_countSteps (steps : ℕ) (working : Working) :
    Alike working (countSteps steps working) :=
  ⟨rfl, rfl, rfl, rfl, rfl, rfl, rfl⟩

end Alike

section Sources

variable {loader : HolonomyModuleLoader} {working : Working} {url canonicalUrl : Text}

theorem hasCharged_chargeSource {byteLength : ℕ} {other : Text} :
    (chargeSource url byteLength working).HasCharged other ↔
      working.HasCharged other ∨ other = url := by
  show other ∈ (working.transaction.sourceBytes ++ [(url, byteLength)]).map Prod.fst ↔ _
  rw [List.map_append, List.mem_append, List.map_singleton, List.mem_singleton]
  exact Iff.rfl

def accounted (url : Text) (byteLength : ℕ) (working : Working) : Working :=
  if url ∈ working.transaction.sourceBytes.map Prod.fst then working
  else chargeSource url byteLength working

theorem returns_accountSource {may : HostRead → Working → Prop} (url : Text) (byteLength : ℕ)
    (working : Working) :
    Returns may (fun state => state = working) (accountSource loader url byteLength) fun _ state =>
      state = accounted url byteLength working ∧ (working.HasCharged url ∨
        working.transaction.totalSourceBytes + byteLength ≤
          loader.limits.maxTotalSourceBytesPerPlan) := by
  refine Returns.ite (fun _ => returns_throw _) fun _ => returns_get.bind fun value => ?_
  unfold accounted
  refine Returns.ite ?_ ?_
  · intro already
    refine returns_pure ?_
    rintro state ⟨rfl, rfl⟩
    exact ⟨(if_pos already).symm, .inl already⟩
  · intro fresh
    refine Returns.via (fun _ state => value = working ∧
      state = chargeSource url byteLength working) (returns_modify ?_) fun _ =>
        returns_get.bind fun charged => ?_
    · rintro state ⟨rfl, rfl⟩
      exact ⟨rfl, rfl⟩
    · refine Returns.when (fun _ => returns_throw _) ?_
      rintro small state ⟨rfl, rfl, rfl⟩
      exact ⟨(if_neg fresh).symm, .inr (not_lt.mp small)⟩

theorem Charged.account (charged : Charged loader working) {source : VerifiedSource}
    (known : working.caches.sourceCache.lookup url = some source)
    (fits : working.HasCharged url ∨ working.transaction.totalSourceBytes + source.bytes.length ≤
      loader.limits.maxTotalSourceBytesPerPlan) :
    Charged loader (accounted url source.bytes.length working) := by
  unfold accounted
  by_cases already : url ∈ working.transaction.sourceBytes.map Prod.fst
  · rw [if_pos already]
    exact charged
  · rw [if_neg already]
    have fits := fits.resolve_left already
    refine ⟨charged.sound, charged.modulesOnce, charged.modules, ?_, ?_, fits, ?_, ?_⟩
    · show ((working.transaction.sourceBytes ++ [(url, source.bytes.length)]).map Prod.fst).Nodup
      rw [List.map_append]
      exact nodup_concat charged.sourcesOnce already
    · show working.transaction.totalSourceBytes + _ = ((working.transaction.sourceBytes ++
        [(url, source.bytes.length)]).map Prod.snd).sum
      rw [List.map_append, List.sum_append, charged.total, List.map_singleton, List.sum_singleton]
    · exact forall_mem_concat charged.known ⟨source, known, rfl⟩
    · intro key entered
      obtain ⟨here, rest⟩ := charged.entered key entered
      refine ⟨here, fun module isModule => ?_⟩
      obtain ⟨sources, follows⟩ := rest module isModule
      refine ⟨fun hasSource => ?_, follows⟩
      exact hasCharged_chargeSource.mpr (.inl (sources hasSource))

theorem onlyRead_accounted (url : Text) (byteLength : ℕ) (working : Working) :
    OnlyRead working (accounted url byteLength working) := by
  unfold accounted
  split
  · exact .refl working
  · refine ⟨⟨fun _ => id, fun _ => id, fun other among => ?_, fun _ source known =>
      ⟨source, known, rfl, rfl⟩⟩, rfl, rfl, rfl⟩
    exact hasCharged_chargeSource.mpr (.inl among)

theorem hasCharged_accounted (url : Text) (byteLength : ℕ) (working : Working) :
    (accounted url byteLength working).HasCharged url := by
  unfold accounted
  split
  case isTrue already => exact already
  case isFalse =>
    exact hasCharged_chargeSource.mpr (.inr rfl)

theorem Sound.exchange {caches : Caches} (sound : Sound caches) {prior source : VerifiedSource}
    (known : caches.sourceCache.lookup url = some prior)
    (same : source = { prior with grant := source.grant, metadataOnly := source.metadataOnly }) :
    Sound { caches with sourceCache := caches.sourceCache.insert url source } := by
  have facts : source.canonicalUrl = prior.canonicalUrl ∧ source.byteLength = prior.byteLength ∧
      source.bytes = prior.bytes ∧ source.sha256 = prior.sha256 ∧ source.source = prior.source := by
    rw [same]
    exact ⟨rfl, rfl, rfl, rfl, rfl⟩
  obtain ⟨sameUrl, sameLength, sameBytes, sameDigest, sameText⟩ := facts
  refine ⟨?_, ?_, ?_⟩
  · intro key other found
    by_cases here : key = url
    · rw [here, Finmap.lookup_insert] at found
      rw [← Option.some.inj found, sameUrl, sameLength, sameBytes, sameDigest, sameText, here]
      exact sound.source url prior known
    · rw [Finmap.lookup_insert_of_ne _ here] at found
      exact sound.source key other found
  · intro other target found
    obtain ⟨missing, there⟩ := sound.aliased other target found
    have different : other ≠ url := by
      intro equal
      rw [equal, known] at missing
      cases missing
    refine ⟨(Finmap.lookup_insert_of_ne _ different).trans missing, ?_⟩
    by_cases here : target = url
    · rw [here, Finmap.lookup_insert]
      rfl
    · rw [Finmap.lookup_insert_of_ne _ here]
      exact there
  · intro key module found
    obtain ⟨keyed, contents⟩ := sound.module key module found
    refine ⟨keyed, fun text isText => ?_⟩
    obtain ⟨other, there, text, digest⟩ := contents text isText
    by_cases here : key = url
    · rw [here, known] at there
      cases there
      exact ⟨source, by rw [here, Finmap.lookup_insert], sameText.trans text,
        digest.trans (congrArg some sameDigest.symm)⟩
    · exact ⟨other, (Finmap.lookup_insert_of_ne _ here).trans there, text, digest⟩

theorem Charged.exchangeSource (charged : Charged loader working) {prior source : VerifiedSource}
    (known : working.caches.sourceCache.lookup url = some prior)
    (same : source = { prior with grant := source.grant, metadataOnly := source.metadataOnly }) :
    Charged loader (Modules.exchangeSource url source working) ∧
      OnlyRead working (Modules.exchangeSource url source working) ∧
      (Modules.exchangeSource url source working).caches.sourceCache.lookup url = some source ∧
      (Modules.exchangeSource url source working).caches.aliasCache =
        working.caches.aliasCache := by
  have sameBytes : source.bytes = prior.bytes ∧ source.source = prior.source ∧
      source.sha256 = prior.sha256 := by
    rw [same]
    exact ⟨rfl, rfl, rfl⟩
  unfold Modules.exchangeSource
  rw [known]
  refine ⟨⟨charged.sound.exchange known same, charged.modulesOnce, charged.modules,
    charged.sourcesOnce, charged.total, charged.bytes, ?_, charged.entered⟩, ⟨⟨fun _ => id,
    fun _ => id, fun _ => id, ?_⟩, rfl, rfl, rfl⟩, Finmap.lookup_insert _, rfl⟩
  · intro entry among
    obtain ⟨other, there, length⟩ := charged.known entry among
    by_cases here : entry.1 = url
    · rw [here, known] at there
      cases there
      exact ⟨source, by rw [here]; exact Finmap.lookup_insert _, sameBytes.1 ▸ length⟩
    · exact ⟨other, (Finmap.lookup_insert_of_ne _ here).trans there, length⟩
  · intro key other there
    by_cases here : key = url
    · rw [here, known] at there
      cases there
      exact ⟨source, by rw [here]; exact Finmap.lookup_insert _, sameBytes.2⟩
    · exact ⟨other, (Finmap.lookup_insert_of_ne _ here).trans there, rfl, rfl⟩

theorem Charged.enterAlias (charged : Charged loader working)
    (missing : working.caches.sourceCache.lookup url = none)
    (known : (working.caches.sourceCache.lookup canonicalUrl).isSome) :
    Charged loader (Modules.enterAlias url canonicalUrl working) := by
  unfold Modules.enterAlias
  by_cases already : (working.caches.aliasCache.lookup url).isSome
  · rw [if_pos already]
    exact charged
  · rw [if_neg already]
    refine ⟨⟨charged.sound.source, ?_, charged.sound.module⟩, charged.modulesOnce, charged.modules,
      charged.sourcesOnce, charged.total, charged.bytes, charged.known, charged.entered⟩
    intro other target found
    by_cases here : other = url
    · rw [here, Finmap.lookup_insert] at found
      rw [here, ← Option.some.inj found]
      exact ⟨missing, known⟩
    · rw [Finmap.lookup_insert_of_ne _ here] at found
      exact charged.sound.aliased other target found

theorem onlyRead_enterAlias (url canonicalUrl : Text) (working : Working) :
    OnlyRead working (enterAlias url canonicalUrl working) := by
  unfold enterAlias
  split
  · exact .refl working
  · exact ⟨⟨fun _ => id, fun _ => id, fun _ => id, fun _ source known => ⟨source, known, rfl, rfl⟩⟩,
      rfl, rfl, rfl⟩

theorem Charged.enter (charged : Charged loader working) {source : VerifiedSource}
    (missing : working.caches.sourceCache.lookup url = none)
    (noAlias : working.caches.aliasCache.lookup url = none)
    (keyed : source.canonicalUrl = url ∧ source.byteLength = source.bytes.length ∧
      source.sha256 = Kernel.sha256Hex source.bytes ∧ decodeUtf8 source.bytes = some source.source)
    (fits : working.HasCharged url ∨ working.transaction.totalSourceBytes + source.bytes.length ≤
      loader.limits.maxTotalSourceBytesPerPlan) :
    Charged loader (enterSource url source (accounted url source.bytes.length working)) ∧
      OnlyRead working (enterSource url source (accounted url source.bytes.length working)) ∧
      (enterSource url source (accounted url source.bytes.length working)).caches.sourceCache =
        working.caches.sourceCache.insert url source ∧
      (enterSource url source (accounted url source.bytes.length working)).HasCharged url := by
  have fresh : ¬ working.HasCharged url := by
    intro already
    obtain ⟨entry, among, here⟩ := List.mem_map.mp already
    obtain ⟨other, there, _⟩ := charged.known entry among
    rw [here, missing] at there
    cases there
  have after : enterSource url source (accounted url source.bytes.length working) = {
      caches := { working.caches with
        sourceCache := working.caches.sourceCache.insert url source }
      transaction := { working.transaction with
        sourceKeys := working.transaction.sourceKeys ++ [url]
        sourceBytes := working.transaction.sourceBytes ++ [(url, source.bytes.length)]
        totalSourceBytes := working.transaction.totalSourceBytes + source.bytes.length } } := by
    have step : accounted url source.bytes.length working =
        chargeSource url source.bytes.length working := if_neg fresh
    have none : ¬ ((chargeSource url source.bytes.length working).caches.sourceCache.lookup
        url).isSome := by
      show ¬ (working.caches.sourceCache.lookup url).isSome
      rw [missing]
      exact Bool.false_ne_true
    unfold enterSource
    rw [step, if_neg none]
    rfl
  have kept : ∀ key other, working.caches.sourceCache.lookup key = some other →
      (working.caches.sourceCache.insert url source).lookup key = some other := by
    intro key other there
    refine (Finmap.lookup_insert_of_ne _ ?_).trans there
    intro here
    rw [here, missing] at there
    cases there
  rw [after]
  refine ⟨⟨⟨?_, ?_, ?_⟩, charged.modulesOnce, charged.modules, ?_, ?_, fits.resolve_left fresh, ?_,
    ?_⟩, ⟨⟨fun _ => id, fun _ => id, fun other among => ?_, ?_⟩, rfl, rfl, rfl⟩, rfl, ?_⟩
  · intro key other found
    by_cases here : key = url
    · rw [here, Finmap.lookup_insert] at found
      rw [← Option.some.inj found, here]
      exact keyed
    · rw [Finmap.lookup_insert_of_ne _ here] at found
      exact charged.sound.source key other found
  · intro other target found
    obtain ⟨gone, there⟩ := charged.sound.aliased other target found
    have different : other ≠ url := by
      intro equal
      rw [equal, noAlias] at found
      cases found
    obtain ⟨old, isOld⟩ := Option.isSome_iff_exists.mp there
    refine ⟨(Finmap.lookup_insert_of_ne _ different).trans gone, ?_⟩
    rw [kept target old isOld]
    rfl
  · intro key module found
    obtain ⟨sameKey, contents⟩ := charged.sound.module key module found
    refine ⟨sameKey, fun text isText => ?_⟩
    obtain ⟨other, there, facts⟩ := contents text isText
    exact ⟨other, kept key other there, facts⟩
  · show ((working.transaction.sourceBytes ++ [(url, source.bytes.length)]).map Prod.fst).Nodup
    rw [List.map_append]
    exact nodup_concat charged.sourcesOnce fresh
  · show _ = ((working.transaction.sourceBytes ++ [(url, source.bytes.length)]).map Prod.snd).sum
    rw [List.map_append, List.sum_append, ← charged.total, List.map_singleton, List.sum_singleton]
  · intro entry among
    rcases List.mem_append.mp among with old | new
    · obtain ⟨other, there, length⟩ := charged.known entry old
      exact ⟨other, kept entry.1 other there, length⟩
    · rw [List.mem_singleton.mp new]
      exact ⟨source, Finmap.lookup_insert _, rfl⟩
  · intro key entered
    obtain ⟨here, rest⟩ := charged.entered key entered
    refine ⟨here, fun module isModule => ?_⟩
    obtain ⟨sources, follows⟩ := rest module isModule
    exact ⟨fun hasSource => hasCharged_chargeSource.mpr (.inl (sources hasSource)), follows⟩
  · exact hasCharged_chargeSource.mpr (.inl among)
  · exact fun key other there => ⟨other, kept key other there, rfl, rfl⟩
  · exact hasCharged_chargeSource.mpr (.inr rfl)

end Sources

section Verifying

variable {loader : HolonomyModuleLoader} {may : HostRead → Working → Prop} {start : Working}
  {url canonicalUrl : Text} {source : VerifiedSource}

structure Ready (loader : HolonomyModuleLoader) (start : Working) (canonicalUrl : Text)
    (source : VerifiedSource) (working : Working) : Prop where
  charged : Charged loader working
  onlyRead : OnlyRead start working
  held : working.caches.sourceCache.lookup canonicalUrl = some source
  hasCharged : working.HasCharged canonicalUrl
  sameAliases : working.caches.aliasCache = start.caches.aliasCache
  elsewhere : ∀ key, key ≠ canonicalUrl →
    working.caches.sourceCache.lookup key = start.caches.sourceCache.lookup key

structure HasRead (loader : HolonomyModuleLoader) (start : Working) (source : VerifiedSource)
    (working : Working) : Prop where
  charged : Charged loader working
  onlyRead : OnlyRead start working
  held : working.caches.sourceCache.lookup source.canonicalUrl = some source
  hasCharged : working.HasCharged source.canonicalUrl

theorem Ready.alike {before after : Working} (ready : Ready loader start canonicalUrl source before)
    (alike : Alike before after) : Ready loader start canonicalUrl source after where
  charged := alike.charged ready.charged
  onlyRead := ready.onlyRead.trans alike.onlyRead
  held := alike.sourceCache ▸ ready.held
  hasCharged := alike.onlyRead.sources _ ready.hasCharged
  sameAliases := alike.aliasCache.trans ready.sameAliases
  elsewhere key different := alike.sourceCache ▸ ready.elsewhere key different

theorem returns_publishModuleGrant (requestedUrl other : Text) :
    Returns may (Ready loader start canonicalUrl source)
      (publishModuleGrant requestedUrl other) fun _ => Ready loader start canonicalUrl source :=
  (returns_modify fun working ready => ready.alike
    (alike_enterModuleGrant requestedUrl working)).bind
    fun _ => returns_modify fun working ready => ready.alike (alike_enterModuleGrant other working)

theorem returns_publishAlias (keyed : source.canonicalUrl = canonicalUrl)
    (unknown : url ≠ canonicalUrl → start.caches.aliasCache.lookup url = none →
      start.caches.sourceCache.lookup url = none) :
    Returns may (Ready loader start canonicalUrl source) (publishAlias url canonicalUrl)
      fun _ => HasRead loader start source := by
  have read : ∀ working, Ready loader start canonicalUrl source working →
      HasRead loader start source working := fun working ready =>
    ⟨ready.charged, ready.onlyRead, keyed ▸ ready.held, keyed ▸ ready.hasCharged⟩
  refine returns_get.bind fun value => Returns.ite ?_ fun new => Returns.ite ?_ fun _ => ?_
  · intro _
    exact returns_pure fun working ready => read working ready.2
  · exact fun _ => returns_throw _
  · refine returns_modify fun working ready => ?_
    obtain ⟨same, ready⟩ := ready
    rw [same] at new
    obtain ⟨different, noAlias⟩ := not_or.mp new
    have missing : working.caches.sourceCache.lookup url = none := by
      rw [ready.elsewhere url different]
      refine unknown different ?_
      rw [← ready.sameAliases]
      exact Option.not_isSome_iff_eq_none.mp noAlias
    have known : (working.caches.sourceCache.lookup canonicalUrl).isSome := by
      rw [ready.held]
      rfl
    have after := onlyRead_enterAlias url canonicalUrl working
    refine ⟨ready.charged.enterAlias missing known, ready.onlyRead.trans after, ?_, ?_⟩
    · have same : (enterAlias url canonicalUrl working).caches.sourceCache =
          working.caches.sourceCache := by
        unfold enterAlias
        split <;> rfl
      rw [same, keyed]
      exact ready.held
    · exact after.sources _ (keyed ▸ ready.hasCharged)

/-- A known source is granted again. -/
theorem returns_regrantSource {existing : VerifiedSource} (purpose : ModuleReadPurpose)
    (metadataOnly : Bool) (keyed : existing.canonicalUrl = canonicalUrl)
    (unknown : url ≠ canonicalUrl → start.caches.aliasCache.lookup url = none →
      start.caches.sourceCache.lookup url = none) :
    Returns may (Ready loader start canonicalUrl existing)
      (HolonomyModuleLoader.regrantSource existing url canonicalUrl purpose metadataOnly)
      fun read => HasRead loader start read := by
  unfold HolonomyModuleLoader.regrantSource
  dsimp only
  set verified : VerifiedSource :=
    if purpose = .module then { existing with grant := .module, metadataOnly := false }
    else if metadataOnly ∧ ¬ existing.metadataOnly then { existing with metadataOnly := true }
    else existing with verifiedEq
  have same : verified =
      { existing with grant := verified.grant, metadataOnly := verified.metadataOnly } := by
    rw [verifiedEq]
    split
    · rfl
    · split <;> rfl
  have sameUrl : verified.canonicalUrl = canonicalUrl := by
    rw [same]
    exact keyed
  refine Returns.via (fun _ => Ready loader start canonicalUrl verified) ?_ fun _ =>
    Returns.bind (Returns.when (fun _ => returns_publishModuleGrant url canonicalUrl)
      fun _ _ ready => ready) fun _ =>
        (returns_publishAlias sameUrl unknown).bind fun _ => returns_pure fun _ read => read
  refine Returns.when ?_ ?_
  · intro _
    refine returns_modify fun working ready => ?_
    obtain ⟨charged, onlyRead, held, aliases⟩ := ready.charged.exchangeSource ready.held same
    refine ⟨charged, ready.onlyRead.trans onlyRead, held, onlyRead.sources _ ready.hasCharged,
      aliases.trans ready.sameAliases, fun key different => ?_⟩
    rw [← ready.elsewhere key different]
    unfold exchangeSource
    rw [ready.held]
    exact Finmap.lookup_insert_of_ne _ different
  · intro unchanged working ready
    have kept : verified = existing := by
      rw [verifiedEq, if_neg fun isModule => unchanged (.inl isModule),
        if_neg fun restricted => unchanged (.inr restricted)]
    exact kept ▸ ready

theorem aliasCache_enterSource (key : Text) (working : Working) :
    (enterSource key source working).caches.aliasCache = working.caches.aliasCache := by
  unfold enterSource
  split <;> rfl

theorem unknown_of_cached (sound : Sound start.caches)
    (identity : ¬ ((start.caches.sourceCache.lookup (start.caches.knownCanonicalUrl url)).any
      fun known => decide (canonicalUrl ≠ known.canonicalUrl)) = true) :
    url ≠ canonicalUrl → start.caches.aliasCache.lookup url = none →
      start.caches.sourceCache.lookup url = none := by
  intro different noAlias
  have known : start.caches.knownCanonicalUrl url = url := by
    unfold Caches.knownCanonicalUrl
    rw [noAlias, Option.getD_none]
  rw [known] at identity
  cases found : start.caches.sourceCache.lookup url with
  | none => rfl
  | some old =>
    rw [found, Option.any_some, decide_eq_true_eq, not_not] at identity
    exact absurd ((sound.source url old found).1.symm.trans identity.symm) different

theorem noAlias_of_cached (sound : Sound start.caches)
    (identity : ¬ ((start.caches.sourceCache.lookup (start.caches.knownCanonicalUrl url)).any
      fun known => decide (canonicalUrl ≠ known.canonicalUrl)) = true)
    (direct : ¬ (canonicalUrl ≠ url ∧ (start.caches.aliasCache.lookup canonicalUrl).isSome)) :
    start.caches.aliasCache.lookup canonicalUrl = none := by
  by_cases same : canonicalUrl = url
  · cases found : start.caches.aliasCache.lookup canonicalUrl with
    | none => rfl
    | some target =>
      obtain ⟨missing, there⟩ := sound.aliased canonicalUrl target found
      obtain ⟨old, isOld⟩ := Option.isSome_iff_exists.mp there
      have known : start.caches.knownCanonicalUrl url = target := by
        unfold Caches.knownCanonicalUrl
        rw [← same, found, Option.getD_some]
      rw [known, isOld, Option.any_some, decide_eq_true_eq, not_not,
        (sound.source target old isOld).1] at identity
      rw [identity, isOld] at missing
      cases missing
  · exact Option.not_isSome_iff_eq_none.mp fun isAlias => direct ⟨same, isAlias⟩

theorem returns_verifySource (charged : Charged loader start) (purpose : ModuleReadPurpose)
    (hostSource : HostModuleSource) :
    Returns may (fun working => working = start)
      (loader.verifySource url purpose
        (start.caches.sourceCache.lookup (start.caches.knownCanonicalUrl url)) hostSource)
      fun read => HasRead loader start read := by
  unfold HolonomyModuleLoader.verifySource
  split
  case h_2 => exact returns_error _
  case h_1 bytes claimed _ _ =>
    refine (returns_lift _).bind fun metadataOnly => (returns_lift _).bind fun canonicalUrl =>
      returns_get.bind fun value => ?_
    refine Returns.ite (fun _ => returns_error _) fun identity =>
      Returns.ite (fun _ => returns_error _) fun direct => ?_
    refine Returns.starting (fun working => value = start ∧ working = start)
      (by rintro working ⟨rfl, _, _, same⟩; exact ⟨same, same⟩) ?_
    refine Returns.via (fun _ working => value = start ∧
      working = accounted canonicalUrl bytes.length start ∧ (start.HasCharged canonicalUrl ∨
        start.transaction.totalSourceBytes + bytes.length ≤
          loader.limits.maxTotalSourceBytesPerPlan)) ?_ fun _ => ?_
    · rintro working ⟨same, rfl⟩
      exact ((returns_accountSource canonicalUrl bytes.length working).weaken (fun _ same => same)
        fun _ _ charged => ⟨same, charged⟩) working rfl
    · refine Returns.ite (fun _ => returns_error _) fun intact => ?_
      -- From here on the state is known, so that the value read before is the start.
      intro working reached
      obtain ⟨rfl, rfl, fits⟩ := reached
      have unknown := unknown_of_cached charged.sound identity
      have noAlias := noAlias_of_cached charged.sound identity direct
      have onlyRead := onlyRead_accounted canonicalUrl bytes.length value
      have hasCharged := hasCharged_accounted canonicalUrl bytes.length value
      have aliases : (accounted canonicalUrl bytes.length value).caches = value.caches := by
        unfold accounted
        split <;> rfl
      cases found : value.caches.sourceCache.lookup canonicalUrl with
      | some existing =>
        have sameBytes : bytes = existing.bytes := by
          rw [found] at intact
          unfold HolonomyModuleLoader.integrityFails at intact
          simp only [Option.any_some, Bool.or_eq_true, not_or, bne_iff_ne, ne_eq, not_not] at intact
          exact intact.2.2
        subst sameBytes
        have ready : Ready loader value canonicalUrl existing
            (accounted canonicalUrl existing.bytes.length value) :=
          ⟨charged.account found fits, onlyRead, by rw [aliases]; exact found, hasCharged,
            by rw [aliases], fun key _ => by rw [aliases]⟩
        exact returns_regrantSource purpose metadataOnly
          (charged.sound.source canonicalUrl existing found).1 unknown _ ready
      | none =>
        dsimp only
        cases decoded : decodeUtf8 bytes with
        | none =>
          intro _ failed
          cases failed
        | some text =>
          set source : VerifiedSource := ⟨bytes.length, bytes, canonicalUrl, purpose, metadataOnly,
            Kernel.sha256Hex bytes, text⟩ with sourceEq
          have contents : source.canonicalUrl = canonicalUrl ∧
              source.byteLength = source.bytes.length ∧
              source.sha256 = Kernel.sha256Hex source.bytes ∧
              decodeUtf8 source.bytes = some source.source := ⟨rfl, rfl, rfl, decoded⟩
          obtain ⟨charged, read, entered, also⟩ := charged.enter found noAlias contents fits
          have ready : Ready loader value canonicalUrl source
              (enterSource canonicalUrl source (accounted canonicalUrl bytes.length value)) := by
            refine ⟨charged, read, by rw [entered]; exact Finmap.lookup_insert _, also, ?_,
              fun key different => by rw [entered]; exact Finmap.lookup_insert_of_ne _ different⟩
            rw [aliasCache_enterSource, aliases]
          have keyed : source.canonicalUrl = canonicalUrl := rfl
          exact (Returns.bind (Returns.when (fun _ => returns_publishModuleGrant url canonicalUrl)
            fun _ _ ready => ready) fun _ => (returns_publishAlias keyed unknown).bind fun _ =>
              returns_pure fun _ read => read) _ ready

theorem returns_readVerifiedSource (charged : Charged loader start) (url : Text)
    (purpose : ModuleReadPurpose) :
    Returns (fun _ working => working = start) (fun working => working = start)
      (loader.readVerifiedSource url purpose) fun read working => Charged loader working ∧
        OnlyRead start working ∧ ∀ source ∈ read, HasRead loader start source working := by
  unfold HolonomyModuleLoader.readVerifiedSource
  refine returns_get.bind fun value => ?_
  refine Returns.starting (fun working => value = start ∧ working = start)
    (by rintro working ⟨rfl, same⟩; exact ⟨same, same⟩) ?_
  dsimp only
  split
  case h_1 source usable =>
    obtain ⟨found, _⟩ := Option.filter_eq_some_iff.mp usable
    rintro working ⟨rfl, rfl⟩
    obtain ⟨keyed, length, _⟩ := charged.sound.source _ source found
    rw [length]
    refine Returns.bind (returns_accountSource source.canonicalUrl source.bytes.length working)
      (fun _ => returns_pure ?_) working rfl
    rintro state ⟨rfl, fits⟩
    have there : working.caches.sourceCache.lookup source.canonicalUrl = some source := by
      rw [keyed]
      exact found
    have after := charged.account there fits
    have onlyRead := onlyRead_accounted source.canonicalUrl source.bytes.length working
    refine ⟨after, onlyRead, fun other same => ?_⟩
    cases same
    refine ⟨after, onlyRead, ?_, hasCharged_accounted _ _ _⟩
    unfold accounted
    split <;> exact there
  case h_2 =>
    refine Returns.ite ?_ fun _ => ?_
    · intro _
      refine returns_pure ?_
      rintro working ⟨rfl, rfl⟩
      exact ⟨charged, .refl _, fun _ none => by cases none⟩
    · refine Returns.via (fun _ working => value = start ∧ working = start) ?_ fun answer => ?_
      · refine (returns_ask fun _ same => same.2).bind fun answer => ?_
        cases answer with
        | threw reentrant => exact returns_throw _
        | _ => exact returns_pure fun _ same => same
      · rintro working ⟨rfl, rfl⟩
        cases answer with
        | none =>
          refine Returns.starting (fun state => state = working) (fun _ same => same)
            (Returns.ite (fun _ => returns_error _) fun _ => ?_) working rfl
          refine Returns.via (fun _ state => Charged loader state ∧ OnlyRead working state)
            (returns_modify ?_) fun _ => returns_pure ?_
          · rintro working rfl
            have alike := alike_enterNegativeSource (purpose, url) working
            exact ⟨alike.charged charged, alike.onlyRead⟩
          · rintro working ⟨after, onlyRead⟩
            exact ⟨after, onlyRead, fun _ none => by cases none⟩
        | some hostSource =>
          refine ((returns_verifySource charged purpose hostSource).bind fun read =>
            returns_pure ?_) working rfl
          intro working read
          refine ⟨read.charged, read.onlyRead, fun source same => ?_⟩
          cases same
          exact read

theorem keptByResolution_charged (start : Working) :
    KeptByResolution loader (fun working => Charged loader working ∧ OnlyRead start working)
      fun _ => True where
  breaks _ _ := trivial
  read url purpose := by
    refine Returns.keeps fun working held => ?_
    refine (returns_readVerifiedSource held.1 url purpose working rfl).weaken ?_ ?_
    · rintro question state rfl
      exact held
    · intro result state reached value same
      obtain ⟨charged, onlyRead, _⟩ := reached value same
      exact ⟨charged, held.2.trans onlyRead⟩
  resolution key url working held := by
    have alike := alike_enterResolution key url working
    exact ⟨alike.charged held.1, held.2.trans alike.onlyRead⟩
  package key packageData working held := by
    have alike := alike_enterPackage key packageData working
    exact ⟨alike.charged held.1, held.2.trans alike.onlyRead⟩
  steps steps working held := by
    have alike := alike_countSteps steps working
    exact ⟨alike.charged held.1, held.2.trans alike.onlyRead⟩

end Verifying

end Holonomy.Modules
