import Holonomy.Modules.Loader

/-!
# Resolution

A specifier is resolved from the module that asks: it names one of the engine's own modules, a URL,
a package that is searched for in the directories above, or an entry of the asking package's
imports. The conditions that hold select a target in the entries of a package.
-/

namespace Holonomy.Modules

open Foundation

/-! ## URLs and sources

URLs stay below the root.
-/

def Caches.NeedsGrant (caches : Caches) (url : Text) : Prop :=
  url ∉ caches.moduleGrantUrls ∨
    (caches.sourceCache.lookup (caches.knownCanonicalUrl url)).any VerifiedSource.metadataOnly

instance (caches : Caches) (url : Text) : Decidable (caches.NeedsGrant url) :=
  inferInstanceAs (Decidable (_ ∨ _))

namespace HolonomyModuleLoader

variable (loader : HolonomyModuleLoader)

section Urls

def newUrl (value : Text) (base : Option Text) : Except HolonomyModuleLoaderError Url :=
  match loader.urls.parse value base with
  | some url => .ok url
  | none => .error ⟨.typeError, none, none⟩

def toDirectoryUrl (url : Url) : Url :=
  let directory := loader.urls.clearQuery url
  if endsWith directory.pathname (js "/") then directory
  else loader.urls.setPathname directory
    ((directory.pathname.reverse.dropWhile fun unit => unit ≠ 47).reverse)

def parentDirectoryUrl (url : Url) : Except HolonomyModuleLoaderError Url :=
  (loader.newUrl (js "../") (some url.href)).map loader.urls.clearQuery

/-- The extension of a path: what follows the last dot of its last segment, with the dot. -/
def extensionOf (pathname : Text) : Text :=
  let fileName := (pathname.reverse.takeWhile fun unit => unit ≠ 47).reverse
  if 46 ∈ fileName then
    toLowerCase (46 :: (fileName.reverse.takeWhile fun unit => unit ≠ 46).reverse)
  else []

def pathExtension (url : Text) : Except HolonomyModuleLoaderError Text :=
  (loader.newUrl url none).map fun parsed => extensionOf parsed.pathname

def withPathSuffix (url : Url) (suffix : Text) : Text :=
  (loader.urls.setPathname url (url.pathname ++
    if endsWith url.pathname (js "/") ∧ startsWith suffix (js "/") then suffix.tail
    else suffix)).href

def assertSafeEncodedPath (url : Url) (original : Text) : Except HolonomyModuleLoaderError Unit :=
  if hasEscapedSeparator true url.pathname then failUrl .invalidUrl original
  else
    match decodeURIComponent url.pathname with
    | none => failUrl .invalidUrl original
    | some decoded => if 92 ∈ decoded ∨ 0 ∈ decoded then failUrl .invalidUrl original else .ok ()

def normalizeRootUrl (urls : UrlParser) (value : Text) : Except HolonomyModuleLoaderError Text :=
  match urls.parse value none with
  | none => failUrl .invalidUrl value
  | some root =>
    if root.protocol = [] ∨ root.protocol = js "node:" ∨ root.pathname = [] ∨
        ¬ startsWith root.href (root.protocol ++ js "//") then
      failUrl .unsupportedScheme value
    else if root.search ≠ [] ∨ root.hash ≠ [] then failUrl .invalidUrl value
    else do
      let directory :=
        if endsWith root.pathname (js "/") then root
        else urls.setPathname root (root.pathname ++ js "/")
      assertSafeEncodedPath directory value
      .ok directory.href

def Inside (root url : Url) : Prop :=
  url.protocol = root.protocol ∧ url.username = root.username ∧ url.password = root.password ∧
    url.host = root.host ∧ startsWith url.pathname root.pathname

instance (root url : Url) : Decidable (Inside root url) := inferInstanceAs (Decidable (_ ∧ _))

def canonicalizeModuleUrl (value parentUrl : Text) (allowFragment : Bool) :
    Except HolonomyModuleLoaderError Text :=
  if 92 ∈ value ∨ 0 ∈ value then failUrl .invalidUrl value
  else
    match loader.urls.parse value (some parentUrl) with
    | none => failUrl .invalidUrl value
    | some url => do
      if ¬ allowFragment ∧ url.hash ≠ [] then failUrl .invalidUrl url.href
      else
        assertSafeEncodedPath url value
        let root ← loader.newUrl loader.rootUrl none
        if Inside root url then .ok url.href else failUrl .pathEscape url.href

/-- The module is one of the engine's own. -/
def isSynthetic (name : Text) : Bool := (loader.syntheticNodeModules.map Prod.fst).contains name

/-- An own module of the engine. -/
def resolveSynthetic (specifier : Text) : Except HolonomyModuleLoaderError Text :=
  if 63 ∈ specifier ∨ 35 ∈ specifier ∨ specifier = js "node:" ∨ specifier = js "holo:" ∨
      ¬ loader.isSynthetic specifier then failSpecifier .syntheticNotFound specifier
  else .ok specifier

def canonicalizeModuleParent (caches : Caches) (value : Text) :
    Except HolonomyModuleLoaderError Text :=
  if loader.isSynthetic value ∨ hasSyntheticScheme value then loader.resolveSynthetic value
  else (loader.canonicalizeModuleUrl value loader.rootUrl false).map caches.knownCanonicalUrl

def canonicalizeHostSourceUrl (value : Option (Option Text)) (requestedUrl : Text) :
    Except HolonomyModuleLoaderError Text :=
  match value with
  | none => .ok requestedUrl
  | some none => failUrl .sourceInvalid requestedUrl
  | some (some value) =>
    if ¬ hasScheme value then failUrl .sourceInvalid requestedUrl
    else
      match loader.urls.parse value none, loader.urls.parse requestedUrl none with
      | some parsed, some requested =>
        if parsed.href ≠ value ∨ parsed.search ≠ requested.search ∨
            decide (63 ∈ parsed.href) ≠ decide (63 ∈ requested.href) ∨ parsed.hash ≠ [] ∨
            endsWith parsed.href (js "#") ≠ endsWith requested.href (js "#") then
          failUrl .sourceInvalid requestedUrl
        else
          match loader.canonicalizeModuleUrl value loader.rootUrl false with
          | .ok canonical =>
            if canonical ≠ value then failUrl .sourceInvalid requestedUrl else .ok value
          | .error _ => failUrl .sourceInvalid requestedUrl
      | _, _ => failUrl .sourceInvalid requestedUrl

def assertSupportedModuleExtension (url : Text) : Except HolonomyModuleLoaderError Unit := do
  let extension ← loader.pathExtension url
  if extension = js ".node" then failUrl .nativeAddonUnsupported url
  else if extension = js ".json" ∧ ¬ loader.allowJsonModules then failUrl .jsonUnsupported url
  else if extension ≠ [] ∧ extension ∉ [js ".cjs", js ".js", js ".mjs"] ∧
      ¬ (loader.allowJsonModules ∧ extension = js ".json") then failUrl .formatUnsupported url
  else .ok ()

end Urls

section Sources

def readHostSource (url : Text) (purpose : ModuleReadPurpose) : Load (Option HostModuleSource) := do
  match ← Asking.ask ⟨url, purpose⟩ with
  | .threw reentrant =>
    Asking.throw (if reentrant then ⟨.reentrantHostCall, none, none⟩
      else ⟨.hostReadFailed, some url, none⟩)
  | .missing => pure none
  | .source source => pure (some source)

def readHostMetadataOnly (source : HostModuleSource) (purpose : ModuleReadPurpose) (url : Text) :
    Except HolonomyModuleLoaderError Bool :=
  match source.metadataOnly with
  | none => .ok false
  | some none => failUrl .sourceInvalid url
  | some (some ()) => if purpose = .module then failUrl .hostReadFailed url else .ok true

def integrityFails (digest : Text) (claimed : Text) (url canonicalUrl : Text)
    (existing : Option VerifiedSource) (bytes : List UInt8) : Bool :=
  let expected (url : Text) := (loader.expectedIntegrity.find? fun entry => entry.1 = url).map
    Prod.snd
  !Kernel.isDigest claimed || digest != claimed || (expected url).any
    (fun known => digest != known) ||
    (expected canonicalUrl).any (fun known => digest != known) ||
    existing.any fun known => digest != known.sha256 || bytes != known.bytes

def regrantSource (existing : VerifiedSource) (url canonicalUrl : Text)
    (purpose : ModuleReadPurpose) (metadataOnly : Bool) : Load VerifiedSource := do
  let verified :=
    if purpose = .module then { existing with grant := .module, metadataOnly := false }
    else if metadataOnly ∧ ¬ existing.metadataOnly then { existing with metadataOnly := true }
    else existing
  Asking.when (purpose = .module ∨ (metadataOnly ∧ ¬ existing.metadataOnly))
    (replaceSource canonicalUrl verified)
  Asking.when (purpose = .module) (publishModuleGrant url canonicalUrl)
  publishAlias url canonicalUrl
  pure verified

def verifySource (url : Text) (purpose : ModuleReadPurpose) (cached : Option VerifiedSource)
    (hostSource : HostModuleSource) : Load VerifiedSource := do
  match hostSource.bytes, hostSource.sha256 with
  | some bytes, some claimed => do
    let metadataOnly ← Asking.lift (readHostMetadataOnly hostSource purpose url)
    let canonicalUrl ← Asking.lift (loader.canonicalizeHostSourceUrl hostSource.canonicalUrl url)
    let working ← Asking.get
    if cached.any fun known => canonicalUrl ≠ known.canonicalUrl then
      Asking.lift (failUrl .sourceInvalid url)
    else if canonicalUrl ≠ url ∧ (working.caches.aliasCache.lookup canonicalUrl).isSome then
      Asking.lift (failUrl .sourceInvalid url)
    else do
      accountSource loader canonicalUrl bytes.length
      let digest := Kernel.sha256Hex bytes
      let existing := working.caches.sourceCache.lookup canonicalUrl
      if loader.integrityFails digest claimed url canonicalUrl existing bytes then
        Asking.lift (failUrl .integrity url)
      else
        match existing with
        | some existing => regrantSource existing url canonicalUrl purpose metadataOnly
        | none =>
          match decodeUtf8 bytes with
          | none => Asking.lift (failUrl .sourceInvalid url)
          | some source => do
            let verified : VerifiedSource :=
              ⟨bytes.length, bytes, canonicalUrl, purpose, metadataOnly, digest, source⟩
            publishSource canonicalUrl verified
            Asking.when (purpose = .module) (publishModuleGrant url canonicalUrl)
            publishAlias url canonicalUrl
            pure verified
  | _, _ => Asking.lift (failUrl .sourceInvalid url)

def readVerifiedSource (url : Text) (purpose : ModuleReadPurpose) :
    Load (Option VerifiedSource) := do
  let working ← Asking.get
  let cached := working.caches.sourceCache.lookup (working.caches.knownCanonicalUrl url)
  let usable (source : VerifiedSource) : Bool :=
    purpose = .packageMetadata ||
      (decide (url ∈ working.caches.moduleGrantUrls) && !source.metadataOnly)
  match cached.filter usable with
  | some source => do
    accountSource loader source.canonicalUrl source.byteLength
    pure (some source)
  | none =>
    if cached = none ∧ (purpose, url) ∈ working.caches.negativeSourceCache then pure none
    else do
      match ← readHostSource url purpose with
      | none =>
        if cached ≠ none then Asking.lift (failUrl .hostReadFailed url)
        else do
          publishNegativeSource (purpose, url)
          pure none
      | some hostSource => do
        let verified ← loader.verifySource url purpose cached hostSource
        pure (some verified)

def readGrantedSource (url : Text) : Load VerifiedSource := do
  match ← loader.readVerifiedSource url .module with
  | none => Asking.lift (failUrl .hostReadFailed url)
  | some granted => pure granted

def canonicalizeResolvedModuleAlias (url : Text) : Load Text := do
  let working ← Asking.get
  Asking.when ((working.caches.aliasCache.lookup url).isSome ∧ working.caches.NeedsGrant url) do
    let _ ← loader.readGrantedSource url
    pure ()
  let working ← Asking.get
  pure (working.caches.knownCanonicalUrl url)

end Sources

variable (loader : HolonomyModuleLoader)

section Packages

def fileUrl (name directory : Text) : Except HolonomyModuleLoaderError Text :=
  (loader.newUrl name (some directory)).map Url.href

def parsePackage (source : VerifiedSource) : Option ParsedPackage := do
  let url ← loader.urls.parse source.canonicalUrl none
  if ¬ endsWith url.pathname (js "/package.json") then none
  else
    match ← JsonValue.parse loader.numbers source.source with
    | .object members => do
      let type ← match member members (js "type") with
        | none => some .commonjs
        | some .null => some .commonjs
        | some (.string text) =>
          if text = js "module" then some .module
          else if text = js "commonjs" then some .commonjs
          else none
        | some _ => none
      let root ← loader.urls.parse (js "./") (some source.canonicalUrl)
      some ⟨members, root.href, type⟩
    | _ => none

def invalidPackageConfig {α : Type} (rootUrl packageJsonUrl : Text) : Load α := do
  publishPackage rootUrl none
  Asking.lift (failUrl .invalidPackageConfig packageJsonUrl)

def readPackage (rootUrl : Text) : Load ParsedPackage := do
  let working ← Asking.get
  match working.caches.packageCache.lookup rootUrl with
  | some (some known) => pure known
  | some none => Asking.lift (failUrl .invalidPackageConfig rootUrl)
  | none => do
    let packageJsonUrl ← Asking.lift (loader.fileUrl (js "package.json") rootUrl)
    match ← loader.readVerifiedSource packageJsonUrl .packageMetadata with
    | none => invalidPackageConfig rootUrl packageJsonUrl
    | some source =>
      match loader.parsePackage source with
      | none => invalidPackageConfig rootUrl packageJsonUrl
      | some parsed => do
        publishPackage rootUrl (some parsed)
        publishPackage parsed.rootUrl (some parsed)
        pure parsed

def inParent {α : Type} (root directory : Url) (otherwise : α) (next : Url → Load α) : Load α :=
  if directory.pathname = root.pathname then pure otherwise
  else do
    let parent ← Asking.lift (loader.parentDirectoryUrl directory)
    if ¬ startsWith parent.pathname root.pathname ∨ parent.pathname = directory.pathname then
      pure otherwise
    else next parent

def packageScopeFrom (root : Url) : ℕ → Url → Load (Option ParsedPackage)
  | 0, _ => pure none
  | fuel + 1, directory =>
    if ¬ startsWith directory.pathname root.pathname ∨
        endsWith directory.pathname (js "/node_modules/") then pure none
    else do
      let packageJsonUrl ← Asking.lift (loader.fileUrl (js "package.json") directory.href)
      match ← loader.readVerifiedSource packageJsonUrl .packageMetadata with
      | some _ => do
        let found ← loader.readPackage directory.href
        pure (some found)
      | none => loader.inParent root directory none (packageScopeFrom root fuel)

/-- The package that a module belongs to. -/
def findPackageScope (parentUrl : Text) : Load (Option ParsedPackage) :=
  if hasSyntheticScheme parentUrl then pure none
  else do
    let parent ← Asking.lift (loader.newUrl parentUrl none)
    let root ← Asking.lift (loader.newUrl loader.rootUrl none)
    let directory := loader.toDirectoryUrl parent
    loader.packageScopeFrom root (directory.pathname.length + 1) directory

end Packages

section Targets

def firstExisting (url : Text) : List Text → Load Text
  | [] => Asking.lift (failUrl .notFound url)
  | candidate :: rest => do
    match ← loader.readVerifiedSource candidate .module with
    | some source => do
      Asking.lift (loader.assertSupportedModuleExtension source.canonicalUrl)
      pure source.canonicalUrl
    | none => firstExisting url rest

/-- The URLs under which a module is looked for. -/
def candidates (base : Url) (url : Text) (exactly : Bool) : List Text :=
  if exactly ∨ extensionOf base.pathname ≠ [] then [url]
  else
    let json (suffix : Text) := if loader.allowJsonModules then [suffix] else []
    let files := [js ".js", js ".mjs", js ".cjs"] ++ json (js ".json")
    let indices := [js "/index.js", js "/index.mjs", js "/index.cjs"] ++ json (js "/index.json")
    ((if endsWith base.pathname (js "/") then []
      else url :: files.map (loader.withPathSuffix base)) ++
      indices.map (loader.withPathSuffix base)).eraseDups

def resolveExistingModuleUrl (url : Text) (exactly : Bool) : Load Text := do
  let base ← Asking.lift (loader.newUrl url none)
  Asking.when (extensionOf base.pathname ≠ [])
    (Asking.lift (loader.assertSupportedModuleExtension url))
  loader.firstExisting url (loader.candidates base url exactly)

def conditions (mode : ModuleResolutionMode) : List Text :=
  (if loader.sourceProfile then [js "__oneworks__", js "source"] else []) ++
    match mode with
    | .import => [js "import", js "module", js "default"]
    | .require => [js "require", js "default"]

def validatePackageTarget (specifier rootUrl : Text) (isInternal : Bool) (target : Text) :
    Except HolonomyModuleLoaderError Text :=
  if startsWith target (js "./") then
    let path := (target.drop 2).takeWhile fun unit => unit ≠ 63 ∧ unit ≠ 35
    if hasEscapedSeparator false path then failBoth .invalidModuleSpecifier specifier rootUrl
    else if path = [] ∨ 35 ∈ target ∨ invalidPackageSegments path then
      failBoth .invalidPackageTarget specifier rootUrl
    else
      match loader.canonicalizeModuleUrl target rootUrl false with
      | .error _ => failBoth .invalidPackageTarget specifier rootUrl
      | .ok resolved =>
        if startsWith resolved rootUrl then .ok target
        else failBoth .invalidPackageTarget specifier rootUrl
  else if isInternal ∧ startsWith target (js "#") ∧ target ≠ js "#" ∧
      ¬ startsWith target (js "#/") then .ok target
  else if isInternal ∧ (splitPackageSpecifier target).isSome ∧ ¬ hasScheme target then .ok target
  else failBoth .invalidPackageTarget specifier rootUrl

/-- How many conditions may be nested. -/
def maxPackageTargetDepth : ℕ := 32

def selectTarget (selected : SelectedEntry) (mode : ModuleResolutionMode)
    (validate : Text → Except HolonomyModuleLoaderError Text) : Load Selected := do
  let working ← Asking.get
  let selection := selectConditionalTarget (loader.conditions mode) selected.pattern validate
    (maxPackageTargetDepth + 1) selected.entry working.transaction.packageTargetSteps
  update (countSteps selection.1)
  Asking.lift selection.2

def targetUrl (target : Text) (rootUrl : Text) : Load Text := do
  let resolved ← Asking.lift (loader.canonicalizeModuleUrl target rootUrl false)
  Asking.lift (loader.assertSupportedModuleExtension resolved)
  let canonical ← loader.canonicalizeResolvedModuleAlias resolved
  Asking.lift (loader.assertSupportedModuleExtension canonical)
  pure canonical

def nonemptyText : Option JsonValue → Option Text
  | some (.string text) => if text = [] then none else some text
  | _ => none

def legacyTarget (packageData : ParsedPackage) (exportKey : Text) (mode : ModuleResolutionMode) :
    Text :=
  let target :=
    if exportKey ≠ js "." then exportKey
    else
      let main := nonemptyText (member packageData.manifest (js "main"))
      let module := nonemptyText (member packageData.manifest (js "module"))
      ((match mode with
        | .import => module <|> main
        | .require => main <|> module)).getD (js "./index.js")
  if target ≠ [] ∧ ¬ startsWith target (js "./") ∧ ¬ startsWith target (js "../") ∧
      ¬ startsWith target (js "/") ∧ ¬ startsWith target (js "#") ∧ ¬ hasScheme target then
    js "./" ++ target
  else target

def checkRelative (specifier rootUrl target : Text) : Except HolonomyModuleLoaderError Unit :=
  if ¬ startsWith target (js "./") ∨ 0 ∈ target ∨ 92 ∈ target then
    failBoth .invalidPackageConfig specifier rootUrl
  else .ok ()

/-- A target is in its package. -/
def checkInside (specifier rootUrl resolved : Text) : Except HolonomyModuleLoaderError Unit :=
  if startsWith resolved rootUrl then .ok () else failBoth .pathEscape specifier resolved

def resolveExported (rootUrl : Text) (exportsValue : JsonValue) (exportKey : Text)
    (mode : ModuleResolutionMode) (specifier : Text) : Load Text := do
  match selectExportEntry exportsValue exportKey with
  | none => Asking.lift (failBoth .packagePathNotExported specifier rootUrl)
  | some selected => do
    match ← loader.selectTarget selected mode
        (loader.validatePackageTarget specifier rootUrl false) with
    | .target target => do
      Asking.lift (checkRelative specifier rootUrl target)
      let resolved ← Asking.lift (loader.canonicalizeModuleUrl target rootUrl false)
      Asking.lift (checkInside specifier rootUrl resolved)
      Asking.lift (loader.assertSupportedModuleExtension resolved)
      let canonical ← loader.canonicalizeResolvedModuleAlias resolved
      Asking.lift (loader.assertSupportedModuleExtension canonical)
      pure canonical
    | _ => Asking.lift (failBoth .packagePathNotExported specifier rootUrl)

def resolvePackageEntry (packageData : ParsedPackage) (exportKey : Text)
    (mode : ModuleResolutionMode) (specifier : Text) : Load Text :=
  match member packageData.manifest (js "exports") with
  | some exportsValue =>
    loader.resolveExported packageData.rootUrl exportsValue exportKey mode specifier
  | none => do
    let target := legacyTarget packageData exportKey mode
    Asking.lift (checkRelative specifier packageData.rootUrl target)
    let resolved ← Asking.lift (loader.canonicalizeModuleUrl target packageData.rootUrl false)
    Asking.lift (checkInside specifier packageData.rootUrl resolved)
    loader.resolveExistingModuleUrl resolved false

end Targets

section Specifiers

def packageFrom (root : Url) (packageName : Text) : ℕ → Url → Load (Option ParsedPackage)
  | 0, _ => pure none
  | fuel + 1, directory =>
    if ¬ startsWith directory.pathname root.pathname then pure none
    else do
      let packageRoot ← Asking.lift
        (loader.fileUrl (js "node_modules/" ++ packageName ++ js "/") directory.href)
      let packageJsonUrl ← Asking.lift (loader.fileUrl (js "package.json") packageRoot)
      match ← loader.readVerifiedSource packageJsonUrl .packageMetadata with
      | some _ => do
        let found ← loader.readPackage packageRoot
        pure (some found)
      | none => loader.inParent root directory none (packageFrom root packageName fuel)

def isSelf (scope : Option ParsedPackage) (packageName : Text) : Option ParsedPackage :=
  scope.filter fun scope =>
    (match member scope.manifest (js "name") with
      | some (.string name) => name == packageName
      | _ => false) && (member scope.manifest (js "exports")).isSome

def resolvePackage (specifier parentUrl : Text) (mode : ModuleResolutionMode) : Load Text :=
  match splitPackageSpecifier specifier with
  | none => Asking.lift (failSpecifier .notFound specifier)
  | some parsed => do
    let scope ← loader.findPackageScope parentUrl
    match isSelf scope parsed.packageName with
    | some scope => loader.resolvePackageEntry scope parsed.exportKey mode specifier
    | none => do
      let parent ← Asking.lift (loader.newUrl parentUrl none)
      let root ← Asking.lift (loader.newUrl loader.rootUrl none)
      let directory := loader.toDirectoryUrl parent
      match ← loader.packageFrom root parsed.packageName (directory.pathname.length + 1)
          directory with
      | some found => loader.resolvePackageEntry found parsed.exportKey mode specifier
      | none => Asking.lift (failSpecifier .notFound specifier)

abbrev Resolver := Text → Text → ModuleResolutionMode → Load Text

def importEntry (scope : Option ParsedPackage) (specifier : Text) :
    Except HolonomyModuleLoaderError (Option (ParsedPackage × SelectedEntry)) :=
  match scope with
  | none => .ok none
  | some scope =>
    match member scope.manifest (js "imports") with
    | none => .ok none
    | some .null => .ok none
    | some (.object imports) =>
      .ok ((selectImportEntry imports specifier).map fun entry => (scope, entry))
    | some _ => failBoth .invalidPackageConfig specifier scope.rootUrl

def InvalidImport (specifier : Text) : Prop :=
  specifier = js "#" ∨ startsWith specifier (js "#/") ∨ endsWith specifier (js "/") ∨
    92 ∈ specifier ∨ 37 ∈ specifier ∨ invalidPackageSegments (specifier.drop 1)
  deriving Decidable

def resolveImportTarget (resolve : Resolver) (rootUrl target : Text)
    (mode : ModuleResolutionMode) : Load Text :=
  if startsWith target (js "./") then loader.targetUrl target rootUrl
  else if startsWith target (js "#") then Asking.lift (failBoth .notFound target rootUrl)
  else do
    let packageJsonUrl ← Asking.lift (loader.fileUrl (js "package.json") rootUrl)
    resolve target packageJsonUrl mode

def resolvePackageImport (resolve : Resolver) (specifier parentUrl : Text)
    (mode : ModuleResolutionMode) : Load Text :=
  if InvalidImport specifier then
    Asking.lift (failBoth .invalidModuleSpecifier specifier parentUrl)
  else do
    let scope ← loader.findPackageScope parentUrl
    match ← Asking.lift (importEntry scope specifier) with
    | none => Asking.lift (failBoth .packageImportNotDefined specifier
        ((scope.map ParsedPackage.rootUrl).getD parentUrl))
    | some (scope, entry) => do
      match ← loader.selectTarget entry mode
          (loader.validatePackageTarget specifier scope.rootUrl true) with
      | .target target => loader.resolveImportTarget resolve scope.rootUrl target mode
      | _ => Asking.lift (failBoth .packageImportNotDefined specifier scope.rootUrl)

/-- The own module of the engine that a specifier may name. -/
def declaredBuiltin (specifier : Text) : Text :=
  if ¬ startsWith specifier (js "#") ∧ loader.isSynthetic (js "node:" ++ specifier) then
    js "node:" ++ specifier
  else specifier

def resolveUncached (imports : Resolver) (specifier canonicalParent : Text)
    (mode : ModuleResolutionMode) : Load Text :=
  if startsWith specifier (js "#") then imports specifier canonicalParent mode
  else if startsWith specifier (js ".") ∨ startsWith specifier (js "/") ∨
    hasScheme specifier then do
    let url ← Asking.lift (loader.canonicalizeModuleUrl specifier canonicalParent false)
    loader.resolveExistingModuleUrl url (mode = .import)
  else loader.resolvePackage specifier canonicalParent mode

def resolveWith (imports : Resolver) : Resolver := fun specifier parentUrl mode =>
  if specifier = [] ∨ ¬ isTrimmed specifier ∨ 0 ∈ specifier then
    Asking.lift (failSpecifier .invalidUrl specifier)
  else do
    let working ← Asking.get
    let canonicalParent ← Asking.lift (loader.canonicalizeModuleParent working.caches parentUrl)
    match working.caches.resolutionCache.lookup (resolutionKey canonicalParent mode specifier) with
    | some cached => loader.canonicalizeResolvedModuleAlias cached
    | none =>
      let builtin := loader.declaredBuiltin specifier
      if loader.isSynthetic builtin ∨ hasSyntheticScheme builtin then do
        let resolvedUrl ← Asking.lift (loader.resolveSynthetic builtin)
        publishResolution (resolutionKey canonicalParent mode specifier) resolvedUrl
      else do
        let resolvedUrl ← loader.resolveUncached imports specifier canonicalParent mode
        let canonical ← loader.canonicalizeResolvedModuleAlias resolvedUrl
        publishResolution (resolutionKey canonicalParent mode specifier) canonical

/-- Targets of imports are no entries of imports. -/
def noImports : Resolver := fun specifier _ _ => Asking.lift (failSpecifier .notFound specifier)

def resolveInternal : Resolver :=
  loader.resolveWith (loader.resolvePackageImport (loader.resolveWith noImports))

end Specifiers

end HolonomyModuleLoader

end Holonomy.Modules
