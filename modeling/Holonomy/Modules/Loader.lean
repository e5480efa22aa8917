import Holonomy.Foundation.Hexadecimal
import Holonomy.Foundation.Asking
import Holonomy.Kernel.Platform

/-!
# The caches of the module loader

The loader keeps what it resolved, read and loaded in caches. A transaction notes everything that it
enters, so that it can be taken out again: keys that are new, and the former values of sources that
are replaced. How URLs are parsed and what a source contains are parameters of a loader.
-/

namespace Holonomy.Modules

open Foundation

/-! ## Specifiers and the targets of packages

A specifier names a package and something in it.
-/

inductive HolonomyModuleLoaderErrorCode where
  | dynamicRequireUnsupported
  | formatUnsupported
  | hostReadFailed
  | integrity
  | invalidPackageConfig
  | invalidUrl
  | jsonUnsupported
  | nativeAddonUnsupported
  | notFound
  | pathEscape
  | reentrantHostCall
  | resourceExhausted
  | sourceInvalid
  | syntheticNotFound
  | unsupportedScheme
  | invalidModuleSpecifier
  | invalidPackageTarget
  | packageImportNotDefined
  | packagePathNotExported
  | requireEsm
  /-- No error of the loader but one of the language, as of a URL that cannot be parsed. -/
  | typeError
  deriving DecidableEq

/-- An error of the loader. -/
structure HolonomyModuleLoaderError where
  code : HolonomyModuleLoaderErrorCode
  url : Option Text
  specifier : Option Text
  deriving DecidableEq

def failUrl {α : Type} (code : HolonomyModuleLoaderErrorCode) (url : Text) :
    Except HolonomyModuleLoaderError α :=
  .error ⟨code, some url, none⟩

def failSpecifier {α : Type} (code : HolonomyModuleLoaderErrorCode) (specifier : Text) :
    Except HolonomyModuleLoaderError α :=
  .error ⟨code, none, some specifier⟩

def failBoth {α : Type} (code : HolonomyModuleLoaderErrorCode) (specifier url : Text) :
    Except HolonomyModuleLoaderError α :=
  .error ⟨code, some url, some specifier⟩

section Texts

def startsWith (text start : Text) : Bool := start.isPrefixOf text

def endsWith (text stop : Text) : Bool := stop.isSuffixOf text

def isLetter (unit : UInt16) : Bool := (65 ≤ unit && unit ≤ 90) || (97 ≤ unit && unit ≤ 122)

def isDigit (unit : UInt16) : Bool := 48 ≤ unit && unit ≤ 57

/-- A letter up to case: two letters beyond ASCII fold to `s` and `k`. -/
def isFoldedLetter (unit : UInt16) : Bool := isLetter unit || unit == 0x17F || unit == 0x212A

def hasScheme (text : Text) : Bool :=
  text.head?.any isFoldedLetter &&
    (text.tail.dropWhile fun unit =>
      isFoldedLetter unit || isDigit unit || unit == 43 || unit == 45 || unit == 46).head?
        == some 58

/-- The text opens with a scheme of the engine's own modules. -/
def hasSyntheticScheme (text : Text) : Bool :=
  startsWith text (js "holo:") || startsWith text (js "node:")

def isTrimmed (text : Text) : Bool := !text.head?.any isWhitespace && !text.getLast?.any
    isWhitespace

/-- A letter in lower case. -/
def lowerUnit (unit : UInt16) : UInt16 := if 65 ≤ unit && unit ≤ 90 then unit + 32 else unit

def toLowerCase (text : Text) : Text := text.map lowerUnit

/-- Two hexadecimal digits as a byte. -/
def hexByte (first second : UInt16) : Option UInt8 := do
  let high ← hexValue first
  let low ← hexValue second
  some (UInt8.ofNat (high * 16 + low))

def escapedBytes : ℕ → Text → List UInt8
  | 0, _ => []
  | count + 1, 37 :: first :: second :: rest =>
    match hexByte first second with
    | some byte => byte :: escapedBytes count rest
    | none => []
  | _, _ => []

/-- Take off the escapes of a text, unless they spell no characters. -/
def decodeUriFrom : ℕ → Text → Option Text
  | 0, _ => none
  | _, [] => some []
  | fuel + 1, unit :: rest =>
    if unit = 37 then do
      let (point, remaining) ← decodePoint (escapedBytes 4 (unit :: rest))
      let used := (escapedBytes 4 (unit :: rest)).length - remaining.length
      let decoded ← decodeUriFrom fuel ((unit :: rest).drop (3 * used))
      some (fromCodePoint point ++ decoded)
    else (decodeUriFrom fuel rest).map fun decoded => unit :: decoded

/-- Take off the escapes of a text. -/
def decodeURIComponent (text : Text) : Option Text := decodeUriFrom (text.length + 1) text

def hasEscapedSeparator (withNul : Bool) : Text → Bool
  | 37 :: first :: second :: rest =>
    (withNul && first == 48 && second == 48) || (first == 50 && lowerUnit second == 102) ||
      (first == 53 && lowerUnit second == 99) || hasEscapedSeparator withNul
        (first :: second :: rest)
  | _ :: rest => hasEscapedSeparator withNul rest
  | [] => false

/-- A text as the replacement of a star between two others. -/
def substitution (before after : Text) : Text → Text
  | 36 :: 36 :: rest => 36 :: substitution before after rest
  | 36 :: 38 :: rest => 42 :: substitution before after rest
  | 36 :: 96 :: rest => before ++ substitution before after rest
  | 36 :: 39 :: rest => after ++ substitution before after rest
  | unit :: rest => unit :: substitution before after rest
  | [] => []

def replaceStars (replacement before : Text) : Text → Text
  | [] => []
  | unit :: rest =>
    (if unit = 42 then substitution before rest replacement else [unit]) ++
      replaceStars replacement (before ++ [unit]) rest

end Texts

section Packages

def member (members : List (Text × JsonValue)) (key : Text) : Option JsonValue :=
  (members.find? fun entry => entry.1 = key).map Prod.snd

structure PackageSpecifier where
  exportKey : Text
  packageName : Text
  deriving DecidableEq

def joinSegments (segments : List Text) : Text := join 47 segments

def splitPackageSpecifier (specifier : Text) : Option PackageSpecifier :=
  if specifier = [] ∨ 92 ∈ specifier ∨ 0 ∈ specifier ∨ 37 ∈ specifier ∨ 63 ∈ specifier ∨
      35 ∈ specifier then none
  else
    let segments := specifier.splitOn 47
    let packageSegmentCount := if startsWith specifier (js "@") then 2 else 1
    if segments.length < packageSegmentCount ∨
        ∃ segment ∈ segments, segment = [] ∨ segment = js "." ∨ segment = js ".." then none
    else some {
      exportKey :=
        if segments.length = packageSegmentCount then js "."
        else js "./" ++ joinSegments (segments.drop packageSegmentCount)
      packageName := joinSegments (segments.take packageSegmentCount) }

/-- A segment of a target that is refused. -/
def invalidPackageSegment (segment : Text) : Bool :=
  segment == [] ||
    match decodeURIComponent segment with
    | none => true
    | some decoded =>
      decoded == js "." || decoded == js ".." || toLowerCase decoded == js "node_modules" ||
        decoded.any fun unit => unit == 47 || unit == 92 || unit == 0 || unit == 37 || unit == 63 ||
          unit == 35

/-- A path with a segment that is refused. -/
def invalidPackageSegments (value : Text) : Bool := (value.splitOn 47).any invalidPackageSegment

def matchExportPattern (pattern key : Text) : Option Text :=
  if 42 ∉ pattern then none
  else
    let start := pattern.takeWhile fun unit => unit ≠ 42
    let stop := pattern.drop (start.length + 1)
    if key.length < pattern.length ∨ ¬ startsWith key start ∨ ¬ endsWith key stop then none
    else some ((key.take (key.length - stop.length)).drop start.length)

/-- How long a pattern is in front of what its star stands for. -/
def patternBase (pattern : Text) : ℕ :=
  if 42 ∈ pattern then (pattern.takeWhile fun unit => unit ≠ 42).length + 1 else pattern.length

/-- Longer patterns come first, first by what is in front of the star. -/
def compareExportPattern : Precedence Text :=
  ((Precedence.ofLinear ℕᵒᵈ).comap fun pattern => OrderDual.toDual (patternBase pattern)).andThen
    ((Precedence.ofLinear ℕᵒᵈ).comap fun pattern => OrderDual.toDual pattern.length)

structure SelectedEntry where
  entry : JsonValue
  pattern : Option Text

def bestPattern (members : List (Text × JsonValue)) (patterns : List Text) (key : Text) :
    Option SelectedEntry := do
  let found := patterns.filterMap fun pattern =>
    (matchExportPattern pattern key).map fun text => (pattern, text)
  let best ← ((compareExportPattern.comap Prod.fst).sort found).head?
  let entry ← member members best.1
  some ⟨entry, some best.2⟩

def selectExportEntry (exportsValue : JsonValue) (exportKey : Text) : Option SelectedEntry :=
  match exportsValue with
  | .object members =>
    let keys := members.map Prod.fst
    if keys.any fun key => startsWith key (js ".") then
      match member members exportKey with
      | some entry => some ⟨entry, none⟩
      | none => bestPattern members
          (keys.filter fun key => startsWith key (js "./") && decide (42 ∈ key)) exportKey
    else if exportKey = js "." then some ⟨exportsValue, none⟩ else none
  | _ => if exportKey = js "." then some ⟨exportsValue, none⟩ else none

def selectImportEntry (imports : List (Text × JsonValue)) (specifier : Text) :
    Option SelectedEntry :=
  match if 42 ∈ specifier then none else member imports specifier with
  | some entry => some ⟨entry, none⟩
  | none => bestPattern imports
      ((imports.map Prod.fst).filter fun key =>
        startsWith key (js "#") && decide (key.count 42 = 1)) specifier

inductive Selected where
  | target (value : Text)
  | null
  | undefined
  deriving DecidableEq

/-- The number of steps of a selection, and what it selects or how it fails. -/
abbrev Selection := ℕ × Except HolonomyModuleLoaderError Selected

/-- The most steps of a transaction. -/
def maxPackageTargetSteps : ℕ := 65536

def selectFirst (select : JsonValue → ℕ → Selection) :
    List JsonValue → Option (Except HolonomyModuleLoaderError Unit) → ℕ → Selection
  | [], none, steps => (steps, .ok .undefined)
  | [], some (.ok ()), steps => (steps, .ok .null)
  | [], some (.error error), steps => (steps, .error error)
  | item :: items, last, steps =>
    match select item steps with
    | (steps, .ok .undefined) => selectFirst select items last steps
    | (steps, .ok .null) => selectFirst select items (some (.ok ())) steps
    | (steps, .ok (.target value)) => (steps, .ok (.target value))
    | (steps, .error error) =>
      if error.code = .invalidPackageTarget then selectFirst select items
        (some (.error error)) steps
      else (steps, .error error)

def selectCondition (select : JsonValue → ℕ → Selection) (conditions : List Text) :
    List (Text × JsonValue) → ℕ → Selection
  | [], steps => (steps, .ok .undefined)
  | (condition, value) :: rest, steps =>
    if condition ≠ js "default" ∧ condition ∉ conditions then
      selectCondition select conditions rest steps
    else
      match select value steps with
      | (steps, .ok .undefined) => selectCondition select conditions rest steps
      | other => other

def isArrayIndex (key : Text) : Bool :=
  (key == js "0" || (key.all isDigit && key.head?.any fun unit => unit != 48)) &&
    decide (key.foldl (fun value unit => value * 10 + (unit.toNat - 48)) 0 < 0xFFFFFFFF)

def selectConditionalTarget (conditions : List Text) (pattern : Option Text)
    (validate : Text → Except HolonomyModuleLoaderError Text) : ℕ → JsonValue → ℕ → Selection
  | 0, _, steps => (steps + 1, .error ⟨.resourceExhausted, none, none⟩)
  | levels + 1, value, steps =>
    if steps + 1 > maxPackageTargetSteps then
      (steps + 1, .error ⟨.resourceExhausted, none, none⟩)
    else
      match value with
      | .null => (steps + 1, .ok .null)
      | .string text =>
        let target := match pattern with
          | none => text
          | some pattern => replaceStars pattern [] text
        (steps + 1, (validate target).map .target)
      | .array [] => (steps + 1, .ok .null)
      | .array items =>
        selectFirst (selectConditionalTarget conditions pattern validate levels) items none
          (steps + 1)
      | .object members =>
        if members.any fun entry => isArrayIndex entry.1 then
          (steps + 1, .error ⟨.invalidPackageConfig, none, none⟩)
        else
          selectCondition (selectConditionalTarget conditions pattern validate levels) conditions
            members (steps + 1)
      | _ => (steps + 1, .error ⟨.invalidPackageTarget, none, none⟩)

end Packages

/-- A parsed URL. -/
structure Url where
  protocol : Text
  username : Text
  password : Text
  host : Text
  pathname : Text
  search : Text
  hash : Text
  href : Text
  deriving DecidableEq

/-- How URLs are parsed and changed. -/
structure UrlParser where
  parse : Text → Option Text → Option Url
  setPathname : Url → Text → Url
  clearQuery : Url → Url

/-- What a source is read for. -/
inductive ModuleReadPurpose where
  | module
  | packageMetadata
  deriving DecidableEq

/-- How a specifier is resolved. -/
inductive ModuleResolutionMode where
  | import
  | require
  deriving DecidableEq

/-- What a module is. -/
inductive PlannedModuleFormat where
  | commonjs
  | json
  | module
  | synthetic
  deriving DecidableEq

inductive ModuleDependencyKind where
  | dynamicImport
  | import
  | require
  | requireResolve
  deriving DecidableEq

/-- As what a dependency is seen. -/
inductive ModuleDependencyInterop where
  | commonjsNamespace
  | moduleNamespace
  | syntheticNamespace
  deriving DecidableEq

/-- A dependency of a module. -/
structure ModuleDependency where
  interop : Option ModuleDependencyInterop
  kind : ModuleDependencyKind
  resolvedUrl : Option Text
  specifier : Option Text
  deriving DecidableEq

/-- A loaded module. -/
structure PlannedModule where
  dependencies : List ModuleDependency
  exportNames : List Text
  format : PlannedModuleFormat
  sha256 : Option Text
  source : Option Text
  url : Text
  deriving DecidableEq

/-- A dependency as it is written in a source. -/
structure AnalyzedDependency where
  kind : ModuleDependencyKind
  specifier : Option Text
  deriving DecidableEq

/-- What a source contains. -/
structure ModuleSourceAnalysis where
  dependencies : List AnalyzedDependency
  exportNames : List Text
  usesDlopen : Bool
  deriving DecidableEq

/-- The limits of a loader. -/
structure HolonomyModuleLoaderLimits where
  maxAstDepth : ℕ := 8192
  maxAstNodes : ℕ := 250000
  maxDependenciesPerModule : ℕ := 4096
  maxModules : ℕ := 4096
  maxSourceBytes : ℕ := 8 * 1024 * 1024
  maxTotalSourceBytesPerPlan : ℕ := 32 * 1024 * 1024
  deriving DecidableEq

/-- What a loader is made with, and the parts that it calls. -/
structure HolonomyModuleLoader where
  urls : UrlParser
  analyzeModuleSource : Text → PlannedModuleFormat → Text → HolonomyModuleLoaderLimits →
    Except HolonomyModuleLoaderError ModuleSourceAnalysis
  numbers : NumberFormat
  limits : HolonomyModuleLoaderLimits
  rootUrl : Text
  allowJsonModules : Bool
  captureDynamicImports : Bool
  sourceProfile : Bool
  expectedIntegrity : List (Text × Text)
  /-- The engine's own modules with the names they export. -/
  syntheticNodeModules : List (Text × List Text)

/-- What the host answers to a read. -/
structure HostModuleSource where
  bytes : Option (List UInt8)
  sha256 : Option Text
  canonicalUrl : Option (Option Text)
  metadataOnly : Option (Option Unit)
  deriving DecidableEq

/-- How a read ends. -/
inductive HostAnswer where
  | threw (reentrant : Bool)
  | missing
  | source (source : HostModuleSource)
  deriving DecidableEq

/-- What the host is asked to read. -/
structure HostRead where
  url : Text
  purpose : ModuleReadPurpose
  deriving DecidableEq

structure VerifiedSource where
  byteLength : ℕ
  bytes : List UInt8
  canonicalUrl : Text
  grant : ModuleReadPurpose
  metadataOnly : Bool
  sha256 : Text
  source : Text
  deriving DecidableEq

inductive PackageType where
  | commonjs
  | module
  deriving DecidableEq

/-- A package that was read. -/
structure ParsedPackage where
  manifest : List (Text × JsonValue)
  rootUrl : Text
  type : PackageType

/-- A map from texts. -/
abbrev Cache (α : Type) := Finmap fun _ : Text => α

/-- The caches. -/
structure Caches where
  aliasCache : Cache Text
  moduleCache : Cache PlannedModule
  moduleGrantUrls : Finset Text
  negativeSourceCache : Finset (ModuleReadPurpose × Text)
  packageCache : Cache (Option ParsedPackage)
  resolutionCache : Cache Text
  sourceCache : Cache VerifiedSource

def Caches.new : Caches := ⟨∅, ∅, ∅, ∅, ∅, ∅, ∅⟩

/-- What a transaction entered. -/
structure LoaderTransaction where
  aliasKeys : List Text
  moduleGrantKeys : List Text
  moduleKeys : List Text
  moduleUrls : List Text
  negativeSourceKeys : List (ModuleReadPurpose × Text)
  packageKeys : List Text
  packageTargetSteps : ℕ
  resolutionKeys : List Text
  sourceBytes : List (Text × ℕ)
  sourceKeys : List Text
  sourcePriorValues : List (Text × VerifiedSource)
  totalSourceBytes : ℕ

def LoaderTransaction.new : LoaderTransaction := ⟨[], [], [], [], [], [], 0, [], [], [], [], 0⟩

/-- What a transaction works on. -/
structure Working where
  caches : Caches
  transaction : LoaderTransaction

/-- A program of the loader. -/
abbrev Load (α : Type) := Asking HostRead HostAnswer Working HolonomyModuleLoaderError α

def dropKeys {α : Type} (cache : Cache α) (keys : List Text) : Cache α :=
  keys.foldl (fun cache key => cache.erase key) cache

/-- Put former values back into a map. -/
def restore {α : Type} (cache : Cache α) (prior : List (Text × α)) : Cache α :=
  prior.foldl (fun cache entry => cache.insert entry.1 entry.2) cache

/-- Undo what a transaction entered. -/
def rollbackTransaction (working : Working) : Caches where
  moduleGrantUrls := working.transaction.moduleGrantKeys.foldl Finset.erase
    working.caches.moduleGrantUrls
  aliasCache := dropKeys working.caches.aliasCache working.transaction.aliasKeys
  resolutionCache := dropKeys working.caches.resolutionCache working.transaction.resolutionKeys
  moduleCache := dropKeys working.caches.moduleCache working.transaction.moduleKeys
  packageCache := dropKeys working.caches.packageCache working.transaction.packageKeys
  sourceCache := restore (dropKeys working.caches.sourceCache working.transaction.sourceKeys)
    working.transaction.sourcePriorValues
  negativeSourceCache := working.transaction.negativeSourceKeys.foldl Finset.erase
    working.caches.negativeSourceCache

def resolutionKey (parentUrl : Text) (mode : ModuleResolutionMode) (specifier : Text) : Text :=
  (if mode = .import then js "import" else js "require") ++ 0 :: parentUrl ++ 0 :: specifier

section Entering

def enterResolution (key url : Text) (working : Working) : Working :=
  if (working.caches.resolutionCache.lookup key).isSome then working
  else {
    caches := { working.caches with
      resolutionCache := working.caches.resolutionCache.insert key url }
    transaction := { working.transaction with
      resolutionKeys := working.transaction.resolutionKeys ++ [key] } }

def enterModule (key : Text) (module : PlannedModule) (working : Working) : Working :=
  if (working.caches.moduleCache.lookup key).isSome then working
  else {
    caches := { working.caches with moduleCache := working.caches.moduleCache.insert key module }
    transaction := { working.transaction with
      moduleKeys := working.transaction.moduleKeys ++ [key] } }

def addDependency (url : Text) (dependency : ModuleDependency) (working : Working) : Working :=
  match working.caches.moduleCache.lookup url with
  | none => working
  | some module => { working with
      caches := { working.caches with
        moduleCache := working.caches.moduleCache.insert url { module with
          dependencies := module.dependencies ++ [dependency] } } }

def enterPackage (key : Text) (packageData : Option ParsedPackage) (working : Working) : Working :=
  if (working.caches.packageCache.lookup key).isSome then working
  else {
    caches := { working.caches with
      packageCache := working.caches.packageCache.insert key packageData }
    transaction := { working.transaction with
      packageKeys := working.transaction.packageKeys ++ [key] } }

def enterSource (key : Text) (source : VerifiedSource) (working : Working) : Working :=
  if (working.caches.sourceCache.lookup key).isSome then working
  else {
    caches := { working.caches with sourceCache := working.caches.sourceCache.insert key source }
    transaction := { working.transaction with
      sourceKeys := working.transaction.sourceKeys ++ [key] } }

/-- Put a source in another's place and note the former one, unless that is noted already. -/
def exchangeSource (key : Text) (source : VerifiedSource) (working : Working) : Working :=
  match working.caches.sourceCache.lookup key with
  | none => enterSource key source working
  | some prior => {
      caches := { working.caches with sourceCache := working.caches.sourceCache.insert key source }
      transaction := { working.transaction with
        sourcePriorValues :=
          if key ∈ working.transaction.sourceKeys ∨
              key ∈ working.transaction.sourcePriorValues.map Prod.fst then
            working.transaction.sourcePriorValues
          else working.transaction.sourcePriorValues ++ [(key, prior)] } }

def enterModuleGrant (url : Text) (working : Working) : Working :=
  if url ∈ working.caches.moduleGrantUrls then working
  else {
    caches := { working.caches with moduleGrantUrls := insert url working.caches.moduleGrantUrls }
    transaction := { working.transaction with
      moduleGrantKeys := working.transaction.moduleGrantKeys ++ [url] } }

def enterAlias (url canonicalUrl : Text) (working : Working) : Working :=
  if (working.caches.aliasCache.lookup url).isSome then working
  else {
    caches := { working.caches with
      aliasCache := working.caches.aliasCache.insert url canonicalUrl }
    transaction := { working.transaction with
      aliasKeys := working.transaction.aliasKeys ++ [url] } }

def enterNegativeSource (key : ModuleReadPurpose × Text) (working : Working) : Working :=
  if key ∈ working.caches.negativeSourceCache then working
  else {
    caches := { working.caches with
      negativeSourceCache := insert key working.caches.negativeSourceCache }
    transaction := { working.transaction with
      negativeSourceKeys := working.transaction.negativeSourceKeys ++ [key] } }

def chargeSource (url : Text) (byteLength : ℕ) (working : Working) : Working :=
  { working with transaction := { working.transaction with
      sourceBytes := working.transaction.sourceBytes ++ [(url, byteLength)]
      totalSourceBytes := working.transaction.totalSourceBytes + byteLength } }

def chargeModule (url : Text) (working : Working) : Working :=
  { working with transaction := { working.transaction with
      moduleUrls := working.transaction.moduleUrls ++ [url] } }

def countSteps (steps : ℕ) (working : Working) : Working :=
  { working with transaction := { working.transaction with packageTargetSteps := steps } }

def Caches.knownCanonicalUrl (caches : Caches) (url : Text) : Text :=
  (caches.aliasCache.lookup url).getD url

end Entering

section Publishing

def update (change : Working → Working) : Load Unit := Asking.modify change

/-- The first known resolution under a key counts. -/
def publishResolution (key url : Text) : Load Text := do
  update (enterResolution key url)
  let working ← Asking.get
  pure ((working.caches.resolutionCache.lookup key).getD url)

def publishModule (key : Text) (module : PlannedModule) : Load Unit :=
  update (enterModule key module)

def pushDependency (url : Text) (dependency : ModuleDependency) : Load Unit :=
  update (addDependency url dependency)

def publishPackage (key : Text) (packageData : Option ParsedPackage) : Load Unit :=
  update (enterPackage key packageData)

def publishSource (key : Text) (source : VerifiedSource) : Load Unit :=
  update (enterSource key source)

/-- Put a source in another's place. -/
def replaceSource (key : Text) (source : VerifiedSource) : Load Unit :=
  update (exchangeSource key source)

def publishModuleGrant (requestedUrl canonicalUrl : Text) : Load Unit := do
  update (enterModuleGrant requestedUrl)
  update (enterModuleGrant canonicalUrl)

def publishNegativeSource (key : ModuleReadPurpose × Text) : Load Unit :=
  update (enterNegativeSource key)

/-- The failure for want of a resource. -/
def resourceExhausted (url : Text) : HolonomyModuleLoaderError :=
  ⟨.resourceExhausted, some url, none⟩

def maxSourceAliases : ℕ := 512

def publishAlias (url canonicalUrl : Text) : Load Unit := do
  let working ← Asking.get
  if url = canonicalUrl ∨ (working.caches.aliasCache.lookup url).isSome then pure ()
  else if working.caches.aliasCache.keys.card ≥ maxSourceAliases then
    Asking.throw (resourceExhausted url)
  else update (enterAlias url canonicalUrl)

variable (loader : HolonomyModuleLoader)

def accountSource (url : Text) (byteLength : ℕ) : Load Unit :=
  if byteLength > loader.limits.maxSourceBytes then Asking.throw (resourceExhausted url)
  else do
    let working ← Asking.get
    if url ∈ working.transaction.sourceBytes.map Prod.fst then pure ()
    else do
      update (chargeSource url byteLength)
      let charged ← Asking.get
      Asking.when (charged.transaction.totalSourceBytes > loader.limits.maxTotalSourceBytesPerPlan)
        (Asking.throw (resourceExhausted url))

def accountModule (url : Text) : Load Unit := do
  let working ← Asking.get
  if url ∈ working.transaction.moduleUrls then pure ()
  else do
    update (chargeModule url)
    let charged ← Asking.get
    Asking.when (charged.transaction.moduleUrls.length > loader.limits.maxModules)
      (Asking.throw (resourceExhausted url))

end Publishing

end Holonomy.Modules
