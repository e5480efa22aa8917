import Holonomy.Kernel.Storage

/-!
# Capability constraints

The constraint language of every capability schema and its normalizer. A normalized constraint is a
value of a type that carries what the normalizer checked, with one exception: the roots of a
filesystem constraint are a plain list, because the meet of two normalized constraints need not be
normal.
-/

namespace Holonomy.Kernel

open Foundation

/-! ## Virtual filesystem paths

A path below a virtual root is written as URI components between slashes.
-/

/-- The units that a URI component holds as they are. -/
def isUnreserved (unit : UInt16) : Bool :=
  isWord unit || unit ∈ js "-.!~*'()"

def upperHexDigit (value : ℕ) : UInt16 :=
  if value < 10 then UInt16.ofNat (0x30 + value) else UInt16.ofNat (0x41 + (value - 10))

/-- The escape of an octet. -/
def percentEncode (byte : UInt8) : Text :=
  [0x25, upperHexDigit (byte.toNat / 16), upperHexDigit (byte.toNat % 16)]

def encodeURIComponent (text : Text) : Js Text := do
  let parts ← each (fun point =>
    if point < 0x80 ∧ isUnreserved (UInt16.ofNat point) = true then .ok [UInt16.ofNat point]
    else if IsSurrogate point then .error .uriError
    else .ok ((encodePoint point).flatMap percentEncode)) (points text)
  return parts.flatten

/-- The octet escaped at the front of a text. -/
def percentDecode : Text → Option (UInt8 × Text)
  | 0x25 :: high :: low :: rest => do
    let a ← hexValue high
    let b ← hexValue low
    return (UInt8.ofNat (a * 16 + b), rest)
  | _ => none

/-- The given number of octets escaped at the front of a text. -/
def percentDecodeMany : ℕ → Text → Option (List UInt8 × Text)
  | 0, text => some ([], text)
  | count + 1, text => do
    let (byte, rest) ← percentDecode text
    let (bytes, rest) ← percentDecodeMany count rest
    return (byte :: bytes, rest)

/-- The number of octets of the code point that an octet opens. -/
def sequenceLength (lead : UInt8) : ℕ :=
  if lead.toNat < 0x80 then 1 else if lead.toNat < 0xE0 then 2 else if lead.toNat < 0xF0 then 3
  else 4

def decodeComponent : ℕ → Text → Option Text
  | _, [] => some []
  | 0, _ => none
  | fuel + 1, unit :: rest =>
    if unit = 0x25 then do
      let (lead, _) ← percentDecode (unit :: rest)
      let (bytes, rest) ← percentDecodeMany (sequenceLength lead) (unit :: rest)
      let (point, surplus) ← decodePoint bytes
      if surplus = [] then (decodeComponent fuel rest).map (fromCodePoint point ++ ·) else none
    else (decodeComponent fuel rest).map (unit :: ·)

def decodeURIComponent (text : Text) : Js Text :=
  match decodeComponent text.length text with
  | some decoded => .ok decoded
  | none => .error .uriError

def virtualScheme : Text := js "holo-fs://"

/-- A component that names no directory entry of its own. -/
def isDots (text : Text) : Bool := text = js "." || text = js ".."

/-- One component of a virtual path. -/
def checkComponent (segment : Text) : Js Unit :=
  match decodeURIComponent segment with
  | .error _ => invalidPolicy
  | .ok decoded =>
    if isDots decoded ∨ ∃ unit ∈ decoded, unit ∈ js "/\\\x00" then invalidPolicy
    else do
      let encoded ← encodeURIComponent decoded
      if encoded ≠ segment then invalidPolicy else .ok ()

/-- The components of the part of a virtual path behind its root. -/
def splitPath (path : Text) : List Text := if path = [] then [] else path.splitOn 0x2F

def canonicalVirtualPath (value : JsonValue) : Js Text := do
  let input ← string value 4096
  if virtualScheme.isPrefixOf input = false ∨ ∃ unit ∈ input, unit ∈ js "\\\x00?#" then
    invalidPolicy
  else
    let rest := input.drop virtualScheme.length
    if 0x2F ∉ rest then invalidPolicy
    else
      let rootId ← identifier (.string (rest.takeWhile (· ≠ 0x2F))) 64
      let segments := splitPath (rest.dropWhile (· ≠ 0x2F)).tail
      if ∃ segment ∈ segments, segment = [] ∨ isDots segment then invalidPolicy
      else
        let _ ← each checkComponent segments
        return virtualScheme ++ rootId.text ++ 0x2F :: join 0x2F segments

inductive SegmentToken
  | plain (unit : UInt16)
  | octet (byte : UInt8)
  deriving DecidableEq

/-- The octet two upper-case digits stand for. -/
def upperHexByte (high low : UInt16) : Option UInt8 :=
  if (0x61 ≤ high.toNat ∧ high.toNat ≤ 0x66) ∨ (0x61 ≤ low.toNat ∧ low.toNat ≤ 0x66) then none
  else do
    let a ← hexValue high
    let b ← hexValue low
    return UInt8.ofNat (a * 16 + b)

def segmentTokens : ℕ → Text → Option (List SegmentToken)
  | _, [] => some []
  | 0, _ => none
  | fuel + 1, unit :: rest =>
    if isUnreserved unit then (segmentTokens fuel rest).map (.plain unit :: ·)
    else match unit :: rest with
      | 0x25 :: high :: low :: rest => do
        let byte ← upperHexByte high low
        (segmentTokens fuel rest).map (.octet byte :: ·)
      | _ => none

/-- The ASCII octets that a canonical segment escapes. -/
def isEncodedAscii (byte : UInt8) : Bool :=
  (0x01 ≤ byte && byte ≤ 0x20) || (0x22 ≤ byte && byte ≤ 0x26) || byte = 0x2B || byte = 0x2C
    || (0x3A ≤ byte && byte ≤ 0x40) || byte = 0x5B || byte = 0x5D || byte = 0x5E || byte = 0x60
    || byte = 0x7B || byte = 0x7C || byte = 0x7D || byte = 0x7F

def frontOctets : ℕ → List SegmentToken → Option (List UInt8 × List SegmentToken)
  | 0, tokens => some ([], tokens)
  | count + 1, .octet byte :: tokens => do
    let (bytes, rest) ← frontOctets count tokens
    return (byte :: bytes, rest)
  | _ + 1, _ => none

def canonicalTokens : ℕ → List SegmentToken → Bool
  | _, [] => true
  | 0, _ => false
  | fuel + 1, .plain _ :: tokens => canonicalTokens fuel tokens
  | fuel + 1, .octet byte :: tokens =>
    if byte < 0x80 then isEncodedAscii byte && canonicalTokens fuel tokens
    else match frontOctets (sequenceLength byte) (.octet byte :: tokens) with
      | some (bytes, rest) =>
        (match decodePoint bytes with
        | some (_, []) => true
        | _ => false) && canonicalTokens fuel rest
      | none => false

def isCanonicalSegment (segment : Text) : Bool :=
  match segmentTokens segment.length segment with
  | some tokens =>
    tokens ≠ [] && !isDots segment && canonicalTokens tokens.length tokens && tokens.length ≤ 255
  | none => false

/-- A prefix segment of a filesystem constraint. -/
structure Segment where
  text : Text
  bounded : utf8ByteLength text ≤ 765
  canonical : isCanonicalSegment text = true
  component : ∃ path, canonicalVirtualPath (.string (virtualScheme ++ js "segment/" ++ text)) =
    .ok path
  deriving DecidableEq

def canonicalFilesystemPrefixSegmentV1 (value : JsonValue) : Js Segment := do
  let segment ← string value 765
  if canonical : utf8ByteLength segment ≤ 765 ∧ isCanonicalSegment segment = true then
    match path : canonicalVirtualPath (.string (virtualScheme ++ js "segment/" ++ segment)) with
    | .ok canonicalPath => .ok ⟨segment, canonical.1, canonical.2, canonicalPath, path⟩
    | .error thrown => .error thrown
  else invalidPolicy

theorem Segment.text_ne_nil (segment : Segment) : segment.text ≠ [] := by
  intro empty
  have canonical := segment.canonical
  rw [empty] at canonical
  exact absurd canonical (by decide)

@[simp]
theorem segment_string (segment : Segment) :
    canonicalFilesystemPrefixSegmentV1 (.string segment.text) = .ok segment := by
  obtain ⟨path, component⟩ := segment.component
  have text : string (.string segment.text) 765 = .ok segment.text :=
    boundedText_string _ _ _ (.inr segment.text_ne_nil) segment.bounded
  simp only [canonicalFilesystemPrefixSegmentV1, text, ok_bind]
  rw [dif_pos ⟨segment.bounded, segment.canonical⟩]
  split
  · rfl
  · next thrown refused => rw [component] at refused; cases refused

/-- The largest value of a limit. -/
def maxLimit : ℕ := 4 * 1024 * 1024 * 1024

/-- A record of limits. -/
abbrev Limits (κ : Type) : Type := κ → Bounded 0 maxLimit

/-- Normalize a record of limits. -/
def limits (κ : Type) [Literal κ] (value : JsonValue) : Js (Limits κ) := do
  let input ← exact value ((Literal.values (T := κ)).map Literal.spell)
  eachKey fun key => do
    let limit ← required input (Literal.spell key)
    integer limit 0 maxLimit

def limitsJson {κ : Type} [Literal κ] (values : Limits κ) : JsonValue :=
  recordJson fun key => natJson (values key).val

structure FilesystemGrant where
  pathPrefixSegments : List Segment
  shallow : pathPrefixSegments.length ≤ 256
  rights : LiteralSet FilesystemRight 1 8
  rootId : Identifier 64
  symlinks : SymlinkPolicy

def FilesystemGrant.segments (grant : FilesystemGrant) : List Text :=
  grant.pathPrefixSegments.map Segment.text

def grantOrder (platform : Platform) : Precedence FilesystemGrant :=
  (platform.localeCompare.comap fun grant => grant.rootId.text).andThen
    (platform.localeCompare.comap fun grant => join 0x2F grant.segments)

/-- What two roots of one constraint must not share. -/
def FilesystemGrant.identity (grant : FilesystemGrant) : Text :=
  grant.rootId.text ++ 0x00 :: join 0x00 grant.segments

/-- A filesystem constraint. -/
structure FilesystemConstraints where
  limits : Limits FilesystemLimit
  roots : List FilesystemGrant

structure FilesystemConstraints.Normal (platform : Platform) (constraints : FilesystemConstraints) :
    Prop where
  sorted : (grantOrder platform).Sorted constraints.roots
  nodup : (constraints.roots.map FilesystemGrant.identity).Nodup
  some : 1 ≤ constraints.roots.length
  few : constraints.roots.length ≤ 64

def filesystemGrant (value : JsonValue) : Js FilesystemGrant := do
  let root ← exact value ["pathPrefixSegments", "rights", "rootId", "symlinks"]
  let items ← array (← required root "pathPrefixSegments") 0 256
  let pathPrefixSegments ← each canonicalFilesystemPrefixSegmentV1 items
  let rights ← stringSet FilesystemRight (← required root "rights") 1 8
  let rootId ← identifier (← required root "rootId") 64
  let symlinks ← literal SymlinkPolicy (← required root "symlinks")
  if shallow : pathPrefixSegments.length ≤ 256 then
    .ok { pathPrefixSegments, shallow, rights, rootId, symlinks }
  else invalidPolicy

def filesystem (platform : Platform) (value : JsonValue) : Js FilesystemConstraints := do
  let input ← exact value ["limits", "roots"]
  let roots ← orderedArray (grantOrder platform) FilesystemGrant.identity filesystemGrant
    (← required input "roots") 1 64
  let limits ← limits FilesystemLimit (← required input "limits")
  return { limits, roots := roots.values }

structure Origin (platform : Platform) where
  text : Text
  url : Url
  parses : platform.parseUrl text = some url
  canonical : url.origin = text ∧ url.pathname = js "/" ∧ url.IsWeb
  deriving DecidableEq

def Origin.scheme {platform : Platform} (origin : Origin platform) : Text :=
  origin.url.protocol.dropLast

def networkOrigin (platform : Platform) : JsonValue → Js (Origin platform)
  | .string text =>
    match parses : platform.parseUrl text with
    | some url =>
      if canonical : url.origin = text ∧ url.pathname = js "/" ∧ url.IsWeb then
        .ok { text, url, parses, canonical }
      else invalidPolicy
    | none => invalidPolicy
  | _ => invalidPolicy

/-- Origins in code unit order. -/
abbrev OriginSet (platform : Platform) : Type :=
  KeyedSet ((Precedence.ofLinear Text).comap fun origin : Origin platform => origin.text)
    Origin.text 0 64

structure NetworkConstraints (platform : Platform) (mode : NetworkMode) where
  allowPrivateNetwork : Bool
  unexposed : mode = .mockOnly → allowPrivateNetwork = false
  inspectRequestBodyBytes : Bounded 0 (1024 * 1024)
  limits : Limits NetworkLimit
  origins : OriginSet platform
  schemes : LiteralSet NetworkScheme 0 2
  covered : ∀ origin ∈ origins.values, ∃ scheme ∈ schemes.values,
    Literal.text scheme = origin.scheme

def network (platform : Platform) (expectedMode : NetworkMode) (value : JsonValue) :
    Js (NetworkConstraints platform expectedMode) := do
  let input ← exact value
    ["allowPrivateNetwork", "inspectRequestBodyBytes", "limits", "mode", "origins", "schemes"]
  let mode ← literal NetworkMode (← required input "mode")
  if mode ≠ expectedMode then invalidPolicy
  else
    let origins ← orderedArray _ Origin.text (networkOrigin platform)
      (← required input "origins") 0 64
    let schemes ← stringSet NetworkScheme (← required input "schemes") 0 2
    if covered : ∀ origin ∈ origins.values,
        ∃ scheme ∈ schemes.values, Literal.text scheme = origin.scheme then do
      let allowPrivateNetwork ← boolean (← required input "allowPrivateNetwork")
      if unexposed : expectedMode = .mockOnly → allowPrivateNetwork = false then do
        let inspectRequestBodyBytes ←
          integer (← required input "inspectRequestBodyBytes") 0 (1024 * 1024)
        let limits ← limits NetworkLimit (← required input "limits")
        .ok {
          allowPrivateNetwork, unexposed, inspectRequestBodyBytes
          limits, origins, schemes, covered }
      else invalidPolicy
    else invalidPolicy

/-- A device constraint. -/
structure DeviceConstraints where
  maxPrecision : DevicePrecision
  maxPrivacyTier : Bounded 0 3
  maxQueuedEvents : Bounded 0 4096
  operations : LiteralSet DeviceOperation 1 15

def device (value : JsonValue) : Js DeviceConstraints := do
  let input ← exact value ["maxPrecision", "maxPrivacyTier", "maxQueuedEvents", "operations"]
  let maxPrecision ← literal DevicePrecision (← required input "maxPrecision")
  let maxPrivacyTier ← integer (← required input "maxPrivacyTier") 0 3
  let maxQueuedEvents ← integer (← required input "maxQueuedEvents") 0 4096
  let operations ← stringSet DeviceOperation (← required input "operations") 1 15
  return { maxPrecision, maxPrivacyTier, maxQueuedEvents, operations }

structure SystemConstraints where
  fields : LiteralSet SystemInformationField 1 21
  maxPrecision : SystemPrecision
  modes : LiteralSet ProjectionMode 1 3

def system (value : JsonValue) : Js SystemConstraints := do
  let input ← exact value ["fields", "maxPrecision", "modes"]
  let fields ← stringSet SystemInformationField (← required input "fields") 1 21
  let maxPrecision ← literal SystemPrecision (← required input "maxPrecision")
  let modes ← stringSet ProjectionMode (← required input "modes") 1 3
  return { fields, maxPrecision, modes }

/-- Identifiers in code unit order. -/
abbrev IdentifierSet (maximum : ℕ) : Type :=
  OrderedSet ((Precedence.ofLinear Text).comap fun name : Identifier 128 => name.text) 0 maximum

/-- A list of identifiers, none repeated. -/
def identifiers (value : JsonValue) (maximum : ℕ) : Js (IdentifierSet maximum) :=
  orderedArray _ id (fun item => identifier item 128) value 0 maximum

def identifiersJson {maximum : ℕ} (set : IdentifierSet maximum) : JsonValue :=
  .array (set.values.map fun name => .string name.text)

/-- A process execution constraint. -/
structure ProcessExecutionConstraints where
  executableIds : IdentifierSet 256
  limits : Limits ProcessLimit
  rootIds : IdentifierSet 64

def IsHostname (platform : Platform) (text : Text) : Prop :=
  text ≠ [] ∧ text.length ≤ 253 ∧ platform.toLowerCase text = text ∧
    ∃ url, platform.parseUrl (js "http://" ++ text ++ js "/") = some url ∧
      url.hostname = text ∧ url.port = [] ∧ url.username = [] ∧ url.password = []

/-- The host name of a process network endpoint. -/
structure Hostname (platform : Platform) where
  text : Text
  formed : IsHostname platform text
  deriving DecidableEq

theorem isHostname_of_parses (platform : Platform) {text : Text} {url : Url} (filled : text ≠ [])
    (short : text.length ≤ 253)
    (parses : platform.parseUrl (js "http://" ++ platform.toLowerCase text ++ js "/") = some url)
    (kept : url.hostname = platform.toLowerCase text ∧ url.port = [] ∧ url.username = [] ∧
      url.password = []) : IsHostname platform (platform.toLowerCase text) := by
  rw [List.append_assoc] at parses
  have web : url.IsWeb := .inl (platform.protocol_http _ url parses)
  have ascii := platform.hostname_ascii _ url parses web
  rw [kept.1] at ascii
  refine ⟨platform.toLowerCase_ne_nil text filled, ?_, platform.toLowerCase_toLowerCase text,
    url, ?_, kept⟩
  · rw [platform.length_toLowerCase text ascii]
    exact short
  · rw [List.append_assoc]
    exact parses

/-- Normalize a host name. -/
def hostname (platform : Platform) : JsonValue → Js (Hostname platform)
  | .string value =>
    if bounds : value ≠ [] ∧ value.length ≤ 253 then
      match parses : platform.parseUrl (js "http://" ++ platform.toLowerCase value ++ js "/") with
      | some url =>
        if kept : url.hostname = platform.toLowerCase value ∧ url.port = [] ∧ url.username = [] ∧
            url.password = [] then
          .ok ⟨platform.toLowerCase value, isHostname_of_parses platform bounds.1 bounds.2
            parses kept⟩
        else invalidPolicy
      | none => invalidPolicy
    else invalidPolicy
  | _ => invalidPolicy

/-- Ports in ascending order. -/
abbrev PortSet : Type :=
  OrderedSet ((Precedence.ofLinear ℕ).comap fun port : Bounded 1 65535 => port.val) 1 64

/-- A list of ports, none repeated. -/
def ports (value : JsonValue) : Js PortSet :=
  orderedArray _ id (fun port => integer port 1 65535) value 1 64

def portsJson (set : PortSet) : JsonValue := .array (set.values.map fun port => natJson port.val)

/-- An endpoint of a process network constraint. -/
structure Endpoint (platform : Platform) where
  hostname : Hostname platform
  ports : PortSet
  transport : Transport

/-- What two endpoints of one constraint must not share. -/
def endpointKey (transport : Transport) (hostname : Text) : Text :=
  Literal.text transport ++ 0x00 :: hostname

/-- What two endpoints of one constraint must not share. -/
def Endpoint.key {platform : Platform} (endpoint : Endpoint platform) : Text :=
  endpointKey endpoint.transport endpoint.hostname.text

def Endpoint.toJson {platform : Platform} (endpoint : Endpoint platform) : JsonValue :=
  objectJson [("hostname", .string endpoint.hostname.text), ("ports", portsJson endpoint.ports),
    ("transport", literalJson endpoint.transport)]

abbrev EndpointSet (platform : Platform) : Type :=
  KeyedSet (platform.localeCompare.comap fun endpoint : Endpoint platform => endpoint.key)
    Endpoint.key 0 256

/-- A process network constraint. -/
structure ProcessNetworkConstraints (platform : Platform) where
  endpoints : EndpointSet platform
  maxSockets : Bounded 1 256
  privateNetwork : PrivateNetwork

def endpoint (platform : Platform) (value : JsonValue) : Js (Endpoint platform) := do
  let endpoint ← exact value ["hostname", "ports", "transport"]
  let ports ← ports (← required endpoint "ports")
  let hostname ← hostname platform (← required endpoint "hostname")
  let transport ← literal Transport (← required endpoint "transport")
  return { hostname, ports, transport }

def memberOr (key : String) (members : List (Text × JsonValue)) (fallback : JsonValue) :
    JsonValue :=
  match member key members with
  | none | some .null => fallback
  | some value => value

def processNetwork (platform : Platform) (value : JsonValue) :
    Js (ProcessNetworkConstraints platform) := do
  let input ← exact value ["endpoints", "maxSockets", "privateNetwork"]
  let endpoints ← orderedArray _ Endpoint.key (endpoint platform)
    (← required input "endpoints") 0 256
  let maxSockets ← integer (← required input "maxSockets") 1 256
  let privateNetwork ← literal PrivateNetwork
    (memberOr "privateNetwork" input (literalJson PrivateNetwork.deny))
  return { endpoints, maxSockets, privateNetwork }

/-- A shell constraint. -/
structure ProcessShellConstraints where
  executableIds : IdentifierSet 256

/-- A signal constraint. -/
structure ProcessSignalConstraints where
  signals : LiteralSet ProcessSignal 0 3

def processExecution (value : JsonValue) : Js ProcessExecutionConstraints := do
  let input ← exact value ["executableIds", "limits", "rootIds"]
  let executableIds ← identifiers (← required input "executableIds") 256
  let limits ← limits ProcessLimit (← required input "limits")
  let rootIds ← identifiers (← required input "rootIds") 64
  return { executableIds, limits, rootIds }

def processShell (value : JsonValue) : Js ProcessShellConstraints := do
  let input ← exact value ["executableIds"]
  let executableIds ← identifiers (← required input "executableIds") 256
  return { executableIds }

def processSignal (value : JsonValue) : Js ProcessSignalConstraints := do
  let input ← exact value ["signals"]
  let signals ← stringSet ProcessSignal (← required input "signals") 0 3
  return { signals }

/-- A credential constraint. -/
structure CredentialConstraints where
  stores : IdentifierSet 64
  usages : LiteralSet CredentialUsage 1 2

def credential (value : JsonValue) : Js CredentialConstraints := do
  let input ← exact value ["stores", "usages"]
  let stores ← identifiers (← required input "stores") 64
  let usages ← stringSet CredentialUsage (← required input "usages") 1 2
  return { stores, usages }

/-- A reader constraint. -/
structure ReaderConstraints where
  maxReadBytes : Bounded 0 (1024 * 1024)
  maxReads : Bounded 0 1024

def reader (value : JsonValue) : Js ReaderConstraints := do
  let input ← exact value ["maxReadBytes", "maxReads"]
  let maxReadBytes ← integer (← required input "maxReadBytes") 0 (1024 * 1024)
  let maxReads ← integer (← required input "maxReads") 0 1024
  return { maxReadBytes, maxReads }

@[reducible]
def Constraints (platform : Platform) : ConstraintSchema → Type
  | .filesystem => FilesystemConstraints
  | .network mode => NetworkConstraints platform mode
  | .device => DeviceConstraints
  | .system => SystemConstraints
  | .processExecution => ProcessExecutionConstraints
  | .processNetwork => ProcessNetworkConstraints platform
  | .processShell => ProcessShellConstraints
  | .processSignal => ProcessSignalConstraints
  | .storage => StorageConstraints platform
  | .credential => CredentialConstraints
  | .reader => ReaderConstraints

def normalizeConstraints (platform : Platform) : (schema : ConstraintSchema) → JsonValue →
    Js (Constraints platform schema)
  | .filesystem => filesystem platform
  | .network mode => network platform mode
  | .device => device
  | .system => system
  | .processExecution => processExecution
  | .processNetwork => processNetwork platform
  | .processShell => processShell
  | .processSignal => processSignal
  | .storage => normalizeStorageCapabilityConstraintsV1 platform
  | .credential => credential
  | .reader => reader

def normalizeCapabilityConstraintsV1 (platform : Platform) (name : CapabilityName)
    (value : JsonValue) : Js (Constraints platform name.schema) :=
  normalizeConstraints platform name.schema value

def FilesystemGrant.toJson (grant : FilesystemGrant) : JsonValue :=
  objectJson [("pathPrefixSegments", textsJson grant.segments),
    ("rights", literalsJson grant.rights),
    ("rootId", .string grant.rootId.text), ("symlinks", literalJson grant.symlinks)]

def Constraints.toJson {platform : Platform} : {schema : ConstraintSchema} →
    Constraints platform schema → JsonValue
  | .filesystem, (constraints : FilesystemConstraints) => objectJson [
      ("limits", limitsJson constraints.limits),
      ("roots", .array (constraints.roots.map FilesystemGrant.toJson))]
  | .network mode, (constraints : NetworkConstraints platform mode) => objectJson [
      ("allowPrivateNetwork", .boolean constraints.allowPrivateNetwork),
      ("inspectRequestBodyBytes", natJson constraints.inspectRequestBodyBytes.val),
      ("limits", limitsJson constraints.limits), ("mode", literalJson mode),
      ("origins", textsJson (constraints.origins.values.map Origin.text)),
      ("schemes", literalsJson constraints.schemes)]
  | .device, (constraints : DeviceConstraints) => objectJson [
      ("maxPrecision", literalJson constraints.maxPrecision),
      ("maxPrivacyTier", natJson constraints.maxPrivacyTier.val),
      ("maxQueuedEvents", natJson constraints.maxQueuedEvents.val),
      ("operations", literalsJson constraints.operations)]
  | .system, (constraints : SystemConstraints) => objectJson [
      ("fields", literalsJson constraints.fields),
      ("maxPrecision", literalJson constraints.maxPrecision),
      ("modes", literalsJson constraints.modes)]
  | .processExecution, (constraints : ProcessExecutionConstraints) => objectJson [
      ("executableIds", identifiersJson constraints.executableIds),
      ("limits", limitsJson constraints.limits), ("rootIds", identifiersJson constraints.rootIds)]
  | .processNetwork, (constraints : ProcessNetworkConstraints platform) => objectJson [
      ("endpoints", .array (constraints.endpoints.values.map Endpoint.toJson)),
      ("maxSockets", natJson constraints.maxSockets.val),
      ("privateNetwork", literalJson constraints.privateNetwork)]
  | .processShell, (constraints : ProcessShellConstraints) => objectJson [
      ("executableIds", identifiersJson constraints.executableIds)]
  | .processSignal, (constraints : ProcessSignalConstraints) => objectJson [
      ("signals", literalsJson constraints.signals)]
  | .storage, (constraints : StorageConstraints platform) => constraints.toJson
  | .credential, (constraints : CredentialConstraints) => objectJson [
      ("stores", identifiersJson constraints.stores), ("usages", literalsJson constraints.usages)]
  | .reader, (constraints : ReaderConstraints) => objectJson [
      ("maxReadBytes", natJson constraints.maxReadBytes.val),
      ("maxReads", natJson constraints.maxReads.val)]

def Constraints.Normal {platform : Platform} : {schema : ConstraintSchema} →
    Constraints platform schema → Prop
  | .filesystem, (constraints : FilesystemConstraints) => constraints.Normal platform
  | .network _, _ | .device, _ | .system, _ | .processExecution, _ | .processNetwork, _
  | .processShell, _ | .processSignal, _ | .storage, _ | .credential, _ | .reader, _ => True

section Forms

variable {platform : Platform}

theorem limits_limitsJson {κ : Type} [Literal κ] (values : Limits κ)
    (few : (Literal.values (T := κ)).length ≤ maxContainerEntries) :
    limits κ (limitsJson values) = .ok values := by
  rw [limits, limitsJson, exact_recordJson _ few, ok_bind, eachKey_eq_ok]
  intro key
  rw [required_record, ok_bind, integer_natJson]

@[simp]
theorem identifiers_identifiersJson {maximum : ℕ} (set : IdentifierSet maximum) :
    identifiers (identifiersJson set) maximum = .ok set :=
  orderedArray_map _ _ set fun name _ => identifier_string name

@[simp]
theorem ports_portsJson (set : PortSet) : ports (portsJson set) = .ok set :=
  orderedArray_map _ _ set fun port _ => integer_natJson port

@[simp]
theorem filesystemGrant_toJson (grant : FilesystemGrant) :
    filesystemGrant grant.toJson = .ok grant := by
  have segments : each canonicalFilesystemPrefixSegmentV1 (grant.segments.map JsonValue.string)
      = .ok grant.pathPrefixSegments := by
    rw [FilesystemGrant.segments, List.map_map]
    exact each_map _ _ _ fun segment _ => segment_string segment
  have items : array (textsJson grant.segments) 0 256 = .ok (grant.segments.map .string) := by
    rw [array_eq_ok]
    exact ⟨rfl, by simp, by simpa [FilesystemGrant.segments] using grant.shallow⟩
  simp only [filesystemGrant, FilesystemGrant.toJson]
  rw [exact_objectJson _ _ (by simp [maxContainerEntries]) (by simp)]
  simp only [List.map_cons, List.map_nil, required_cons, String.reduceEq, reduceIte, ok_bind, items,
    segments, stringSet_literalsJson, identifier_string, literal_literalJson]
  rw [dif_pos grant.shallow]

theorem normal_of_filesystem {value : JsonValue} {constraints : FilesystemConstraints}
    (accepted : filesystem platform value = .ok constraints) : constraints.Normal platform := by
  simp only [filesystem, bind_eq_ok, pure_eq_ok, Except.ok.injEq] at accepted
  obtain ⟨input, -, items, -, roots, -, limits, -, limitValues, -, rfl⟩ := accepted
  exact ⟨roots.sorted, roots.nodup, roots.atLeast, roots.atMost⟩

theorem filesystem_toJson {constraints : FilesystemConstraints}
    (normal : constraints.Normal platform) :
    filesystem platform (@Constraints.toJson platform .filesystem constraints)
      = .ok constraints := by
  let roots : KeyedSet (grantOrder platform) FilesystemGrant.identity 1 64 :=
    { values := constraints.roots, sorted := normal.sorted, nodup := normal.nodup,
      atLeast := normal.some, atMost := normal.few }
  have listed : orderedArray (grantOrder platform) FilesystemGrant.identity filesystemGrant
      (.array (constraints.roots.map FilesystemGrant.toJson)) 1 64 = .ok roots :=
    orderedArray_map _ _ roots fun grant _ => filesystemGrant_toJson grant
  simp only [filesystem, Constraints.toJson]
  rw [exact_objectJson _ _ (by simp [maxContainerEntries]) (by simp)]
  simp only [List.map_cons, List.map_nil, required_cons, String.reduceEq, reduceIte,
    ok_bind, listed, limits_limitsJson constraints.limits (by decide), pure_eq_ok]
  rfl

@[simp]
theorem networkOrigin_string (origin : Origin platform) :
    networkOrigin platform (.string origin.text) = .ok origin := by
  rw [networkOrigin]
  split
  · next url parses =>
    have same : url = origin.url := Option.some.inj (parses.symm.trans origin.parses)
    subst same
    rw [dif_pos origin.canonical]
  · next refused => rw [origin.parses] at refused; cases refused

theorem network_toJson {mode : NetworkMode} (constraints : NetworkConstraints platform mode) :
    network platform mode (@Constraints.toJson platform (.network mode) constraints)
      = .ok constraints := by
  have origins : orderedArray _ Origin.text (networkOrigin platform)
      (textsJson (constraints.origins.values.map Origin.text)) 0 64 = .ok constraints.origins := by
    rw [textsJson, List.map_map]
    exact orderedArray_map _ _ constraints.origins fun origin _ => networkOrigin_string origin
  simp only [network, Constraints.toJson]
  rw [exact_objectJson _ _ (by simp [maxContainerEntries]) (by simp)]
  simp only [List.map_cons, List.map_nil, required_cons, String.reduceEq, reduceIte, ok_bind,
    origins,
    literal_literalJson, ne_eq, not_true_eq_false, stringSet_literalsJson, boolean, integer_natJson,
    limits_limitsJson constraints.limits (by decide)]
  rw [dif_pos constraints.covered, dif_pos constraints.unexposed]

@[simp]
theorem hostname_string (name : Hostname platform) :
    hostname platform (.string name.text) = .ok name := by
  obtain ⟨text, filled, short, lower, url, parses, kept⟩ := name
  have same : platform.parseUrl (js "http://" ++ platform.toLowerCase text ++ js "/") =
      some url := by
    rw [lower]
    exact parses
  simp only [hostname]
  rw [dif_pos ⟨filled, short⟩]
  split
  · next other parsed =>
    cases Option.some.inj (same.symm.trans parsed)
    rw [dif_pos (by rw [lower]; exact kept)]
    simp only [lower]
  · next refused => rw [same] at refused; cases refused

@[simp]
theorem endpoint_toJson (value : Endpoint platform) :
    endpoint platform value.toJson = .ok value := by
  simp only [endpoint, Endpoint.toJson]
  rw [exact_objectJson _ _ (by simp [maxContainerEntries]) (by simp)]
  simp only [List.map_cons, List.map_nil, required_cons, String.reduceEq, reduceIte, ok_bind,
    ports_portsJson, hostname_string, literal_literalJson, pure_eq_ok]

theorem processNetwork_toJson (constraints : ProcessNetworkConstraints platform) :
    processNetwork platform (@Constraints.toJson platform .processNetwork constraints)
      = .ok constraints := by
  have endpoints := orderedArray_map (endpoint platform) Endpoint.toJson constraints.endpoints
    fun value _ => endpoint_toJson value
  simp only [processNetwork, Constraints.toJson]
  rw [exact_objectJson _ _ (by simp [maxContainerEntries]) (by simp)]
  simp only [List.map_cons, List.map_nil, required_cons, String.reduceEq, reduceIte, ok_bind,
    endpoints, integer_natJson, memberOr, member_cons, literalJson]
  rw [← literalJson, literal_literalJson, ok_bind, pure_eq_ok]

theorem normal_of_normalize {schema : ConstraintSchema} {value : JsonValue}
    {constraints : Constraints platform schema}
    (accepted : normalizeConstraints platform schema value = .ok constraints) :
    constraints.Normal := by
  cases schema with
  | filesystem => exact normal_of_filesystem accepted
  | _ => trivial

theorem normalize_toJson {schema : ConstraintSchema} {constraints : Constraints platform schema}
    (normal : constraints.Normal) :
    normalizeConstraints platform schema constraints.toJson = .ok constraints := by
  cases schema with
  | filesystem => exact filesystem_toJson normal
  | network mode => exact network_toJson constraints
  | processNetwork => exact processNetwork_toJson constraints
  | storage => exact normalizeStorageCapabilityConstraintsV1_toJson constraints
  | processExecution =>
    simp only [normalizeConstraints, processExecution, Constraints.toJson]
    rw [exact_objectJson _ _ (by simp [maxContainerEntries]) (by simp)]
    simp only [List.map_cons, List.map_nil, required_cons, String.reduceEq, reduceIte, ok_bind,
      identifiers_identifiersJson, @limits_limitsJson ProcessLimit _ _ (by decide), pure_eq_ok]
  | device =>
    simp only [normalizeConstraints, device, Constraints.toJson]
    rw [exact_objectJson _ _ (by simp [maxContainerEntries]) (by simp)]
    simp only [List.map_cons, List.map_nil, required_cons, String.reduceEq, reduceIte, ok_bind,
      literal_literalJson, integer_natJson, stringSet_literalsJson, pure_eq_ok]
  | system =>
    simp only [normalizeConstraints, system, Constraints.toJson]
    rw [exact_objectJson _ _ (by simp [maxContainerEntries]) (by simp)]
    simp only [List.map_cons, List.map_nil, required_cons, String.reduceEq, reduceIte, ok_bind,
      literal_literalJson, stringSet_literalsJson, pure_eq_ok]
  | processShell =>
    simp only [normalizeConstraints, processShell, Constraints.toJson]
    rw [exact_objectJson _ _ (by simp [maxContainerEntries]) (by simp)]
    simp only [List.map_cons, List.map_nil, required_cons, reduceIte, ok_bind,
      identifiers_identifiersJson, pure_eq_ok]
  | processSignal =>
    simp only [normalizeConstraints, processSignal, Constraints.toJson]
    rw [exact_objectJson _ _ (by simp [maxContainerEntries]) (by simp)]
    simp only [List.map_cons, List.map_nil, required_cons, reduceIte, ok_bind,
      stringSet_literalsJson, pure_eq_ok]
  | credential =>
    simp only [normalizeConstraints, credential, Constraints.toJson]
    rw [exact_objectJson _ _ (by simp [maxContainerEntries]) (by simp)]
    simp only [List.map_cons, List.map_nil, required_cons, String.reduceEq, reduceIte, ok_bind,
      identifiers_identifiersJson, stringSet_literalsJson, pure_eq_ok]
  | reader =>
    simp only [normalizeConstraints, reader, Constraints.toJson]
    rw [exact_objectJson _ _ (by simp [maxContainerEntries]) (by simp)]
    simp only [List.map_cons, List.map_nil, required_cons, String.reduceEq, reduceIte, ok_bind,
      integer_natJson, pure_eq_ok]

end Forms

end Holonomy.Kernel
