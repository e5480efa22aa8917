import Holonomy.Foundation.OrderedMap
import Holonomy.Network.Authority

/-!
# Mock rules

A set of rules is admitted as a whole or not at all: every rule is validated, its entries are
brought into a normal form, and the rules are put in the order in which they are tried. A request
is compared with a rule by its method, the parts of its URL, its headers and its body.
-/

namespace Holonomy.Network

open Foundation

inductive RuleError where
  | rulesInvalid
  | revisionConflict
  | typeError
deriving DecidableEq

inductive ParsedNumber where
  | finite (value : ℚ)
  | negativeZero
  | infinite (negative : Bool)
deriving DecidableEq

/-- A value that a body denotes. -/
inductive ParsedJson where
  | null
  | boolean (value : Bool)
  | number (value : ParsedNumber)
  | string (value : Text)
  | array (items : List ParsedJson)
  | object (members : List (Text × ParsedJson))

/-- The parts of a URL that rules look at. -/
structure RuleUrl where
  origin : Text
  pathname : Text
  search : Text
  hash : Text
  searchParams : List (Text × Text)
deriving DecidableEq

/-- What the rules take from the language. -/
structure RuleHost where
  numbers : NumberFormat
  toLowerCase : Text → Text
  parseUrl : Text → Option RuleUrl
  parseDate : Text → Option ℤ
  parseJson : Text → Option ParsedJson

/-- Whether all entries are named or only some. -/
inductive EntryMode where
  | exact
  | subset
deriving DecidableEq

/-- Which entries a request should have. -/
structure NetworkMockEntryMatch where
  absent : List Text
  entries : List (Text × Text)
  mode : EntryMode
deriving DecidableEq

/-- Which body a request should have. -/
inductive NetworkMockBodyMatch where
  | empty
  | sha256 (digest : Text)
  | base64 (text : Text)
  | utf8 (text : Text)
  | json (value : JsonValue)
  | jsonSubset (value : JsonValue)

/-- A path or a beginning of paths. -/
structure PathMatch where
  isExact : Bool
  value : Text
deriving DecidableEq

structure RuleMatch where
  body : Option NetworkMockBodyMatch
  headers : Option NetworkMockEntryMatch
  method : Option JsonValue
  origin : Option Text
  path : Option PathMatch
  query : Option NetworkMockEntryMatch

/-- How long and how often a rule can be used. -/
structure RuleLifetime where
  expiresAt : Option Text
  maxMatches : Option ℕ

/-- A rule that was admitted. -/
structure NetworkMockRule where
  action : JsonValue
  id : Text
  lifetime : RuleLifetime
  matching : RuleMatch
  priority : ℤ
  sequence : ℕ

/-- What becomes of a request that no rule is for. -/
inductive RuleSetMode where
  | passthrough
  | failClosed
deriving DecidableEq

/-- The number of rules that a set may have. -/
def maxRules : ℕ := 256

def maxRuleSetBytes : ℕ := 1024 * 1024

def maxMatchBodyBytes : ℕ := 1024 * 1024

/-- The headers whose values are known by their digests. -/
def sensitiveHeaders : List Text :=
  [js "authorization", js "cookie", js "proxy-authorization", js "set-cookie"]

section Values

def memberOf (value : JsonValue) (key : Text) : Option JsonValue :=
  match value with
  | .object members => (members.find? fun entry => entry.1 = key).map Prod.snd
  | _ => none

def fieldOf (value : JsonValue) (key : Text) : Option JsonValue :=
  match memberOf value key with
  | some .null => none
  | other => other

mutual

def coerced (numbers : NumberFormat) : JsonValue → Text
  | .null => js "null"
  | .boolean true => js "true"
  | .boolean false => js "false"
  | .number value => numbers.write value
  | .string value => value
  | .array items => join 0x2C (coercedItems numbers items)
  | .object _ => js "[object Object]"

def coercedItems (numbers : NumberFormat) : List JsonValue → List Text
  | [] => []
  | .null :: items => [] :: coercedItems numbers items
  | item :: items => coerced numbers item :: coercedItems numbers items

end

def safeInteger? : JsonValue → Option ℤ
  | .number value => if value.den = 1 ∧ value.num.natAbs ≤ 2 ^ 53 - 1 then some value.num else none
  | _ => none

/-- A unit of the name of a header. -/
def isTokenUnit (unit : UInt16) : Bool :=
  isDigit unit || (0x61 ≤ unit.toNat && unit.toNat ≤ 0x7A) || unit ∈ js "!#$%&'*+.^_`|~-"

/-- The name of a header in lower case. -/
def isToken (text : Text) : Bool := text ≠ [] && text.all isTokenUnit

def isBase64Unit (unit : UInt16) : Bool :=
  isDigit unit || (0x41 ≤ unit.toNat && unit.toNat ≤ 0x5A) ||
    (0x61 ≤ unit.toNat && unit.toNat ≤ 0x7A) || unit = 0x2B || unit = 0x2F

def isBase64 : Text → Bool
  | [] => true
  | first :: second :: third :: fourth :: rest =>
    if isBase64Unit first && isBase64Unit second && isBase64Unit third && isBase64Unit fourth then
      isBase64 rest
    else
      rest = [] && isBase64Unit first && isBase64Unit second &&
        (isBase64Unit third || third = 0x3D) && fourth = 0x3D
  | _ => false

/-- A digest in lower case. -/
def isSha256 (text : Text) : Bool := text.length = 64 && text.all isLowerHexDigit

end Values

section Validation

variable (host : RuleHost)

def invalid {α : Type} : Except RuleError α := .error .rulesInvalid

/-- Refuse the rules under a condition. -/
def invalidWhen (condition : Prop) [Decidable condition] : Except RuleError Unit :=
  if condition then invalid else .ok ()

def normalizeEntry (header : Bool) : JsonValue → Except RuleError (Text × Text)
  | .array [.string rawName, .string value] =>
    let name := if header then host.toLowerCase rawName else rawName
    if header ∧ (isToken name = false ∨ 0 ∈ value ∨ 13 ∈ value ∨ 10 ∈ value) then invalid
    else .ok (name, value)
  | _ => invalid

def normalizeEntries (header : Bool) : JsonValue → Except RuleError (List (Text × Text))
  | .array items => items.mapM (normalizeEntry host header)
  | _ => invalid

def normalizeAbsentName (header : Bool) : JsonValue → Except RuleError Text
  | .string value =>
    let normalized := if header then host.toLowerCase value else value
    if value = [] ∨ (header ∧ isToken normalized = false) then invalid else .ok normalized
  | _ => invalid

/-- The names that should be absent. -/
def normalizeAbsent (header : Bool) : Option JsonValue → Except RuleError (List Text)
  | none => .ok []
  | some (.array items) => items.mapM (normalizeAbsentName host header)
  | some _ => invalid

def entryMode (value : Option JsonValue) : Except RuleError EntryMode :=
  match value with
  | some (.string text) =>
    if text = js "exact" then .ok .exact else if text = js "subset" then .ok .subset else invalid
  | _ => invalid

def validateEntryMatch (header : Bool) (value : JsonValue) :
    Except RuleError NetworkMockEntryMatch := do
  let absent ← normalizeAbsent host header (fieldOf value (js "absent"))
  let entries ← normalizeEntries host header
    ((fieldOf value (js "entries")).getD (.array []))
  let mode ← entryMode (fieldOf value (js "mode"))
  pure ⟨absent, entries, mode⟩

/-- The value of a header that is known by its digest. -/
def isSensitiveValue (value : Text) : Bool :=
  value == js "<present>" || (js "sha256:" <+: value && isSha256 (value.drop 7))

def validateHeaders (value : JsonValue) : Except RuleError NetworkMockEntryMatch := do
  let headers ← validateEntryMatch host true value
  invalidWhen (∃ entry ∈ headers.entries, entry.1 ∈ sensitiveHeaders ∧
    isSensitiveValue entry.2 = false)
  pure headers

def bodyText : Option JsonValue → Except RuleError Text
  | some (.string value) => .ok value
  | _ => invalid

def bodyValue : Option JsonValue → Except RuleError JsonValue
  | some value => .ok value
  | none => invalid

def validateBody (body : JsonValue) : Except RuleError NetworkMockBodyMatch := do
  let value := memberOf body (js "value")
  match memberOf body (js "kind") with
  | some (.string kind) =>
    if kind = js "empty" then
      invalidWhen (fieldOf body (js "value") ≠ none)
      pure .empty
    else if kind = js "json" then pure (.json (← bodyValue value))
    else if kind = js "jsonSubset" then pure (.jsonSubset (← bodyValue value))
    else if kind = js "sha256" then
      let digest ← bodyText value
      invalidWhen (isSha256 digest = false)
      pure (.sha256 digest)
    else if kind = js "base64" then
      let text ← bodyText value
      invalidWhen (isBase64 text = false)
      pure (.base64 text)
    else if kind = js "utf8" then pure (.utf8 (← bodyText value))
    else invalid
  | _ => invalid

def validateMethod (method : JsonValue) : Except RuleError JsonValue := do
  let text := coerced host.numbers method
  invalidWhen (text = [] ∨ text.all (fun unit => 0x41 ≤ unit.toNat && unit.toNat ≤ 0x5A) = false)
  pure method

def validateOrigin (origin : JsonValue) : Except RuleError Text :=
  match host.parseUrl (coerced host.numbers origin) with
  | none => .error .typeError
  | some url => match origin with
    | .string text =>
      if url.origin ≠ text ∨ url.pathname ≠ js "/" ∨ url.search ≠ [] ∨ url.hash ≠ [] then invalid
      else .ok text
    | _ => invalid

def validatePath (path : JsonValue) : Except RuleError PathMatch := do
  let isExact ← match memberOf path (js "op") with
    | some (.string op) =>
      if op = js "exact" then .ok true else if op = js "prefix" then .ok false else invalid
    | _ => invalid
  match memberOf path (js "value") with
  | some (.string value) =>
    if value = [] ∨ value.head? ≠ some 0x2F then invalid else pure ⟨isExact, value⟩
  | _ => .error .typeError

/-- The chunks of the body of an answer. -/
def validateChunk (isBinary : Bool) : JsonValue → Except RuleError Unit
  | .string chunk => invalidWhen (isBinary ∧ isBase64 chunk = false)
  | _ => invalid

def validateActionBody (body : JsonValue) : Except RuleError Unit := do
  match memberOf body (js "kind") with
  | some (.string kind) =>
    invalidWhen (kind ∉ [js "base64", js "json", js "utf8"])
    match fieldOf body (js "chunks") with
    | some (.array chunks) =>
      invalidWhen (kind = js "json" ∨ fieldOf body (js "value") ≠ none)
      chunks.forM (validateChunk (kind = js "base64"))
    | some _ => invalid
    | none =>
      if kind = js "json" then
        let _ ← bodyValue (memberOf body (js "value"))
        pure ()
      else
        let _ ← bodyText (memberOf body (js "value"))
        pure ()
  | _ => invalid

def entriesJson (entries : List (Text × Text)) : JsonValue :=
  .array (entries.map fun entry => .array [.string entry.1, .string entry.2])

def withMember (value : JsonValue) (key : Text) (content : JsonValue) : JsonValue :=
  match value with
  | .object members =>
    if members.any fun entry => entry.1 = key then
      .object (members.map fun entry => if entry.1 = key then (key, content) else entry)
    else .object (members ++ [(key, content)])
  | other => other

def validateDelay (action : JsonValue) : Except RuleError Unit :=
  match fieldOf action (js "delayMs") with
  | none => .ok ()
  | some delay => match safeInteger? delay with
    | some value => invalidWhen (value < 0 ∨ 60000 < value)
    | none => invalid

def validateAction : Option JsonValue → Except RuleError JsonValue
  | none => invalid
  | some .null => .error .typeError
  | some action => do
    let checked ← match memberOf action (js "type") with
      | some (.string type) =>
        if type = js "respond" then do
          match memberOf action (js "status") with
          | some (.number status) =>
            invalidWhen (status.den ≠ 1 ∨ status < 200 ∨ 599 < status)
          | _ => invalid
          let headers ← normalizeEntries host true
            ((fieldOf action (js "headers")).getD (.array []))
          match fieldOf action (js "body") with
          | some body => validateActionBody body
          | none => pure ()
          pure (withMember action (js "headers") (entriesJson headers))
        else if type = js "fail" then do
          match memberOf action (js "code") with
          | some (.string code) =>
            invalidWhen (code ∉ [js "connection_refused", js "timeout", js "unavailable"])
          | _ => invalid
          pure action
        else if type = js "passthrough" then pure action
        else invalid
      | _ => invalid
    validateDelay checked
    pure checked

/-- How often a rule can be used. -/
def validateMaxMatches : Option JsonValue → Except RuleError (Option ℕ)
  | none => .ok none
  | some count => match safeInteger? count with
    | some value => if value ≤ 0 then invalid else .ok (some value.toNat)
    | none => invalid

/-- Until when a rule can be used. -/
def validateExpiresAt : Option JsonValue → Except RuleError (Option Text)
  | none => .ok none
  | some time =>
    let text := coerced host.numbers time
    if host.parseDate text = none then invalid else .ok (some text)

def whenPresent {α : Type} (value : Option JsonValue) (validate : JsonValue → Except RuleError α) :
    Except RuleError (Option α) :=
  match value with
  | none => .ok none
  | some present => (validate present).map some

def validateMatch (value : JsonValue) : Except RuleError RuleMatch := do
  let method ← whenPresent (fieldOf value (js "method")) (validateMethod host)
  let origin ← whenPresent (fieldOf value (js "origin")) (validateOrigin host)
  let path ← whenPresent (fieldOf value (js "path")) validatePath
  let headers ← whenPresent (fieldOf value (js "headers")) (validateHeaders host)
  let query ← whenPresent (fieldOf value (js "query")) (validateEntryMatch host false)
  let body ← whenPresent (fieldOf value (js "body")) validateBody
  pure ⟨body, headers, method, origin, path, query⟩

def validateId : Option JsonValue → Except RuleError Text
  | some (.string id) => if id = [] then invalid else .ok id
  | _ => invalid

def validatePriority (value : Option JsonValue) : Except RuleError ℤ :=
  match value.bind safeInteger? with
  | some priority => if 1000000 < priority.natAbs then invalid else .ok priority
  | none => invalid

def validateRequests : Option JsonValue → Except RuleError RuleMatch
  | some (.object members) => validateMatch host (.object members)
  | some (.array items) => validateMatch host (.array items)
  | _ => invalid

/-- A rule that may be put into a set. -/
def validateRule (input : JsonValue) (sequence : ℕ) : Except RuleError NetworkMockRule := do
  let id ← validateId (memberOf input (js "id"))
  let priority ← validatePriority (memberOf input (js "priority"))
  let matching ← validateRequests host (fieldOf input (js "match"))
  let action ← validateAction host (memberOf input (js "action"))
  let lifetime := (fieldOf input (js "lifetime")).getD (.object [])
  let maxMatches ← validateMaxMatches (fieldOf lifetime (js "maxMatches"))
  let expiresAt ← validateExpiresAt host (fieldOf lifetime (js "expiresAt"))
  pure ⟨action, id, ⟨expiresAt, maxMatches⟩, matching, priority, sequence⟩

/-- The rules of a set, one after another, no two under one name. -/
def validateRules : ℕ → List Text → List JsonValue → Except RuleError (List NetworkMockRule)
  | _, _, [] => .ok []
  | sequence, ids, input :: rest => do
    let validated ← validateRule host input sequence
    invalidWhen (validated.id ∈ ids)
    let later ← validateRules (sequence + 1) (validated.id :: ids) rest
    pure (validated :: later)

end Validation

section Matching

variable (host : RuleHost)

/-- The entry of a request is one that a rule names. -/
def isEntry (sensitiveHeaderSha256 : List (Text × Text)) (expected actual : Text × Text) : Bool :=
  if actual.1 ≠ expected.1 then false
  else if expected.1 ∉ sensitiveHeaders then actual.2 == expected.2
  else if expected.2 = js "<present>" then true
  else if ¬ js "sha256:" <+: expected.2 then false
  else sensitiveHeaderSha256.any fun item =>
    item.1 == expected.1 && item.2 == expected.2.drop 7

/-- Every entry of the second list is found among those of the first, each one once. -/
def countEntries (sensitiveHeaderSha256 : List (Text × Text)) :
    List (Text × Text) → List (Text × Text) → Bool
  | _, [] => true
  | remaining, expected :: rest =>
    match remaining.findIdx? (isEntry sensitiveHeaderSha256 expected) with
    | none => false
    | some index => countEntries sensitiveHeaderSha256 (remaining.eraseIdx index) rest

/-- The entries are those that a rule names. -/
def matchEntries (actual : List (Text × Text)) (expected : NetworkMockEntryMatch)
    (sensitiveHeaderSha256 : List (Text × Text)) : Bool :=
  ! (expected.absent.any fun name => actual.any fun entry => entry.1 = name) &&
    countEntries sensitiveHeaderSha256 actual expected.entries &&
    (expected.mode = .subset || actual.length = expected.entries.length)

mutual

/-- The second value has everything that the first one has. -/
def isJsonSubset : JsonValue → ParsedJson → Bool
  | .null, .null => true
  | .boolean expected, .boolean actual => expected = actual
  | .number expected, .number actual => actual = .finite expected
  | .string expected, .string actual => expected = actual
  | .array expected, .array actual => areJsonSubsets expected actual
  | .object expected, .object actual => haveJsonSubsets expected actual
  | _, _ => false

/-- The same for the items of two arrays of one length. -/
def areJsonSubsets : List JsonValue → List ParsedJson → Bool
  | [], [] => true
  | expected :: rest, actual :: others => isJsonSubset expected actual && areJsonSubsets rest others
  | _, _ => false

/-- The same for the members that are expected. -/
def haveJsonSubsets : List (Text × JsonValue) → List (Text × ParsedJson) → Bool
  | [], _ => true
  | (key, expected) :: rest, actual =>
    (match actual.find? fun entry => entry.1 = key with
      | some entry => isJsonSubset expected entry.2
      | none => false) && haveJsonSubsets rest actual

end

mutual

def finiteJson : ParsedJson → Option JsonValue
  | .null => some .null
  | .boolean value => some (.boolean value)
  | .number (.finite value) => some (.number value)
  | .number .negativeZero => some (.number 0)
  | .number (.infinite _) => none
  | .string value => some (.string value)
  | .array items => (finiteItems items).map .array
  | .object members => (finiteMembers members).map .object

/-- The same for the items of an array. -/
def finiteItems : List ParsedJson → Option (List JsonValue)
  | [] => some []
  | item :: items => do
    let first ← finiteJson item
    let rest ← finiteItems items
    some (first :: rest)

/-- The same for the members of an object. -/
def finiteMembers : List (Text × ParsedJson) → Option (List (Text × JsonValue))
  | [] => some []
  | (key, value) :: members => do
    let first ← finiteJson value
    let rest ← finiteMembers members
    some ((key, first) :: rest)

end

def base64Unit (value : ℕ) : UInt16 :=
  ((js "ABCDEFGHIJKLMNOPQRSTUVWXYZabcdefghijklmnopqrstuvwxyz0123456789+/")[value]?).getD 0

def encodeBase64 : List UInt8 → Text
  | [] => []
  | [first] => [base64Unit (first.toNat / 4), base64Unit (first.toNat % 4 * 16), 0x3D, 0x3D]
  | [first, second] => [base64Unit (first.toNat / 4),
      base64Unit (first.toNat % 4 * 16 + second.toNat / 16),
      base64Unit (second.toNat % 16 * 4), 0x3D]
  | first :: second :: third :: rest => base64Unit (first.toNat / 4) ::
      base64Unit (first.toNat % 4 * 16 + second.toNat / 16) ::
      base64Unit (second.toNat % 16 * 4 + third.toNat / 64) :: base64Unit (third.toNat % 64) ::
      encodeBase64 rest

/-- A request that is compared with rules. -/
structure NetworkMockRequest where
  body : List UInt8
  bodyLength : Option ℕ
  bodySha256 : Option Text
  headers : List (Text × Text)
  sensitiveHeaderSha256 : List (Text × Text)
  method : Text
  url : Text

def decodeBody (bytes : List UInt8) : Option Text :=
  (decodePoints bytes.length bytes).map fun points => points.flatMap fromCodePoint

def matchBody (rule : NetworkMockBodyMatch) (request : NetworkMockRequest) :
    Except RuleError Bool :=
  let bodyLength := request.bodyLength.getD request.body.length
  match rule with
  | .empty => .ok (bodyLength = 0)
  | .sha256 digest => .ok (request.bodySha256 = some (host.toLowerCase digest))
  | rule =>
    if maxMatchBodyBytes < bodyLength ∨ request.body.length ≠ bodyLength then .ok false
    else match rule with
      | .base64 text => .ok (encodeBase64 request.body = text)
      | rule =>
        match decodeBody request.body with
        | none => .ok false
        | some text => match rule with
          | .utf8 expected => .ok (text = expected)
          | rule =>
            match host.parseJson text with
            | none => .ok false
            | some parsed => match rule with
              | .json value => match finiteJson parsed with
                | none => invalid
                | some finite =>
                  .ok (finite.canonicalJson host.numbers = value.canonicalJson host.numbers)
              | .jsonSubset value => .ok (isJsonSubset value parsed)
              | _ => .ok false

def isExpired (rule : NetworkMockRule) (now : ℤ) : Bool :=
  match rule.lifetime.expiresAt.bind host.parseDate with
  | some time => time ≤ now
  | none => false

/-- The method is the one that a rule names. -/
def isMethod : JsonValue → Text → Bool
  | .string expected, method => expected = method
  | _, _ => false

/-- The path is one that a rule names. -/
def matchPath (path : PathMatch) (pathname : Text) : Bool :=
  if path.isExact then pathname = path.value else path.value.isPrefixOf pathname

def requestMatches (matching : RuleMatch) (request : NetworkMockRequest) : Except RuleError Bool :=
  match host.parseUrl request.url with
  | none => .error .typeError
  | some url =>
    if matching.method.any (fun method => isMethod method request.method = false) then .ok false
    else if matching.origin.any (fun origin => origin ≠ url.origin) then .ok false
    else if matching.path.any (fun path => matchPath path url.pathname = false) then .ok false
    else if matching.query.any (fun query => matchEntries url.searchParams query [] = false) then
      .ok false
    else if matching.headers.any (fun headers =>
        matchEntries (request.headers.map fun entry => (host.toLowerCase entry.1, entry.2)) headers
          request.sensitiveHeaderSha256 = false) then .ok false
    else match matching.body with
      | none => .ok true
      | some body => matchBody host body request

def ruleMatches (rule : NetworkMockRule) (request : NetworkMockRequest) (now : ℤ) :
    Except RuleError Bool :=
  if isExpired host rule now then .ok false else requestMatches host rule.matching request

end Matching

end Holonomy.Network
