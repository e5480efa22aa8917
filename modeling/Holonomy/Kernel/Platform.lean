import Holonomy.Foundation.Json

/-!
# The host language

What the kernel takes from the language runtime below it: how numbers are spelled, the locale order,
letter case and URL parsing. Each is a parameter together with the documented facts the kernel
relies on, so every theorem holds for every host that keeps them.
-/

namespace Holonomy.Kernel

open Foundation

/-! ## The SHA-256 digest

The digest of a list of bytes in lower-case hexadecimal.
-/

def roundConstants : List UInt32 := [
  0x428A2F98, 0x71374491, 0xB5C0FBCF, 0xE9B5DBA5, 0x3956C25B, 0x59F111F1, 0x923F82A4, 0xAB1C5ED5,
  0xD807AA98, 0x12835B01, 0x243185BE, 0x550C7DC3, 0x72BE5D74, 0x80DEB1FE, 0x9BDC06A7, 0xC19BF174,
  0xE49B69C1, 0xEFBE4786, 0x0FC19DC6, 0x240CA1CC, 0x2DE92C6F, 0x4A7484AA, 0x5CB0A9DC, 0x76F988DA,
  0x983E5152, 0xA831C66D, 0xB00327C8, 0xBF597FC7, 0xC6E00BF3, 0xD5A79147, 0x06CA6351, 0x14292967,
  0x27B70A85, 0x2E1B2138, 0x4D2C6DFC, 0x53380D13, 0x650A7354, 0x766A0ABB, 0x81C2C92E, 0x92722C85,
  0xA2BFE8A1, 0xA81A664B, 0xC24B8B70, 0xC76C51A3, 0xD192E819, 0xD6990624, 0xF40E3585, 0x106AA070,
  0x19A4C116, 0x1E376C08, 0x2748774C, 0x34B0BCB5, 0x391C0CB3, 0x4ED8AA4A, 0x5B9CCA4F, 0x682E6FF3,
  0x748F82EE, 0x78A5636F, 0x84C87814, 0x8CC70208, 0x90BEFFFA, 0xA4506CEB, 0xBEF9A3F7, 0xC67178F2]

structure HashState where
  a : UInt32
  b : UInt32
  c : UInt32
  d : UInt32
  e : UInt32
  f : UInt32
  g : UInt32
  h : UInt32

/-- The hash state before the first block. -/
def initialState : HashState where
  a := 0x6A09E667
  b := 0xBB67AE85
  c := 0x3C6EF372
  d := 0xA54FF53A
  e := 0x510E527F
  f := 0x9B05688C
  g := 0x1F83D9AB
  h := 0x5BE0CD19

def rotateRight (value count : UInt32) : UInt32 := (value >>> count) ||| (value <<< (32 - count))

/-- The bytes of a 32-bit number, most significant first. -/
def wordBytes (value : ℕ) : List UInt8 :=
  [24, 16, 8, 0].map fun shift => UInt8.ofNat (value / 2 ^ shift)

def padded (input : List UInt8) : List UInt8 :=
  let length := input.length
  let paddedLength := (length + 9 + 63) / 64 * 64
  let bitLength := length * 8
  input ++ 0x80 :: List.replicate (paddedLength - length - 9) 0 ++
    wordBytes (bitLength / 2 ^ 32 % 2 ^ 32) ++ wordBytes (bitLength % 2 ^ 32)

def blockWords : List UInt8 → List UInt32
  | first :: second :: third :: fourth :: rest =>
    UInt32.ofNat (first.toNat * 2 ^ 24 + second.toNat * 2 ^ 16 + third.toNat * 2 ^ 8 + fourth.toNat)
      :: blockWords rest
  | _ => []

def nextWord (words : List UInt32) : List UInt32 :=
  let word15 := words.getD 14 0
  let word2 := words.getD 1 0
  let sigma0 := rotateRight word15 7 ^^^ rotateRight word15 18 ^^^ (word15 >>> 3)
  let sigma1 := rotateRight word2 17 ^^^ rotateRight word2 19 ^^^ (word2 >>> 10)
  (words.getD 15 0 + sigma0 + words.getD 6 0 + sigma1) :: words

def schedule (block : List UInt8) : List UInt32 :=
  (nextWord^[48] (blockWords block).reverse).reverse

def round (state : HashState) (constant word : UInt32) : HashState :=
  let sum1 := rotateRight state.e 6 ^^^ rotateRight state.e 11 ^^^ rotateRight state.e 25
  let choice := (state.e &&& state.f) ^^^ (~~~state.e &&& state.g)
  let temporary1 := state.h + sum1 + choice + constant + word
  let sum0 := rotateRight state.a 2 ^^^ rotateRight state.a 13 ^^^ rotateRight state.a 22
  let majority := (state.a &&& state.b) ^^^ (state.a &&& state.c) ^^^ (state.b &&& state.c)
  let temporary2 := sum0 + majority
  { a := temporary1 + temporary2, b := state.a, c := state.b, d := state.c
    e := state.d + temporary1, f := state.e, g := state.f, h := state.g }

def compress (state : HashState) (block : List UInt8) : HashState :=
  let mixed := (roundConstants.zip (schedule block)).foldl
    (fun state constants => round state constants.1 constants.2) state
  { a := state.a + mixed.a, b := state.b + mixed.b, c := state.c + mixed.c, d := state.d + mixed.d
    e := state.e + mixed.e, f := state.f + mixed.f, g := state.g + mixed.g, h := state.h + mixed.h }

def compressBlocks : ℕ → HashState → List UInt8 → HashState
  | 0, state, _ => state
  | count + 1, state, bytes =>
    compressBlocks count (compress state (bytes.take 64)) (bytes.drop 64)

def wordHex (word : UInt32) : Text :=
  [28, 24, 20, 16, 12, 8, 4, 0].map fun shift => hexDigit (word.toNat / 2 ^ shift % 16)

def sha256Hex (input : List UInt8) : Text :=
  let bytes := padded input
  let state := compressBlocks (bytes.length / 64) initialState bytes
  [state.a, state.b, state.c, state.d, state.e, state.f, state.g, state.h].flatMap wordHex

/-- A digest in lower-case hexadecimal. -/
def isDigest (text : Text) : Bool :=
  text.length = 64 && text.all fun unit =>
    (0x30 ≤ unit && unit ≤ 0x39) || (0x61 ≤ unit && unit ≤ 0x66)

theorem hexDigit_lower (value : ℕ) (small : value < 16) :
    ((0x30 ≤ hexDigit value && hexDigit value ≤ 0x39)
      || (0x61 ≤ hexDigit value && hexDigit value ≤ 0x66)) = true := by
  have listed : value ∈ List.range 16 := List.mem_range.mpr small
  have every : ∀ value ∈ List.range 16, ((0x30 ≤ hexDigit value && hexDigit value ≤ 0x39)
      || (0x61 ≤ hexDigit value && hexDigit value ≤ 0x66)) = true := by decide
  exact every value listed

theorem sha256Hex_isDigest (input : List UInt8) : isDigest (sha256Hex input) = true := by
  have digits (word : UInt32) : ∀ unit ∈ wordHex word, ((0x30 ≤ unit && unit ≤ 0x39)
      || (0x61 ≤ unit && unit ≤ 0x66)) = true := by
    intro unit unitIn
    obtain ⟨shift, -, rfl⟩ := List.mem_map.mp unitIn
    exact hexDigit_lower _ (Nat.mod_lt _ (by decide))
  rw [isDigest, Bool.and_eq_true, decide_eq_true_eq, List.all_eq_true]
  constructor
  · simp [sha256Hex, wordHex]
  · intro unit unitIn
    obtain ⟨word, -, unitOf⟩ := List.mem_flatMap.mp unitIn
    exact digits word unit unitOf

/-- The contract errors a kernel function raises. -/
inductive ContractCode
  | bindingUnavailable
  | configurationInvalid
  | policyVersionUnsupported
  deriving DecidableEq

/-- The invocation errors the authorization of a request raises. -/
inductive InvocationCode
  | argumentInvalid
  | capabilityDenied
  | policyDenied
  | resourceCrossRoot
  | resourceInvalid
  deriving DecidableEq

/-- What a kernel function throws. -/
inductive Thrown
  | contract (code : ContractCode)
  | invocation (code : InvocationCode) (operation : Text) (semanticResourceDigest : Option Text)
  /-- A value has not the type the language needs there. -/
  | typeError
  /-- A text cannot be written or read as part of a URI. -/
  | uriError
  deriving DecidableEq

/-- A computation that returns or throws. -/
abbrev Js := Except Thrown

def invalidPolicy {α : Type} : Js α := .error (.contract .configurationInvalid)

/-- The largest integer every number up to which is exact. -/
def maxSafeInteger : ℕ := 2 ^ 53 - 1

/-- The parts of a parsed URL. -/
structure Url where
  protocol : Text
  username : Text
  password : Text
  hostname : Text
  port : Text
  pathname : Text
  search : Text
  hash : Text
  origin : Text
  href : Text
  deriving DecidableEq

/-- The schemes the kernel admits. -/
def Url.IsWeb (url : Url) : Prop := url.protocol = js "http:" ∨ url.protocol = js "https:"
  deriving Decidable

/-- The language runtime. -/
structure Platform where
  numbers : NumberFormat
  safe : ∀ number : ℕ, number ≤ maxSafeInteger → numbers.Representable number
  localeCompare : Precedence Text
  toLowerCase : Text → Text
  toLowerCase_toLowerCase : ∀ text, toLowerCase (toLowerCase text) = toLowerCase text
  toLowerCase_ne_nil : ∀ text, text ≠ [] → toLowerCase text ≠ []
  length_toLowerCase : ∀ text, (∀ unit ∈ toLowerCase text, unit.toNat < 0x80) →
    (toLowerCase text).length = text.length
  parseUrl : Text → Option Url
  /-- A text that starts with a scheme has that scheme. -/
  protocol_http : ∀ rest url, parseUrl (js "http://" ++ rest) = some url → url.protocol = js "http:"
  hostname_ascii : ∀ text url, parseUrl text = some url → url.IsWeb →
    ∀ unit ∈ url.hostname, unit.toNat < 0x80
  href_eq : ∀ text url, parseUrl text = some url → url.IsWeb → url.username = [] →
    url.password = [] → url.href = url.origin ++ url.pathname ++ url.search ++ url.hash
  parseUrl_origin_pathname : ∀ text url, parseUrl text = some url → url.IsWeb →
    parseUrl (url.origin ++ url.pathname) = some { url with
      username := [], password := [], search := [], hash := [], href := url.origin ++ url.pathname }

def canonicalJson (platform : Platform) (value : JsonValue) : Text :=
  value.canonicalJson platform.numbers

def canonicalDigest (platform : Platform) (value : JsonValue) : Text :=
  sha256Hex (encodeUtf8 (canonicalJson platform value))

section Computations

variable {α β : Type}

@[simp]
theorem bind_eq_ok (first : Js α) (second : α → Js β) (result : β) :
    (first >>= second) = .ok result ↔ ∃ value, first = .ok value ∧ second value = .ok result := by
  cases first with
  | error thrown => simp [bind, Except.bind]
  | ok value => simp [bind, Except.bind]

@[simp]
theorem ok_bind (value : α) (second : α → Js β) :
    ((.ok value : Js α) >>= second) = second value := by
  simp only [bind, Except.bind]

@[simp]
theorem invalidPolicy_bind (second : α → Js β) :
    ((invalidPolicy : Js α) >>= second) = invalidPolicy := by
  simp only [invalidPolicy, bind, Except.bind]

@[simp]
theorem pure_eq_ok (value : α) : (pure value : Js α) = .ok value := by
  simp only [pure, Except.pure]

@[simp]
theorem invalidPolicy_ne_ok (value : α) : (invalidPolicy : Js α) ≠ .ok value := nofun

@[simp]
theorem guarded_eq_ok (refused : Prop) [Decidable refused] (continued : Js α) (value : α) :
    (if refused then invalidPolicy else continued) = .ok value
      ↔ ¬ refused ∧ continued = .ok value := by
  split <;> simp [*]

@[simp]
theorem checked_eq_ok (accepted : Prop) [Decidable accepted] (continued : Js α) (value : α) :
    (if accepted then continued else invalidPolicy) = .ok value
      ↔ accepted ∧ continued = .ok value := by
  split <;> simp [*]

def each (function : α → Js β) : List α → Js (List β)
  | [] => .ok []
  | value :: values => do
    let result ← function value
    let results ← each function values
    return result :: results

theorem each_eq_ok (function : α → Js β) (values : List α) (results : List β) :
    each function values = .ok results
      ↔ List.Forall₂ (fun value result => function value = .ok result) values results := by
  induction values generalizing results with
  | nil => simp [each, eq_comm]
  | cons value values ih =>
    simp only [each, bind_eq_ok, pure_eq_ok, Except.ok.injEq, ih, List.forall₂_cons_left_iff]
    constructor
    · rintro ⟨result, one, rest, all, rfl⟩
      exact ⟨result, rest, one, all, rfl⟩
    · rintro ⟨result, rest, one, all, rfl⟩
      exact ⟨result, one, rest, all, rfl⟩

theorem exists_of_mem_each {function : α → Js β} {values : List α} {results : List β}
    (returns : each function values = .ok results) {result : β} (resultIn : result ∈ results) :
    ∃ value ∈ values, function value = .ok result := by
  rw [each_eq_ok] at returns
  induction returns with
  | nil => cases resultIn
  | @cons value first values results one _ ih =>
    rcases List.mem_cons.mp resultIn with rfl | later
    · exact ⟨value, List.mem_cons_self, one⟩
    · obtain ⟨source, sourceIn, read⟩ := ih later
      exact ⟨source, List.mem_cons_of_mem _ sourceIn, read⟩

theorem each_map (function : α → Js β) (source : β → α) (values : List β)
    (returns : ∀ value ∈ values, function (source value) = .ok value) :
    each function (values.map source) = .ok values := by
  rw [each_eq_ok, List.forall₂_map_left_iff]
  exact List.forall₂_same.mpr returns

end Computations

end Holonomy.Kernel
