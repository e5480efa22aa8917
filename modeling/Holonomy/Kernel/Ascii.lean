import Holonomy.Foundation.Histories
import Holonomy.Kernel.Platform

/-!
# An ASCII host

A host that behaves as the language does on natural numbers, on ASCII letters and on web URLs
made of a lower-case host and a plain path. It shows that the documented facts are consistent,
and concrete runs are computed on it.
-/

namespace Holonomy.Kernel

open Foundation

def decimalDigits : ℕ → ℕ → List ℕ
  | 0, _ => [0]
  | fuel + 1, number =>
    if number < 10 then [number] else decimalDigits fuel (number / 10) ++ [number % 10]

def fromDecimal (digits : List ℕ) : ℕ := digits.foldl (fun value digit => value * 10 + digit) 0

theorem decimalDigits_ne_nil (fuel number : ℕ) : decimalDigits fuel number ≠ [] := by
  cases fuel with
  | zero => simp [decimalDigits]
  | succ fuel =>
    rw [decimalDigits]
    split <;> simp

theorem decimalDigits_lt (fuel number : ℕ) : ∀ digit ∈ decimalDigits fuel number, digit < 10 := by
  induction fuel generalizing number with
  | zero => simp [decimalDigits]
  | succ fuel ih =>
    rw [decimalDigits]
    split
    · next small => simpa using small
    · exact forall_mem_concat (ih _) (Nat.mod_lt _ (by decide))

theorem fromDecimal_decimalDigits (fuel number : ℕ) (enough : number < 10 ^ fuel) :
    fromDecimal (decimalDigits fuel number) = number := by
  induction fuel generalizing number with
  | zero =>
    have zero : number = 0 := by simpa using enough
    rw [zero]
    rfl
  | succ fuel ih =>
    rw [decimalDigits]
    split
    · simp [fromDecimal]
    · have smaller : number / 10 < 10 ^ fuel := by
        rw [Nat.div_lt_iff_lt_mul (by decide)]
        exact enough
      have read := ih _ smaller
      rw [fromDecimal] at read ⊢
      rw [List.foldl_append, read]
      simp only [List.foldl_cons, List.foldl_nil]
      omega

/-- Natural numbers in decimal notation. -/
def decimalFormat : NumberFormat where
  Representable number := ∃ value : ℕ, value < 10 ^ 20 ∧ number = value
  write number := (decimalDigits 20 number.num.toNat).map fun digit => UInt16.ofNat (0x30 + digit)
  read text := some (fromDecimal (text.map fun unit => unit.toNat - 0x30) : ℕ)
  write_ne_nil number := by simpa using decimalDigits_ne_nil 20 number.num.toNat
  write_numeric number := by
    intro unit unitIn
    obtain ⟨digit, digitIn, rfl⟩ := List.mem_map.mp unitIn
    have small := decimalDigits_lt _ _ digit digitIn
    interval_cases digit <;> decide
  read_write := by
    rintro number ⟨value, small, rfl⟩
    have digits : ((decimalDigits 20 value).map fun digit => UInt16.ofNat (0x30 + digit)).map
        (fun unit => unit.toNat - 0x30) = decimalDigits 20 value := by
      rw [List.map_map]
      refine (List.map_congr_left fun digit digitIn => ?_).trans (List.map_id _)
      have lower := decimalDigits_lt _ _ digit digitIn
      interval_cases digit <;> rfl
    simp only [Rat.num_natCast, Int.toNat_natCast, digits, fromDecimal_decimalDigits 20 value small]

/-- The lower-case form of an ASCII letter. -/
def lowerUnit (unit : UInt16) : UInt16 :=
  if 0x41 ≤ unit.toNat ∧ unit.toNat ≤ 0x5A then unit + 0x20 else unit

theorem lowerUnit_lowerUnit (unit : UInt16) : lowerUnit (lowerUnit unit) = lowerUnit unit := by
  unfold lowerUnit
  split
  · next upper =>
    have value : (unit + 0x20).toNat = unit.toNat + 0x20 := by
      rw [UInt16.toNat_add]
      change (unit.toNat + 0x20) % 2 ^ 16 = unit.toNat + 0x20
      omega
    rw [if_neg (by omega)]
  · rfl

/-- A unit of a lower-case host name. -/
def isHostUnit (unit : UInt16) : Bool :=
  (0x30 ≤ unit.toNat && unit.toNat ≤ 0x39) || (0x61 ≤ unit.toNat && unit.toNat ≤ 0x7A)
    || unit.toNat = 0x2D || unit.toNat = 0x2E

def isPathUnit (unit : UInt16) : Bool :=
  (0x30 ≤ unit.toNat && unit.toNat ≤ 0x39) || (0x41 ≤ unit.toNat && unit.toNat ≤ 0x5A)
    || (0x61 ≤ unit.toNat && unit.toNat ≤ 0x7A) || unit.toNat = 0x2D || unit.toNat = 0x2F
    || unit.toNat = 0x5F

def plainUrl (protocol host path : Text) : Url where
  protocol := protocol
  username := []
  password := []
  hostname := host
  port := []
  pathname := if path = [] then js "/" else path
  search := []
  hash := []
  origin := protocol ++ js "//" ++ host
  href := protocol ++ js "//" ++ host ++ if path = [] then js "/" else path

def parseRest (protocol rest : Text) : Option Url :=
  let host := rest.takeWhile (· ≠ 0x2F)
  let path := rest.dropWhile (· ≠ 0x2F)
  if host ≠ [] ∧ (∀ unit ∈ host, isHostUnit unit = true) ∧ ∀ unit ∈ path,
    isPathUnit unit = true then
    some (plainUrl protocol host path)
  else none

def parsePlain (text : Text) : Option Url :=
  if js "http://" <+: text then parseRest (js "http:") (text.drop 7)
  else if js "https://" <+: text then parseRest (js "https:") (text.drop 8)
  else none

theorem parseRest_eq_some {protocol rest : Text} {url : Url}
    (parses : parseRest protocol rest = some url) : ∃ host path, url = plainUrl protocol host path ∧
      host ≠ [] ∧ (∀ unit ∈ host, isHostUnit unit = true) ∧
      (∀ unit ∈ path, isPathUnit unit = true) ∧ (path = [] ∨ path.head? = some 0x2F) := by
  unfold parseRest at parses
  dsimp only at parses
  split at parses
  · next accepted =>
    refine ⟨_, _, (Option.some.inj parses).symm, accepted.1, accepted.2.1, accepted.2.2, ?_⟩
    cases tail : rest.dropWhile (· ≠ 0x2F) with
    | nil => exact .inl rfl
    | cons unit path =>
      have stop := List.head?_dropWhile_not (fun unit => decide (unit ≠ (0x2F : UInt16))) rest
      rw [tail] at stop
      have slash : unit = 0x2F := by simpa using stop
      exact .inr (by rw [slash]; rfl)
  · cases parses

theorem parseRest_append {protocol host path : Text} (given : host ≠ [])
    (hosts : ∀ unit ∈ host, isHostUnit unit = true) (paths : ∀ unit ∈ path, isPathUnit unit = true)
    (starts : path = [] ∨ path.head? = some 0x2F) :
    parseRest protocol (host ++ path) = some (plainUrl protocol host path) := by
  have noSlash : ∀ unit ∈ host, (decide (unit ≠ 0x2F)) = true := by
    intro unit unitIn
    have formed := hosts unit unitIn
    rw [decide_eq_true_eq]
    rintro rfl
    exact absurd formed (by decide)
  have taken : (host ++ path).takeWhile (· ≠ 0x2F) = host ∧
      (host ++ path).dropWhile (· ≠ 0x2F) = path := by
    rw [List.takeWhile_append_of_pos noSlash, List.dropWhile_append_of_pos noSlash]
    cases path with
    | nil => simp
    | cons unit path =>
      have slash : unit = 0x2F := by simpa using starts
      simp [slash]
  unfold parseRest
  dsimp only
  rw [taken.1, taken.2, if_pos ⟨given, hosts, paths⟩]

theorem parsePlain_eq_some {text : Text} {url : Url} (parses : parsePlain text = some url) :
    ∃ protocol host path, (protocol = js "http:" ∨ protocol = js "https:") ∧
      url = plainUrl protocol host path ∧ host ≠ [] ∧
      (∀ unit ∈ host, isHostUnit unit = true) ∧ (∀ unit ∈ path, isPathUnit unit = true) ∧
      (path = [] ∨ path.head? = some 0x2F) := by
  unfold parsePlain at parses
  split at parses
  · obtain ⟨host, path, parts⟩ := parseRest_eq_some parses
    exact ⟨_, host, path, .inl rfl, parts⟩
  · split at parses
    · obtain ⟨host, path, parts⟩ := parseRest_eq_some parses
      exact ⟨_, host, path, .inr rfl, parts⟩
    · cases parses

theorem parsePlain_append {protocol host path : Text}
    (scheme : protocol = js "http:" ∨ protocol = js "https:") (given : host ≠ [])
    (hosts : ∀ unit ∈ host, isHostUnit unit = true) (paths : ∀ unit ∈ path, isPathUnit unit = true)
    (starts : path = [] ∨ path.head? = some 0x2F) :
    parsePlain (protocol ++ js "//" ++ (host ++ path)) = some (plainUrl protocol host path) := by
  have again := @parseRest_append protocol host path given hosts paths starts
  rcases scheme with rfl | rfl
  · have opens : js "http://" <+: js "http:" ++ js "//" ++ (host ++ path) := ⟨host ++ path, rfl⟩
    unfold parsePlain
    rw [if_pos opens]
    exact again
  · have closed : ¬ js "http://" <+: js "https:" ++ js "//" ++ (host ++ path) := by
      rintro ⟨rest, same⟩
      have fifth : some (0x3A : UInt16) = some 0x73 := congrArg (·[4]?) same
      exact absurd fifth (by decide)
    have opens : js "https://" <+: js "https:" ++ js "//" ++ (host ++ path) := ⟨host ++ path, rfl⟩
    unfold parsePlain
    rw [if_neg closed, if_pos opens]
    exact again

def asciiPlatform : Platform where
  numbers := decimalFormat
  safe number small := ⟨number, small.trans_lt (by decide), rfl⟩
  localeCompare := .ofLinear Text
  toLowerCase text := text.map lowerUnit
  toLowerCase_toLowerCase text := by simp [Function.comp_def, lowerUnit_lowerUnit]
  toLowerCase_ne_nil text given := by simpa using given
  length_toLowerCase text _ := by simp
  parseUrl := parsePlain
  protocol_http rest url parses := by
    unfold parsePlain at parses
    rw [if_pos ⟨rest, rfl⟩] at parses
    obtain ⟨host, path, rfl, -⟩ := parseRest_eq_some parses
    rfl
  hostname_ascii text url parses _ := by
    obtain ⟨protocol, host, path, -, rfl, -, hosts, -⟩ := parsePlain_eq_some parses
    intro unit unitIn
    have formed := hosts unit unitIn
    simp only [isHostUnit, Bool.or_eq_true, Bool.and_eq_true, decide_eq_true_eq] at formed
    omega
  href_eq text url parses _ _ _ := by
    obtain ⟨protocol, host, path, -, rfl, -⟩ := parsePlain_eq_some parses
    simp [plainUrl]
  parseUrl_origin_pathname text url parses _ := by
    obtain ⟨protocol, host, path, scheme, rfl, given, hosts, paths, starts⟩ :=
      parsePlain_eq_some parses
    have served : ∀ unit ∈ if path = [] then js "/" else path, isPathUnit unit = true := by
      split
      · exact List.all_eq_true.mp rfl
      · exact paths
    have begun : (if path = [] then js "/" else path) = []
        ∨ (if path = [] then js "/" else path).head? = some 0x2F := by
      split
      · exact .inr rfl
      · exact starts
    have again := parsePlain_append scheme given hosts served begun
    have filled : (if path = [] then js "/" else path) ≠ [] := by
      split
      · decide
      · next filled => exact filled
    simp only [plainUrl, List.append_assoc] at again ⊢
    rw [again]
    simp only [filled, if_false]

end Holonomy.Kernel
