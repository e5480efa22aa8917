import Holonomy.Network.AddressText

/-!
# What the authority admits

With private networks denied an address is authorized exactly when it is the text form of a public
address, unless it has a dotted address in front of two colons. Such a text is read as an address,
and the URL that should normalize it cannot be parsed.
-/

namespace Holonomy.Network

open Foundation Kernel

/-- An address as a number. -/
inductive IpAddress where
  | v4 (value : ℕ)
  | v6 (value : ℕ)

inductive Denotes : Text → IpAddress → Prop where
  | v4 {text : Text} {octets : List ℕ} (form : IsIpv4 text octets) :
      Denotes text (.v4 (numeral 256 octets))
  | v6 {text : Text} {groups : List ℕ} (form : IsIpv6 text groups) :
      Denotes text (.v6 (numeral 65536 groups))

def IpAddress.IsPublic : IpAddress → Prop
  | .v4 value => ∀ range ∈ nonPublicIpv4Ranges,
      value / 2 ^ (32 - range.2) ≠ range.1 / 2 ^ (32 - range.2)
  | .v6 value => value / 2 ^ 125 = 1 ∧ ∀ listed ∈ listedIpv6Prefixes, ∀ base,
      IsIpv6 listed.1 base → value / 2 ^ (128 - listed.2) ≠ numeral 65536 base / 2 ^
        (128 - listed.2)

structure HostReader where
  /-- The host name of a URL, unless the URL cannot be parsed. -/
  urlHostname : Text → Option Text
  shows : ∀ text groups, IsIpv6 text groups →
    ∃ shown, urlHostname (addressUrl text) = some ([0x5B] ++ shown ++ [0x5D]) ∧ IsIpv6 shown groups
  refuses : ∀ text, (∀ unit ∈ text, IsPermitted unit) → (∀ groups, ¬ IsIpv6 text groups) →
    urlHostname (addressUrl text) = none

structure FollowsForms (result : Except AuthorityError Text) (address : Text) : Prop where
  returns : (∃ shown, result = .ok shown) ↔ ∃ ip, Denotes address ip ∧ ip.IsPublic
  shows : ∀ shown, result = .ok shown → ∀ ip, Denotes address ip → Denotes shown ip
  throws : (¬ ∃ ip, Denotes address ip ∧ ip.IsPublic) → result = .error (.network .invalidUrl)

section Misplaced

variable {text : Text} {groups : List ℕ}

theorem IsMisplaced.ends (misplaced : IsMisplaced text groups) :
    (0x2E : UInt16) ∈ text ∧ [0x3A, 0x3A] <:+ text := by
  cases misplaced with
  | @quad left part _ _ _ _ _ _ quad _ =>
    have point : (0x2E : UInt16) ∈ join 0x3A (left ++ [part]) :=
      mem_join_of_mem (List.mem_append_right left (List.mem_singleton_self part)) quad.point
    exact ⟨List.mem_append_left _ point, List.suffix_append _ _⟩

theorem isGroup_of_forall₂ {parts : List Text} (are : List.Forall₂ IsGroup parts groups) :
    ∀ part ∈ parts, ∃ group, IsGroup part group := by
  intro part listed
  induction are with
  | nil => cases listed
  | cons isGroup _ ih =>
    rcases List.mem_cons.mp listed with rfl | among
    · exact ⟨_, isGroup⟩
    · exact ih among

theorem IsIpv6.not_ends (form : IsIpv6 text groups) :
    ¬ ((0x2E : UInt16) ∈ text ∧ [0x3A, 0x3A] <:+ text) := by
  rintro ⟨point, front, isText⟩
  have last : text.getLast? = some 0x3A := by
    rw [← isText]
    simp
  cases form with
  | full written eight => exact (single_join (arePart_of_isPart written.areParts)).ends last
  | @compressed left right before behind first last' missing =>
    cases right with
    | nil =>
      rw [show join 0x3A ([] : List Text) = [] from rfl, List.append_nil] at point
      rcases List.mem_append.mp point with inside | colon
      · rcases of_mem_join inside with ⟨part, listed, among⟩ | colon
        · obtain ⟨group, isGroup⟩ := isGroup_of_forall₂ first part listed
          exact isGroup.no_point among
        · revert colon
          decide
      · revert colon
        decide
    | cons part parts =>
      have filled : join 0x3A (part :: parts) ≠ [] :=
        join_ne_nil (last'.areParts part (by simp)).filled parts
      rw [List.getLast?_append_of_ne_nil _ filled] at last
      exact (single_join (arePart_of_isPart last'.areParts)).ends last

theorem IsMisplaced.not_form {others : List ℕ} (misplaced : IsMisplaced text groups) :
    ¬ IsIpv6 text others :=
  fun form => form.not_ends misplaced.ends

end Misplaced

section Ranges

variable {groups : List ℕ} {text : Text} {range : Ipv6Prefix}

theorem isLeadingMask_shift (width cut : ℕ) :
    IsLeadingMask width cut (((2 ^ width - 1) <<< cut) % 2 ^ width) := by
  intro bit
  rw [Nat.testBit_mod_two_pow, Nat.testBit_shiftLeft, Nat.testBit_two_pow_sub_one, Bool.eq_iff_iff]
  simp only [Bool.and_eq_true, decide_eq_true_eq, ge_iff_le]
  omega

theorem isPublicIpv4Value_iff {value : ℕ} (small : value < 2 ^ 32) :
    isPublicIpv4Value value = true ↔ (IpAddress.v4 value).IsPublic := by
  have ranges : ∀ range ∈ nonPublicIpv4Ranges, range.1 < 2 ^ 32 ∧ range.2 ≠ 0 := by decide
  unfold isPublicIpv4Value IpAddress.IsPublic
  rw [Bool.not_eq_true', List.any_eq_false]
  refine forall₂_congr fun range listed => ?_
  obtain ⟨base, some_bit⟩ := ranges range listed
  have mask := (isLeadingMask_shift 32 (32 - range.2)).and_eq_and_iff small base
  dsimp only
  rw [if_neg some_bit, beq_iff_eq]
  exact not_congr mask

theorem leading_groups_iff (full : ℕ) {remaining : ℕ} {base : List ℕ}
    (length : groups.length = base.length) (fits : 16 * full + remaining ≤ 16 * groups.length)
    (part : remaining < 16) (groupsSmall : ∀ group ∈ groups, group < 2 ^ 16)
    (baseSmall : ∀ group ∈ base, group < 2 ^ 16) :
    ((∀ index < full, groups[index]? = base[index]?) ∧ (remaining = 0 ∨
      groups.getD full 0 / 2 ^ (16 - remaining) = base.getD full 0 / 2 ^ (16 - remaining))) ↔
    numeral (2 ^ 16) groups / 2 ^ (16 * groups.length - (16 * full + remaining)) =
      numeral (2 ^ 16) base / 2 ^ (16 * groups.length - (16 * full + remaining)) := by
  induction full generalizing groups base with
  | zero =>
    by_cases none : remaining = 0
    · have left := numeral_lt groupsSmall
      have right := numeral_lt baseSmall
      rw [← Nat.pow_mul] at left right
      rw [← length] at right
      have exponent : 16 * groups.length - (16 * 0 + remaining) = 16 * groups.length := by omega
      rw [exponent, Nat.div_eq_of_lt left, Nat.div_eq_of_lt right]
      simp [none]
    · cases groups with
      | nil =>
        rw [List.length_nil] at fits
        omega
      | cons group groups =>
        cases base with
        | nil => cases length
        | cons other others =>
          have sameLength : groups.length = others.length := Nat.succ.inj length
          have exponent : 16 * (group :: groups).length - (16 * 0 + remaining) =
              16 * groups.length + (16 - remaining) := by
            rw [List.length_cons]
            omega
          have left : ∀ later ∈ groups, later < 2 ^ 16 :=
            fun later listed => groupsSmall later (List.mem_cons_of_mem _ listed)
          have right : ∀ later ∈ others, later < 2 ^ 16 :=
            fun later listed => baseSmall later (List.mem_cons_of_mem _ listed)
          rw [exponent, numeral_div_of_le _ _ left, sameLength, numeral_div_of_le _ _ right]
          simp [none]
  | succ full ih =>
    cases groups with
    | nil =>
      rw [List.length_nil] at fits
      omega
    | cons group groups =>
      cases base with
      | nil => cases length
      | cons other others =>
        have sameLength : groups.length = others.length := Nat.succ.inj length
        rw [List.length_cons] at fits
        have exponent : 16 * (group :: groups).length - (16 * (full + 1) + remaining) =
            16 * groups.length - (16 * full + remaining) := by
          rw [List.length_cons]
          omega
        have left : ∀ later ∈ groups, later < 2 ^ 16 :=
          fun later listed => groupsSmall later (List.mem_cons_of_mem _ listed)
        have right : ∀ later ∈ others, later < 2 ^ 16 :=
          fun later listed => baseSmall later (List.mem_cons_of_mem _ listed)
        rw [exponent, numeral_div_cons_iff sameLength (by omega) left right,
          ← ih sameLength (by omega) left right, ← and_assoc]
        refine and_congr ?_ (by simp)
        constructor
        · intro agree
          have first := agree 0 (by omega)
          refine ⟨by simpa using first, fun index below => ?_⟩
          simpa using agree (index + 1) (by omega)
        · rintro ⟨rfl, agree⟩ index below
          cases index with
          | zero => simp
          | succ index => simpa using agree index (by omega)

theorem hexValue_lt (unit : UInt16) : (hexValue unit).getD 0 < 16 := by
  unfold hexValue
  split_ifs <;> simp only [Option.getD_some, Option.getD_none] <;> omega

theorem hexNumber_lt (digits : Text) : hexNumber digits < 16 ^ digits.length := by
  have read := foldl_eq_numeral 16 (digits.map fun digit => (hexValue digit).getD 0) 0
  rw [List.foldl_map, Nat.zero_mul, Nat.zero_add] at read
  have small : ∀ value ∈ digits.map fun digit => (hexValue digit).getD 0, value < 16 := by
    intro value listed
    obtain ⟨unit, _, rfl⟩ := List.mem_map.mp listed
    exact hexValue_lt unit
  have below := numeral_lt small
  rw [List.length_map] at below
  rw [hexNumber, read]
  exact below

theorem IsGroup.lt {part : Text} {group : ℕ} (isGroup : IsGroup part group) : group < 2 ^ 16 := by
  rw [isGroup.value]
  calc hexNumber part
    _ < 16 ^ part.length := hexNumber_lt part
    _ ≤ 16 ^ 4 := Nat.pow_le_pow_right (by decide) isGroup.few
    _ = 2 ^ 16 := by decide

theorem IsGroups.lt {parts : List Text} (written : IsGroups parts groups) :
    ∀ group ∈ groups, group < 2 ^ 16 := by
  induction written with
  | none => simp
  | dotted quad =>
    have small := quad.small
    simp only [List.mem_cons, List.not_mem_nil, or_false, forall_eq_or_imp, forall_eq] at small ⊢
    omega
  | group first later ih =>
    intro group listed
    rcases List.mem_cons.mp listed with same | among
    · rw [same]
      exact first.lt
    · exact ih group among

theorem IsIpv6.eight (form : IsIpv6 text groups) :
    groups.length = 8 ∧ ∀ group ∈ groups, group < 2 ^ 16 := by
  cases form with
  | full written eight => exact ⟨eight, written.lt⟩
  | compressed first last missing =>
    have before := (isGroups_of_forall₂ first last).lt
    refine ⟨by simp only [List.length_append, List.length_replicate]; omega, ?_⟩
    intro group listed
    simp only [List.mem_append, List.mem_replicate] at listed before
    rcases listed with (inFront | ⟨_, zero⟩) | behind
    · exact before group (.inl inFront)
    · rw [zero]
      decide
    · exact before group (.inr behind)

theorem matchesIpv6Prefix_iff (eight : groups.length = 8) (small : ∀ group ∈ groups, group < 2 ^ 16)
    (baseEight : range.base.length = 8) (baseSmall : ∀ group ∈ range.base, group < 2 ^ 16)
    (bits : range.bits ≤ 128) :
    matchesIpv6Prefix groups range = true ↔
      numeral 65536 groups / 2 ^ (128 - range.bits) =
        numeral 65536 range.base / 2 ^ (128 - range.bits) := by
  have cut : range.bits % 16 < 16 := Nat.mod_lt _ (by decide)
  have whole : 16 * (range.bits / 16) + range.bits % 16 = range.bits := Nat.div_add_mod _ _
  have agree := leading_groups_iff (range.bits / 16) (by rw [eight, baseEight])
    (by rw [eight, whole]; exact bits) cut small baseSmall
  rw [whole, eight] at agree
  have numbers : (2 : ℕ) ^ 16 = 65536 := by decide
  have within (values : List ℕ) (below : ∀ group ∈ values, group < 2 ^ 16) (index : ℕ) :
      values.getD index 0 < 2 ^ 16 := by
    rw [List.getD_eq_getElem?_getD]
    cases found : values[index]? with
    | none => decide
    | some group => exact below group (List.mem_of_getElem? found)
  have shifted : (0xFFFF <<< (16 - range.bits % 16)) &&& 0xFFFF =
      ((2 ^ 16 - 1) <<< (16 - range.bits % 16)) % 2 ^ 16 := by
    rw [← Nat.and_two_pow_sub_one_eq_mod, numbers]
  have mask := (isLeadingMask_shift 16 (16 - range.bits % 16)).and_eq_and_iff
    (within groups small (range.bits / 16)) (within range.base baseSmall (range.bits / 16))
  rw [numbers] at agree
  rw [← agree, ← mask]
  unfold matchesIpv6Prefix
  dsimp only
  rw [shifted]
  simp only [Bool.and_eq_true, List.all_eq_true, List.mem_range, beq_iff_eq, Bool.or_eq_true]

theorem mem_nonPublicIpv6Prefixes_iff :
    range ∈ nonPublicIpv6Prefixes ↔
      ∃ listed ∈ listedIpv6Prefixes, IsIpv6 listed.1 range.base ∧ listed.2 = range.bits := by
  have plain : ∀ listed ∈ listedIpv6Prefixes, (0x2E : UInt16) ∉ listed.1 := by decide
  unfold nonPublicIpv6Prefixes
  rw [List.mem_filterMap]
  refine exists_congr fun listed => and_congr_right fun isListed => ?_
  unfold parseIpv6Prefix
  rw [Option.map_eq_some_iff]
  constructor
  · rintro ⟨base, read, rfl⟩
    rcases parseIpv6_eq_some_iff.mp read with form | misplaced
    · exact ⟨form, rfl⟩
    · exact absurd misplaced.ends.1 (plain listed isListed)
  · rintro ⟨form, same⟩
    exact ⟨range.base, parseIpv6_eq_some_iff.mpr (.inl form), by rw [same]⟩

/-- The ranges of IPv6 addresses are compared by their leading bits. -/
theorem isPublicIpv6_iff (form : IsIpv6 text groups) :
    isPublicIpv6 groups = true ↔ (IpAddress.v6 (numeral 65536 groups)).IsPublic := by
  obtain ⟨eight, small⟩ := form.eight
  have few : ∀ listed ∈ listedIpv6Prefixes, listed.2 ≤ 128 := by decide
  have global : ((groups.getD 0 0 &&& 0xE000) == 0x2000) = true ↔
      numeral 65536 groups / 2 ^ 125 = 1 := by
    cases groups with
    | nil => cases eight
    | cons group groups =>
      have seven : groups.length = 7 := Nat.succ.inj eight
      have later : ∀ other ∈ groups, other < 2 ^ 16 :=
        fun other listed => small other (List.mem_cons_of_mem _ listed)
      have divided := numeral_div_of_le 13 group later
      rw [seven] at divided
      have numbers : (2 : ℕ) ^ 16 = 65536 := by decide
      rw [numbers] at divided
      have mask := (isLeadingMask_shift 16 13).and_eq_and_iff (small group List.mem_cons_self)
        (by decide : 0x2000 < 2 ^ 16)
      have isMask : ((2 ^ 16 - 1) <<< 13) % 2 ^ 16 = 0xE000 := by decide
      rw [isMask] at mask
      rw [List.getD_cons_zero, beq_iff_eq, divided]
      exact mask
  have apart : (! nonPublicIpv6Prefixes.any (matchesIpv6Prefix groups)) = true ↔
      ∀ listed ∈ listedIpv6Prefixes, ∀ base, IsIpv6 listed.1 base →
        numeral 65536 groups / 2 ^ (128 - listed.2) ≠ numeral 65536 base / 2 ^
          (128 - listed.2) := by
    rw [Bool.not_eq_true', List.any_eq_false]
    constructor
    · intro none listed isListed base isBase
      obtain ⟨baseEight, baseSmall⟩ := isBase.eight
      have outside := none ⟨base, listed.2⟩
        (mem_nonPublicIpv6Prefixes_iff.mpr ⟨listed, isListed, isBase, rfl⟩)
      rwa [matchesIpv6Prefix_iff eight small baseEight baseSmall (few listed isListed)] at outside
    · intro none range isRange
      obtain ⟨listed, isListed, isBase, same⟩ := mem_nonPublicIpv6Prefixes_iff.mp isRange
      obtain ⟨baseEight, baseSmall⟩ := isBase.eight
      rw [matchesIpv6Prefix_iff eight small baseEight baseSmall
        (same ▸ few listed isListed), ← same]
      exact none listed isListed range.base isBase
  unfold isPublicIpv6 IpAddress.IsPublic
  rw [Bool.and_eq_true, global, apart]

end Ranges

section Authorization

variable (hosts : HostReader) {authority : ResolvedNetworkAuthority} {address : Text}

variable {octets groups : List ℕ} {parsed : ParsedAddress}

theorem IsIpv4.lt {text : Text} (ipv4 : IsIpv4 text octets) : numeral 256 octets < 2 ^ 32 := by
  have below := numeral_lt ipv4.small
  rw [ipv4.four] at below
  exact below

theorem colon_of_parseIpv6 (read : parseIpv6 address = some groups) :
    (0x3A : UInt16) ∈ address := by
  rcases parseIpv6_eq_some_iff.mp read with form | misplaced
  · cases form with
    | full written eight =>
      cases written with
      | none => cases eight
      | dotted quad => cases eight
      | @group part group parts groups first later =>
        cases later with
        | none => cases eight
        | _ =>
          rw [join_cons_cons]
          simp
    | compressed first last missing => simp
  · cases misplaced with
    | quad groups quad missing => simp

theorem parseIpv4_eq_none (read : parseIpv6 address = some groups) : parseIpv4 address = none := by
  cases parsed : parseIpv4 address with
  | none => rfl
  | some ipv4 =>
    obtain ⟨octets, form, _⟩ := parseIpv4_eq_some_iff.mp parsed
    exact absurd (colon_of_parseIpv6 read) form.isPart.plain

theorem parseAddress_v4 (form : IsIpv4 address octets) :
    parseAddress hosts.urlHostname address =
      .ok (some ⟨address, isPublicIpv4Value (numeral 256 octets)⟩) := by
  have read := parseIpv4_eq_some_iff.mpr ⟨octets, form, rfl⟩
  rw [parseAddress, read]

theorem parseAddress_v6 (form : IsIpv6 address groups) :
    ∃ shown, IsIpv6 shown groups ∧ parseAddress hosts.urlHostname address =
      .ok (some ⟨shown, isPublicIpv6 groups⟩) := by
  have read := parseIpv6_eq_some_iff.mpr (.inl form)
  obtain ⟨shown, hostname, same⟩ := hosts.shows address groups form
  have inside : sliceInside ([0x5B] ++ shown ++ [0x5D]) = shown := by
    simp [sliceInside]
  refine ⟨shown, same, ?_⟩
  rw [parseAddress, parseIpv4_eq_none read, read]
  dsimp only
  rw [hostname]
  dsimp only
  rw [inside]

theorem parseAddress_misplaced (misplaced : IsMisplaced address groups) :
    parseAddress hosts.urlHostname address = .error .typeError := by
  have read := parseIpv6_eq_some_iff.mpr (.inr misplaced)
  have hostname := hosts.refuses address (permitted_of_parseIpv6 read).2
    fun _ => misplaced.not_form
  rw [parseAddress, parseIpv4_eq_none read, read]
  dsimp only
  rw [hostname]

theorem parseAddress_none (noForm : ∀ ip, ¬ Denotes address ip)
    (notMisplaced : ∀ groups, ¬ IsMisplaced address groups) :
    parseAddress hosts.urlHostname address = .ok none := by
  have noIpv4 : parseIpv4 address = none := by
    cases parsed : parseIpv4 address with
    | none => rfl
    | some ipv4 =>
      obtain ⟨octets, form, _⟩ := parseIpv4_eq_some_iff.mp parsed
      exact absurd (.v4 form) (noForm _)
  have noIpv6 : parseIpv6 address = none := by
    cases read : parseIpv6 address with
    | none => rfl
    | some groups =>
      rcases parseIpv6_eq_some_iff.mp read with form | misplaced
      · exact absurd (.v6 form) (noForm _)
      · exact absurd misplaced (notMisplaced groups)
  rw [parseAddress, noIpv4, noIpv6]

theorem authorizeResolvedAddress_of_parsed (deny : authority.privateNetwork = .deny)
    (read : parseAddress hosts.urlHostname address = .ok (some parsed)) :
    authorizeResolvedAddress hosts.urlHostname authority address =
      if parsed.isPublic then .ok parsed.normalized else .error (.network .invalidUrl) := by
  unfold authorizeResolvedAddress
  rw [read]
  cases isPublic : parsed.isPublic <;> simp [bind, Except.bind, deny, isPublic]

theorem not_isIpv6_of_isIpv4 (ipv4 : IsIpv4 address octets) : ¬ IsIpv6 address groups :=
  fun form => ipv4.isPart.plain (colon_of_parseIpv6 (parseIpv6_eq_some_iff.mpr (.inl form)))

theorem followsForms_of_parsed (deny : authority.privateNetwork = .deny)
    (read : parseAddress hosts.urlHostname address = .ok (some parsed)) {ip : IpAddress}
    (denotes : Denotes address ip) (isPublic : parsed.isPublic = true ↔ ip.IsPublic)
    (unique : ∀ other, Denotes address other → other = ip) (shows : Denotes parsed.normalized ip) :
    FollowsForms (authorizeResolvedAddress hosts.urlHostname authority address) address := by
  rw [authorizeResolvedAddress_of_parsed hosts deny read]
  have agree : (∃ other, Denotes address other ∧ other.IsPublic) ↔ parsed.isPublic = true := by
    rw [isPublic]
    constructor
    · rintro ⟨other, isOther, otherPublic⟩
      exact unique other isOther ▸ otherPublic
    · intro ipPublic
      exact ⟨ip, denotes, ipPublic⟩
  refine ⟨?_, ?_, ?_⟩
  · rw [agree]
    cases parsed.isPublic <;> simp
  · intro shown result other isOther
    rw [unique other isOther]
    cases value : parsed.isPublic with
    | true =>
      rw [value, if_pos rfl] at result
      cases result
      exact shows
    | false =>
      rw [value] at result
      cases result
  · rw [agree]
    intro refused
    rw [if_neg refused]

theorem not_followsForms_of_misplaced (misplaced : IsMisplaced address groups) :
    ¬ FollowsForms (authorizeResolvedAddress hosts.urlHostname authority address) address := by
  intro follows
  have result : authorizeResolvedAddress hosts.urlHostname authority address =
      .error .typeError := by
    unfold authorizeResolvedAddress
    rw [parseAddress_misplaced hosts misplaced]
    rfl
  have noForm : ¬ ∃ ip, Denotes address ip ∧ ip.IsPublic := by
    rintro ⟨ip, denotes, _⟩
    have read := parseIpv6_eq_some_iff.mpr (.inr misplaced)
    cases denotes with
    | v4 form => exact form.isPart.plain (colon_of_parseIpv6 read)
    | v6 form => exact misplaced.not_form form
  have thrown := follows.throws noForm
  rw [result] at thrown
  cases thrown

/-- With private networks denied the authorization follows the text forms exactly when no dotted
address stands in front of two colons that end the text. -/
theorem authorizeResolvedAddress_follows_iff (deny : authority.privateNetwork = .deny) :
    FollowsForms (authorizeResolvedAddress hosts.urlHostname authority address) address ↔
      ∀ groups, ¬ IsMisplaced address groups := by
  constructor
  · intro follows groups misplaced
    exact not_followsForms_of_misplaced hosts misplaced follows
  · intro notMisplaced
    by_cases form : ∃ ip, Denotes address ip
    · obtain ⟨ip, denotes⟩ := form
      cases denotes with
      | v4 form =>
        refine followsForms_of_parsed hosts deny (parseAddress_v4 hosts form) (.v4 form)
          (isPublicIpv4Value_iff form.lt) ?_ (.v4 form)
        intro other isOther
        cases isOther with
        | v4 otherForm =>
          have same := (parseIpv4_eq_some_iff.mpr ⟨_, form, rfl⟩).symm.trans
            (parseIpv4_eq_some_iff.mpr ⟨_, otherForm, rfl⟩)
          rw [(ParsedIpv4.mk.inj (Option.some.inj same)).2]
        | v6 otherForm => exact absurd otherForm (not_isIpv6_of_isIpv4 form)
      | v6 form =>
        obtain ⟨shown, shows, read⟩ := parseAddress_v6 hosts form
        refine followsForms_of_parsed hosts deny read (.v6 form) (isPublicIpv6_iff form) ?_
          (.v6 shows)
        intro other isOther
        cases isOther with
        | v4 otherForm => exact absurd form (not_isIpv6_of_isIpv4 otherForm)
        | v6 otherForm =>
          have same := (parseIpv6_eq_some_iff.mpr (.inl form)).symm.trans
            (parseIpv6_eq_some_iff.mpr (.inl otherForm))
          rw [Option.some.inj same]
    · have none := parseAddress_none hosts (fun ip denotes => form ⟨ip, denotes⟩) notMisplaced
      have result : authorizeResolvedAddress hosts.urlHostname authority address =
          .error (.network .invalidUrl) := by
        unfold authorizeResolvedAddress
        rw [none]
        rfl
      rw [result]
      refine ⟨⟨?_, ?_⟩, ?_, fun _ => rfl⟩
      · rintro ⟨shown, ok⟩
        cases ok
      · rintro ⟨ip, denotes, _⟩
        exact absurd ⟨ip, denotes⟩ form
      · intro shown ok
        cases ok

end Authorization

section Serialization

def isZeroRun (groups : List ℕ) (run : ℕ × ℕ) : Bool :=
  (groups.drop run.1).take run.2 == List.replicate run.2 0

/-- The runs of two groups or more, the longest ones first and the first ones among them. -/
def runs : List (ℕ × ℕ) :=
  [8, 7, 6, 5, 4, 3, 2].flatMap fun count => (List.range (9 - count)).map fun start =>
    (start, count)

def serializeIpv6 (groups : List ℕ) : Text :=
  match runs.find? (isZeroRun groups) with
  | none => join 0x3A (groups.map toHex)
  | some run => join 0x3A ((groups.take run.1).map toHex) ++ [0x3A, 0x3A] ++
      join 0x3A ((groups.drop (run.1 + run.2)).map toHex)

def serializedHostname (url : Text) : Option Text :=
  let host := (url.drop 8).dropLast.dropLast
  if (0x2E : UInt16) ∈ host ∧ [0x3A, 0x3A] <:+ host then none
  else (parseIpv6 host).map fun groups => [0x5B] ++ serializeIpv6 groups ++ [0x5D]

variable {groups : List ℕ}

theorem isGroup_toHex {group : ℕ} (small : group < 2 ^ 16) : IsGroup (toHex group) group where
  filled := by
    unfold toHex
    split
    · simp
    · next positive => simpa [Nat.digits_eq_nil_iff_eq_zero] using positive
  few := length_toHex_le (by decide) (by exact small)
  digits := isSome_hexValue_toHex group
  value := (hexNumber_toHex group).symm

theorem forall₂_toHex (small : ∀ group ∈ groups, group < 2 ^ 16) :
    List.Forall₂ IsGroup (groups.map toHex) groups := by
  induction groups with
  | nil => exact .nil
  | cons group groups ih =>
    exact .cons (isGroup_toHex (small group List.mem_cons_self))
      (ih fun other listed => small other (List.mem_cons_of_mem _ listed))

theorem isIpv6_serializeIpv6 (eight : groups.length = 8)
    (small : ∀ group ∈ groups, group < 2 ^ 16) : IsIpv6 (serializeIpv6 groups) groups := by
  unfold serializeIpv6
  cases found : runs.find? (isZeroRun groups) with
  | none =>
    have written := isGroups_of_forall₂ (forall₂_toHex small) .none
    rw [List.append_nil, List.append_nil] at written
    exact .full written eight
  | some run =>
    have bounds : ∀ run ∈ runs, run.1 + run.2 ≤ 8 ∧ 0 < run.2 := by decide
    obtain ⟨inside, positive⟩ := bounds run (List.mem_of_find?_eq_some found)
    have zeros : (groups.drop run.1).take run.2 = List.replicate run.2 0 :=
      beq_iff_eq.mp (List.find?_some (p := isZeroRun groups) found)
    have first := forall₂_toHex fun group listed =>
      small group (List.mem_of_mem_take (i := run.1) listed)
    have last := isGroups_of_forall₂
      (forall₂_toHex fun group listed =>
        small group (List.mem_of_mem_drop (i := run.1 + run.2) listed))
      .none
    rw [List.append_nil, List.append_nil] at last
    have before : (groups.take run.1).length = run.1 := by
      rw [List.length_take]
      omega
    have behind : (groups.drop (run.1 + run.2)).length = 8 - (run.1 + run.2) := by
      rw [List.length_drop, eight]
    have form := IsIpv6.compressed first last (by omega)
    have count : 8 - ((groups.take run.1).length + (groups.drop (run.1 + run.2)).length) =
        run.2 := by omega
    have whole : groups.take run.1 ++ List.replicate run.2 0 ++ groups.drop (run.1 + run.2) =
        groups := by
      rw [← zeros, List.append_assoc, ← List.drop_drop, List.take_append_drop,
        List.take_append_drop]
    rw [count, whole] at form
    exact form

theorem host_addressUrl (text : Text) : ((addressUrl text).drop 8).dropLast.dropLast = text := by
  have begins : addressUrl text = js "http://[" ++ (text ++ [0x5D, 0x2F]) := by
    rw [addressUrl, List.append_assoc]
    rfl
  have length : (js "http://[").length = 8 := by decide
  rw [begins, ← length, List.drop_left]
  have ending : text ++ [0x5D, 0x2F] = text ++ [0x5D] ++ [0x2F] := by simp
  rw [ending, List.dropLast_concat, List.dropLast_concat]

/-- A parser of URLs that normalizes IPv6 addresses. -/
def serializingHosts : HostReader where
  urlHostname := serializedHostname
  shows text groups form := by
    obtain ⟨eight, small⟩ := form.eight
    refine ⟨serializeIpv6 groups, ?_, isIpv6_serializeIpv6 eight small⟩
    unfold serializedHostname
    rw [host_addressUrl]
    dsimp only
    rw [if_neg form.not_ends, parseIpv6_eq_some_iff.mpr (.inl form)]
    rfl
  refuses text _ noForm := by
    unfold serializedHostname
    rw [host_addressUrl]
    dsimp only
    by_cases ends : (0x2E : UInt16) ∈ text ∧ [0x3A, 0x3A] <:+ text
    · rw [if_pos ends]
    · rw [if_neg ends]
      cases read : parseIpv6 text with
      | none => rfl
      | some groups =>
        rcases parseIpv6_eq_some_iff.mp read with form | misplaced
        · exact absurd form (noForm groups)
        · exact absurd misplaced.ends ends

/-- The normal form of an address has the longest run of zeros compressed. -/
example : authorizeResolvedAddress serializedHostname ⟨.deny⟩ (js "2606:4700:0:0::0:0:1111") =
    .ok (js "2606:4700::1111") := by
  decide +kernel

/-- A public address. -/
theorem authorizeResolvedAddress_follows_public :
    FollowsForms (authorizeResolvedAddress serializingHosts.urlHostname ⟨.deny⟩
      (js "2606:4700::1111")) (js "2606:4700::1111") := by
  refine (authorizeResolvedAddress_follows_iff serializingHosts rfl).mpr ?_
  intro groups misplaced
  exact absurd misplaced.ends.1 (by decide +kernel)

/-- The text `2606:8.8.8.8::` is read as an address, and its URL cannot be parsed. -/
theorem not_authorizeResolvedAddress_follows : ¬ ∀ (hosts : HostReader)
    (authority : ResolvedNetworkAuthority) (address : Text), authority.privateNetwork = .deny →
      FollowsForms (authorizeResolvedAddress hosts.urlHostname authority address) address := by
  intro claimed
  have follows := claimed serializingHosts ⟨.deny⟩ (js "2606:8.8.8.8::") rfl
  have misplaced : IsMisplaced (js "2606:8.8.8.8::") [0x2606, 0x0808, 0x0808, 0, 0, 0, 0, 0] := by
    have read : parseIpv6 (js "2606:8.8.8.8::") =
        some [0x2606, 0x0808, 0x0808, 0, 0, 0, 0, 0] := by decide +kernel
    rcases parseIpv6_eq_some_iff.mp read with form | misplaced
    · exact absurd (by decide +kernel) form.not_ends
    · exact misplaced
  exact not_followsForms_of_misplaced serializingHosts misplaced follows

end Serialization

end Holonomy.Network
