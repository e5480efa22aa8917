import Holonomy.Foundation.Machine
import Holonomy.Network.Rules
import Holonomy.Foundation.Fallible
import Holonomy.Network.AddressText

/-!
# The lifetimes of mock rules

The counts of a store are those of the selections since the counts were last forgotten. Therefore no
rule of any revision is selected more often than it may be, until a replacement forgets the counts;
and every request is answered by the first rule of its snapshot that can still serve it.
-/

namespace Holonomy.Network

open Foundation

/-! ## The store of mock rules

The store holds one set of rules and how often the rules of every revision were used.
-/

structure NetworkMockRuleSetSnapshot where
  mode : RuleSetMode
  revision : Text
  rules : List NetworkMockRule

/-- What a request is answered with. -/
structure RuleMatchResult where
  action : JsonValue
  revision : Text
  ruleId : Option Text

/-- The store. -/
structure NetworkMockRuleStore where
  /-- How often each rule of each revision was used. -/
  counts : OrderedMap Text ℕ
  revision : ℕ
  rules : List NetworkMockRule
  mode : RuleSetMode

/-- The store without rules. -/
def NetworkMockRuleStore.new : NetworkMockRuleStore := ⟨.empty, 0, [], .passthrough⟩

def ruleOrder : Precedence NetworkMockRule :=
  ((Precedence.ofLinear ℤ).comap fun rule => - rule.priority).andThen
    ((Precedence.ofLinear ℕ).comap NetworkMockRule.sequence)

/-- The number of counts that the store holds without forgetting them. -/
def maxCounts : ℕ := maxRules * 1024

/-- The key under which the uses of a rule are counted. -/
def matchKey (revision id : Text) : Text := revision ++ 0x3A :: id

def NetworkMockRuleStore.getSnapshot (store : NetworkMockRuleStore) : NetworkMockRuleSetSnapshot :=
  ⟨store.mode, decimalText store.revision, store.rules⟩

def readRuleSet : Option JsonValue → Except RuleError JsonValue
  | none => .error .typeError
  | some .null => .error .typeError
  | some value => .ok value

def readMode : Option JsonValue → Except RuleError RuleSetMode
  | some (.string mode) =>
    if mode = js "passthrough" then .ok .passthrough
    else if mode = js "failClosed" then .ok .failClosed
    else invalid
  | _ => invalid

/-- The rules of a set that were not validated yet. -/
def readRules : Option JsonValue → Except RuleError (List JsonValue)
  | some (.array items) => .ok items
  | _ => invalid

/-- A set of rules that may be put into the store. -/
def admitRuleSet (host : RuleHost) (input : Option JsonValue) :
    Except RuleError (RuleSetMode × List NetworkMockRule) := do
  let value ← readRuleSet input
  let mode ← readMode (memberOf value (js "mode"))
  let items ← readRules (memberOf value (js "rules"))
  invalidWhen (maxRules < items.length)
  invalidWhen (maxRuleSetBytes < utf8ByteLength (value.stringify host.numbers))
  let validated ← validateRules host 0 [] items
  pure (mode, ruleOrder.sort validated)

def NetworkMockRuleStore.replace (host : RuleHost) (input : Option JsonValue)
    (expectedRevision : Option Text) (store : NetworkMockRuleStore) :
    Except RuleError NetworkMockRuleSetSnapshot × NetworkMockRuleStore :=
  if expectedRevision.any (fun expected => expected ≠ decimalText store.revision) then
    (.error .revisionConflict, store)
  else match admitRuleSet host input with
    | .error error => (.error error, store)
    | .ok (mode, rules) =>
      let store := { store with rules, mode, revision := store.revision + 1 }
      let store := if maxCounts < store.counts.size then { store with counts := .empty } else store
      (.ok store.getSnapshot, store)

def defaultAction : RuleSetMode → JsonValue
  | .passthrough => .object [(js "type", .string (js "passthrough"))]
  | .failClosed => .object [(js "code", .string (js "unavailable")),
      (js "type", .string (js "fail"))]

def NetworkMockRuleStore.matchRules (host : RuleHost) (request : NetworkMockRequest) (now : ℤ)
    (snapshot : NetworkMockRuleSetSnapshot) (store : NetworkMockRuleStore) :
    List NetworkMockRule → Except RuleError RuleMatchResult × NetworkMockRuleStore
  | [] => (.ok ⟨defaultAction snapshot.mode, snapshot.revision, none⟩, store)
  | rule :: rest =>
    let key := matchKey snapshot.revision rule.id
    let count := (store.counts.get? key).getD 0
    if rule.lifetime.maxMatches.any (fun most => most ≤ count) then
      store.matchRules host request now snapshot rest
    else match ruleMatches host rule request now with
      | .error error => (.error error, store)
      | .ok false => store.matchRules host request now snapshot rest
      | .ok true => (.ok ⟨rule.action, snapshot.revision, some rule.id⟩,
          { store with counts := store.counts.set key (count + 1) })

def NetworkMockRuleStore.match (host : RuleHost) (request : NetworkMockRequest) (now : ℤ)
    (snapshot : NetworkMockRuleSetSnapshot) (store : NetworkMockRuleStore) :
    Except RuleError RuleMatchResult × NetworkMockRuleStore :=
  store.matchRules host request now snapshot snapshot.rules

/-- What happens to a store. -/
inductive RuleStoreEvent where
  | replace (input : Option JsonValue) (expectedRevision : Option Text)
  | request (request : NetworkMockRequest) (now : ℤ) (snapshot : Option ℕ)

/-- A store with its past. -/
structure RuleStoreState where
  store : NetworkMockRuleStore
  issued : List NetworkMockRuleSetSnapshot
  /-- The revisions and names of the rules that were selected. -/
  selections : List (Text × Text)
  /-- Those that were selected since the counts were forgotten. -/
  recent : List (Text × Text)

def NetworkMockRuleStore.forgets (store : NetworkMockRuleStore) : Bool :=
  maxCounts < store.counts.size

def RuleMatchResult.selected (result : RuleMatchResult) : List (Text × Text) :=
  result.ruleId.toList.map fun id => (result.revision, id)

def RuleStoreState.answered (host : RuleHost) (state : RuleStoreState)
    (request : NetworkMockRequest) (now : ℤ) (snapshot : NetworkMockRuleSetSnapshot) :
    RuleStoreState :=
  match state.store.match host request now snapshot with
  | (.error _, store) => { state with store }
  | (.ok result, store) => { state with
      store
      selections := state.selections ++ result.selected
      recent := state.recent ++ result.selected }

def RuleStoreState.replaced (host : RuleHost) (state : RuleStoreState) (input : Option JsonValue)
    (expectedRevision : Option Text) : RuleStoreState :=
  match state.store.replace host input expectedRevision with
  | (.error _, store) => { state with store }
  | (.ok snapshot, store) => { state with
      store
      issued := state.issued ++ [snapshot]
      recent := if state.store.forgets then [] else state.recent }

/-- A store whose calls happen one after another. -/
def ruleStoreMachine (host : RuleHost) : Machine RuleStoreState RuleStoreEvent where
  start := ⟨.new, [NetworkMockRuleStore.new.getSnapshot], [], []⟩
  step state
    | .replace input expectedRevision => some (state.replaced host input expectedRevision)
    | .request request now none =>
      some (state.answered host request now state.store.getSnapshot)
    | .request request now (some index) =>
      state.issued[index]?.map (state.answered host request now)

structure CanServe (host : RuleHost) (recent : List (Text × Text))
    (snapshot : NetworkMockRuleSetSnapshot) (request : NetworkMockRequest) (now : ℤ)
    (rule : NetworkMockRule) : Prop where
  alive : isExpired host rule now = false
  unused : ∀ most, rule.lifetime.maxMatches = some most →
    recent.count (snapshot.revision, rule.id) < most
  fits : requestMatches host rule.matching request = .ok true

inductive IsFirst (host : RuleHost) (recent : List (Text × Text))
    (snapshot : NetworkMockRuleSetSnapshot) (request : NetworkMockRequest) (now : ℤ) :
    RuleMatchResult → Prop where
  | rule {before behind : List NetworkMockRule} {rule : NetworkMockRule}
      (among : snapshot.rules = before ++ rule :: behind)
      (serves : CanServe host recent snapshot request now rule)
      (first : ∀ earlier ∈ before, ¬ CanServe host recent snapshot request now earlier) :
      IsFirst host recent snapshot request now ⟨rule.action, snapshot.revision, some rule.id⟩
  | default (none : ∀ rule ∈ snapshot.rules, ¬ CanServe host recent snapshot request now rule) :
      IsFirst host recent snapshot request now
        ⟨defaultAction snapshot.mode, snapshot.revision, .none⟩

def Precedes (first second : NetworkMockRule) : Prop :=
  second.priority < first.priority ∨
    (first.priority = second.priority ∧ first.sequence < second.sequence)

structure ExactLifetimes (host : RuleHost) (state : RuleStoreState) : Prop where
  atMost : ∀ snapshot ∈ state.issued, ∀ rule ∈ snapshot.rules, ∀ most,
    rule.lifetime.maxMatches = some most →
      state.recent.count (snapshot.revision, rule.id) ≤ most
  ordered : ∀ snapshot ∈ state.issued, snapshot.rules.Pairwise Precedes
  first : ∀ snapshot ∈ state.issued, ∀ request now result,
    (state.store.match host request now snapshot).1 = .ok result →
      IsFirst host state.recent snapshot request now result
  accepted : ∀ input expectedRevision snapshot,
    (state.store.replace host input expectedRevision).1 = .ok snapshot →
      (state.store.replace host input expectedRevision).2.revision = state.store.revision + 1
  refused : ∀ input expectedRevision error,
    (state.store.replace host input expectedRevision).1 = .error error →
      (state.store.replace host input expectedRevision).2 = state.store

section Keys

theorem decimalNumber_decimalText (number : ℕ) : decimalNumber (decimalText number) = number := by
  by_cases zero : number = 0
  · rw [zero]
    rfl
  · have back : ∀ digit ∈ (Nat.digits 10 number).reverse,
        (UInt16.ofNat (0x30 + digit)).toNat - 0x30 = digit := by
      intro digit listed
      have small : digit < 10 := Nat.digits_lt_base (by decide) (List.mem_reverse.mp listed)
      have value : (UInt16.ofNat (0x30 + digit)).toNat = 0x30 + digit :=
        UInt16.toNat_ofNat_of_lt (by change 0x30 + digit < 65536; omega)
      omega
    have digits : ((Nat.digits 10 number).reverse.map fun digit =>
        UInt16.ofNat (0x30 + digit)).map (fun digit => digit.toNat - 0x30) =
          (Nat.digits 10 number).reverse := by
      rw [List.map_map]
      exact (List.map_congr_left back).trans (List.map_id _)
    rw [decimalNumber_eq, decimalText, if_neg zero, digits, numeral, List.reverse_reverse,
      Nat.ofDigits_digits]

theorem decimalText_injective : Function.Injective decimalText := by
  intro left right same
  rw [← decimalNumber_decimalText left, ← decimalNumber_decimalText right, same]

theorem not_mem_decimalText_colon (number : ℕ) : (0x3A : UInt16) ∉ decimalText number := by
  unfold decimalText
  split
  · decide
  · intro listed
    obtain ⟨digit, among, same⟩ := List.mem_map.mp listed
    have small : digit < 10 := Nat.digits_lt_base (by decide) (List.mem_reverse.mp among)
    have value : (UInt16.ofNat (0x30 + digit)).toNat = 0x30 + digit :=
      UInt16.toNat_ofNat_of_lt (by change 0x30 + digit < 65536; omega)
    rw [same] at value
    have colon : (0x3A : UInt16).toNat = 58 := rfl
    omega

theorem append_colon_inj {left right leftRest rightRest : Text} (leftPlain : (0x3A : UInt16) ∉ left)
    (rightPlain : (0x3A : UInt16) ∉ right) (same : left ++ 0x3A :: leftRest = right ++ 0x3A ::
    rightRest) :
    left = right ∧ leftRest = rightRest := by
  induction left generalizing right with
  | nil =>
    cases right with
    | nil => exact ⟨rfl, (List.cons.inj same).2⟩
    | cons unit right =>
      have head := (List.cons.inj same).1
      rw [← head] at rightPlain
      exact absurd List.mem_cons_self rightPlain
  | cons unit left ih =>
    cases right with
    | nil =>
      have head := (List.cons.inj same).1
      rw [head] at leftPlain
      exact absurd List.mem_cons_self leftPlain
    | cons other right =>
      obtain ⟨head, tail⟩ := List.cons.inj same
      have rest := ih (fun listed => leftPlain (List.mem_cons_of_mem _ listed))
        (fun listed => rightPlain (List.mem_cons_of_mem _ listed)) tail
      exact ⟨by rw [head, rest.1], rest.2⟩

theorem matchKey_inj {left right : ℕ} {leftId rightId : Text} :
    matchKey (decimalText left) leftId = matchKey (decimalText right) rightId ↔
      (decimalText left, leftId) = (decimalText right, rightId) := by
  constructor
  · intro same
    obtain ⟨revision, id⟩ := append_colon_inj (not_mem_decimalText_colon left)
      (not_mem_decimalText_colon right) same
    rw [revision, id]
  · intro same
    rw [(Prod.mk.inj same).1, (Prod.mk.inj same).2]

end Keys

section Admission

variable {host : RuleHost}

variable {sequence : ℕ} {rules : List NetworkMockRule}

theorem sequence_of_validateRule {input : JsonValue} {rule : NetworkMockRule}
    (validated : validateRule host input sequence = .ok rule) : rule.sequence = sequence := by
  unfold validateRule at validated
  obtain ⟨id, _, validated⟩ := found_of_bind validated
  obtain ⟨priority, _, validated⟩ := found_of_bind validated
  obtain ⟨matching, _, validated⟩ := found_of_bind validated
  obtain ⟨action, _, validated⟩ := found_of_bind validated
  obtain ⟨maxMatches, _, validated⟩ := found_of_bind validated
  obtain ⟨expiresAt, _, validated⟩ := found_of_bind validated
  cases validated
  rfl

theorem not_of_invalidWhen {condition : Prop} [Decidable condition] {result : Unit}
    (passed : invalidWhen condition = .ok result) : ¬ condition := by
  intro met
  unfold invalidWhen at passed
  rw [if_pos met] at passed
  cases passed

theorem validateRules_spec {ids : List Text} {inputs : List JsonValue}
    (validated : validateRules host sequence ids inputs = .ok rules) :
    rules.map NetworkMockRule.sequence = List.range' sequence rules.length ∧
      (rules.map NetworkMockRule.id).Nodup ∧
      ∀ rule ∈ rules, rule.id ∉ ids := by
  induction inputs generalizing sequence ids rules with
  | nil =>
    cases validated
    simp
  | cons input inputs ih =>
    unfold validateRules at validated
    obtain ⟨rule, isRule, validated⟩ := found_of_bind validated
    obtain ⟨_, fresh, validated⟩ := found_of_bind validated
    obtain ⟨later, isLater, validated⟩ := found_of_bind validated
    cases validated
    obtain ⟨places, distinct, others⟩ := ih isLater
    have isFresh : rule.id ∉ ids := not_of_invalidWhen fresh
    refine ⟨?_, ?_, ?_⟩
    · rw [List.map_cons, List.length_cons, List.range'_succ, places,
        sequence_of_validateRule isRule]
    · rw [List.map_cons, List.nodup_cons]
      refine ⟨?_, distinct⟩
      intro listed
      obtain ⟨other, among, same⟩ := List.mem_map.mp listed
      exact others other among (same ▸ List.mem_cons_self)
    · intro other listed
      rcases List.mem_cons.mp listed with same | among
      · rw [same]
        exact isFresh
      · exact fun inside => others other among (List.mem_cons_of_mem _ inside)

theorem admitRuleSet_spec {input : Option JsonValue} {mode : RuleSetMode}
    (admitted : admitRuleSet host input = .ok (mode, rules)) :
    rules.Pairwise Precedes ∧ (rules.map NetworkMockRule.id).Nodup := by
  unfold admitRuleSet at admitted
  obtain ⟨value, _, admitted⟩ := found_of_bind admitted
  obtain ⟨_, _, admitted⟩ := found_of_bind admitted
  obtain ⟨items, _, admitted⟩ := found_of_bind admitted
  obtain ⟨_, _, admitted⟩ := found_of_bind admitted
  obtain ⟨_, _, admitted⟩ := found_of_bind admitted
  obtain ⟨validated, isValidated, admitted⟩ := found_of_bind admitted
  cases admitted
  obtain ⟨places, distinct, _⟩ := validateRules_spec isValidated
  have perm := ruleOrder.sort_perm validated
  have distinctPlaces : ((ruleOrder.sort validated).map NetworkMockRule.sequence).Nodup := by
    rw [(perm.map NetworkMockRule.sequence).nodup_iff, places]
    exact List.nodup_range'
  have sorted := ruleOrder.sort_sorted validated
  refine ⟨?_, (perm.map NetworkMockRule.id).nodup_iff.mpr distinct⟩
  have apart := List.pairwise_map.mp distinctPlaces
  refine (sorted.and apart).imp ?_
  rintro first second ⟨⟨byPriority, byPlace⟩, different⟩
  have priority : - first.priority ≤ - second.priority := byPriority
  unfold Precedes
  by_cases same : first.priority = second.priority
  · have place : first.sequence ≤ second.sequence := by
      apply byPlace
      change - second.priority ≤ - first.priority
      omega
    exact .inr ⟨same, by omega⟩
  · exact .inl (by omega)

end Admission

section Matching

variable {host : RuleHost} {store : NetworkMockRuleStore} {snapshot : NetworkMockRuleSetSnapshot}
  {request : NetworkMockRequest} {now : ℤ}

def NetworkMockRuleStore.used (store : NetworkMockRuleStore) (snapshot : NetworkMockRuleSetSnapshot)
    (rule : NetworkMockRule) : ℕ :=
  (store.counts.get? (matchKey snapshot.revision rule.id)).getD 0

structure Serves (host : RuleHost) (store : NetworkMockRuleStore)
    (snapshot : NetworkMockRuleSetSnapshot) (request : NetworkMockRequest) (now : ℤ)
    (rule : NetworkMockRule) : Prop where
  unused : ∀ most, rule.lifetime.maxMatches = some most → store.used snapshot rule < most
  fits : ruleMatches host rule request now = .ok true

/-- What trying rules can come to. -/
inductive Tried (host : RuleHost) (store : NetworkMockRuleStore)
    (snapshot : NetworkMockRuleSetSnapshot) (request : NetworkMockRequest) (now : ℤ)
    (rules : List NetworkMockRule) : Except RuleError RuleMatchResult ×
    NetworkMockRuleStore → Prop where
  | threw (error : RuleError) : Tried host store snapshot request now rules (.error error, store)
  | default (none : ∀ rule ∈ rules, ¬ Serves host store snapshot request now rule) :
    Tried host store snapshot request now rules
      (.ok ⟨defaultAction snapshot.mode, snapshot.revision, .none⟩, store)
  | rule {before behind : List NetworkMockRule} {rule : NetworkMockRule}
    (among : rules = before ++ rule :: behind)
      (serves : Serves host store snapshot request now rule)
    (first : ∀ earlier ∈ before, ¬ Serves host store snapshot request now earlier) :
    Tried host store snapshot request now rules
      (.ok ⟨rule.action, snapshot.revision, some rule.id⟩, { store with
        counts := store.counts.set (matchKey snapshot.revision rule.id)
          (store.used snapshot rule + 1) })

theorem Tried.cons {rule : NetworkMockRule} {rules : List NetworkMockRule}
    {result : Except RuleError RuleMatchResult × NetworkMockRuleStore}
    (tried : Tried host store snapshot request now rules result)
    (cannot : ¬ Serves host store snapshot request now rule) :
    Tried host store snapshot request now (rule :: rules) result := by
  have extended {others : List NetworkMockRule}
      (none : ∀ other ∈ others, ¬ Serves host store snapshot request now other) :
      ∀ other ∈ rule :: others, ¬ Serves host store snapshot request now other := by
    intro other listed
    rcases List.mem_cons.mp listed with rfl | among
    · exact cannot
    · exact none other among
  cases tried with
  | threw error => exact .threw error
  | default none => exact .default (extended none)
  | rule among serves first => exact .rule (by rw [among]; rfl) serves (extended first)

theorem matchRules_tried (rules : List NetworkMockRule) :
    Tried host store snapshot request now rules
      (store.matchRules host request now snapshot rules) := by
  induction rules with
  | nil => exact .default (by simp)
  | cons rule rules ih =>
    rw [NetworkMockRuleStore.matchRules]
    change Tried host store snapshot request now (rule :: rules) (ite
      (rule.lifetime.maxMatches.any (fun most => most ≤ store.used snapshot rule) = true) _ _)
    by_cases exhausted :
        rule.lifetime.maxMatches.any (fun most => most ≤ store.used snapshot rule) = true
    · rw [if_pos exhausted]
      apply ih.cons
      intro serves
      obtain ⟨most, isMost, reached⟩ := (Option.any_eq_true _ _).mp exhausted
      have below := serves.unused most isMost
      have above : most ≤ store.used snapshot rule := of_decide_eq_true reached
      omega
    · rw [if_neg exhausted]
      cases fits : ruleMatches host rule request now with
      | error error => exact .threw error
      | ok matched =>
        cases matched with
        | false =>
          apply ih.cons
          intro serves
          rw [serves.fits] at fits
          cases fits
        | true =>
          have inFront : rule :: rules = [] ++ rule :: rules := rfl
          refine .rule inFront ⟨?_, fits⟩ (by simp)
          intro most isMost
          by_contra reached
          exact exhausted ((Option.any_eq_true _ _).mpr ⟨most, isMost, decide_eq_true (by omega)⟩)

end Matching

section Runs

variable {host : RuleHost} {state : RuleStoreState}

structure Counted (state : RuleStoreState) : Prop where
  length : state.issued.length = state.store.revision + 1
  revisions : ∀ (index : ℕ) snapshot, state.issued[index]? = some snapshot →
    snapshot.revision = decimalText index
  current : state.issued[state.store.revision]? = some state.store.getSnapshot
  ordered : ∀ snapshot ∈ state.issued, snapshot.rules.Pairwise Precedes
  named : ∀ snapshot ∈ state.issued, (snapshot.rules.map NetworkMockRule.id).Nodup
  counted : ∀ index id, (state.store.counts.get? (matchKey (decimalText index) id)).getD 0 =
    state.recent.count (decimalText index, id)
  known : ∀ entry ∈ state.recent, ∃ index < state.issued.length, entry.1 = decimalText index
  atMost : ∀ snapshot ∈ state.issued, ∀ rule ∈ snapshot.rules, ∀ most,
    rule.lifetime.maxMatches = some most → state.recent.count (snapshot.revision, rule.id) ≤ most

theorem counted_start : Counted (ruleStoreMachine host).start where
  length := rfl
  revisions index snapshot found := by
    cases index with
    | zero =>
      cases found
      rfl
    | succ index => cases found
  current := rfl
  ordered snapshot listed := by
    rw [List.mem_singleton.mp listed]
    exact .nil
  named snapshot listed := by
    rw [List.mem_singleton.mp listed]
    exact .nil
  counted index id := by rfl
  known entry listed := by cases listed
  atMost snapshot listed rule among := by
    rw [List.mem_singleton.mp listed] at among
    cases among

namespace Counted

variable (counted : Counted state)
include counted

variable {snapshot : NetworkMockRuleSetSnapshot} {request : NetworkMockRequest} {now : ℤ}

theorem revision_of_mem (listed : snapshot ∈ state.issued) :
    ∃ index < state.issued.length, snapshot.revision = decimalText index ∧
      state.issued[index]? = some snapshot := by
  obtain ⟨index, found⟩ := List.getElem?_of_mem listed
  obtain ⟨inside, _⟩ := List.getElem?_eq_some_iff.mp found
  exact ⟨index, inside, counted.revisions index snapshot found, found⟩

theorem snapshot_unique {left right : NetworkMockRuleSetSnapshot} (leftIn : left ∈ state.issued)
    (rightIn : right ∈ state.issued) (same : left.revision = right.revision) : left = right := by
  obtain ⟨first, _, isFirst, foundFirst⟩ := counted.revision_of_mem leftIn
  obtain ⟨second, _, isSecond, foundSecond⟩ := counted.revision_of_mem rightIn
  have places : first = second := by
    apply decimalText_injective
    rw [← isFirst, ← isSecond, same]
  rw [places] at foundFirst
  exact Option.some.inj (foundFirst.symm.trans foundSecond)

section

variable (listed : snapshot ∈ state.issued)

include listed

theorem rule_unique {left right : NetworkMockRule}
    (leftIn : left ∈ snapshot.rules) (rightIn : right ∈ snapshot.rules)
    (same : left.id = right.id) : left = right :=
  List.inj_on_of_nodup_map (counted.named snapshot listed) leftIn rightIn same

theorem used_eq (rule : NetworkMockRule) :
    state.store.used snapshot rule = state.recent.count (snapshot.revision, rule.id) := by
  obtain ⟨index, _, isIndex, _⟩ := counted.revision_of_mem listed
  rw [NetworkMockRuleStore.used, isIndex]
  exact counted.counted index rule.id

theorem serves_iff {rule : NetworkMockRule} : Serves host state.store snapshot request now rule ↔
      CanServe host state.recent snapshot request now rule := by
  have used := counted.used_eq listed rule
  constructor
  · rintro ⟨unused, fits⟩
    unfold ruleMatches at fits
    by_cases expired : isExpired host rule now = true
    · rw [if_pos expired] at fits
      cases fits
    · rw [if_neg expired] at fits
      exact ⟨by simpa using expired, fun most isMost => used ▸ unused most isMost, fits⟩
  · rintro ⟨alive, unused, fits⟩
    refine ⟨fun most isMost => used ▸ unused most isMost, ?_⟩
    unfold ruleMatches
    rw [alive]
    exact fits

theorem isFirst {result : RuleMatchResult}
    (answers : (state.store.match host request now snapshot).1 = .ok result) :
    IsFirst host state.recent snapshot request now result := by
  have tried : Tried host state.store snapshot request now snapshot.rules
      (state.store.matchRules host request now snapshot snapshot.rules) := matchRules_tried _
  unfold NetworkMockRuleStore.match at answers
  generalize state.store.matchRules host request now snapshot snapshot.rules = outcome
    at tried answers
  cases tried with
  | threw error => cases answers
  | default none =>
    cases answers
    exact .default fun rule among => (counted.serves_iff listed).not.mp (none rule among)
  | rule among serves first =>
    cases answers
    exact .rule among ((counted.serves_iff listed).mp serves)
      fun earlier inFront => (counted.serves_iff listed).not.mp (first earlier inFront)

theorem answered (request : NetworkMockRequest) (now : ℤ) :
    Counted (state.answered host request now snapshot) := by
  have tried : Tried host state.store snapshot request now snapshot.rules
      (state.store.matchRules host request now snapshot snapshot.rules) := matchRules_tried _
  unfold RuleStoreState.answered NetworkMockRuleStore.match
  generalize state.store.matchRules host request now snapshot snapshot.rules = outcome at tried
  cases tried with
  | threw error => exact counted
  | default none =>
    have unchanged : state.recent ++ ([] : List (Text × Text)) = state.recent := List.append_nil _
    exact { counted with
      counted := by
        intro index id
        change _ = (state.recent ++ []).count _
        rw [unchanged]
        exact counted.counted index id
      known := by
        intro entry among
        change entry ∈ state.recent ++ [] at among
        rw [unchanged] at among
        exact counted.known entry among
      atMost := by
        intro other otherIn rule among most isMost
        change (state.recent ++ []).count _ ≤ _
        rw [unchanged]
        exact counted.atMost other otherIn rule among most isMost }
  | @rule before behind rule among serves first =>
    obtain ⟨place, inside, isPlace, found⟩ := counted.revision_of_mem listed
    have isRule : rule ∈ snapshot.rules := by
      rw [among]
      simp
    exact { counted with
      counted := by
        intro index id
        change ((state.store.counts.set (matchKey snapshot.revision rule.id)
          (state.store.used snapshot rule + 1)).get? (matchKey (decimalText index) id)).getD 0 =
            (state.recent ++ [(snapshot.revision, rule.id)]).count (decimalText index, id)
        rw [OrderedMap.get?_set, List.count_append, List.count_singleton, isPlace]
        by_cases same : matchKey (decimalText index) id = matchKey (decimalText place) rule.id
        · have entries := matchKey_inj.mp same
          rw [if_pos same, counted.used_eq listed rule, isPlace, ← entries]
          simp
        · have entries : (decimalText place, rule.id) ≠ (decimalText index, id) :=
            fun equal => same (matchKey_inj.mpr equal.symm)
          rw [if_neg same, counted.counted index id]
          simp [entries]
      known := by
        intro entry inPast
        rcases List.mem_append.mp inPast with earlier | now
        · exact counted.known entry earlier
        · have isNow : entry = (snapshot.revision, rule.id) := List.mem_singleton.mp now
          exact ⟨place, inside, by rw [isNow]; exact isPlace⟩
      atMost := by
        intro other otherIn otherRule otherAmong most isMost
        change (state.recent ++ [(snapshot.revision, rule.id)]).count _ ≤ _
        have before := counted.atMost other otherIn otherRule otherAmong most isMost
        rw [List.count_append, List.count_singleton]
        by_cases same : (snapshot.revision, rule.id) = (other.revision, otherRule.id)
        · obtain ⟨revision, id⟩ := Prod.mk.inj same
          have sameSnapshot := counted.snapshot_unique listed otherIn revision
          rw [← sameSnapshot] at otherAmong
          have sameRule := counted.rule_unique listed isRule otherAmong id
          have unused := serves.unused most (by rw [sameRule]; exact isMost)
          rw [counted.used_eq listed rule] at unused
          rw [← same]
          simp only [beq_self_eq_true, if_true]
          omega
        · simp only [beq_iff_eq, same, if_false]
          omega }

end

end Counted

/-- What a replacement comes to. -/
inductive Replaced (host : RuleHost) (store : NetworkMockRuleStore) :
    Except RuleError NetworkMockRuleSetSnapshot × NetworkMockRuleStore → Prop where
  | refused (error : RuleError) : Replaced host store (.error error, store)
  | accepted {rules : List NetworkMockRule} (mode : RuleSetMode)
    (ordered : rules.Pairwise Precedes) (named : (rules.map NetworkMockRule.id).Nodup) :
    Replaced host store (.ok ⟨mode, decimalText (store.revision + 1), rules⟩,
      ⟨if store.forgets then .empty else store.counts, store.revision + 1, rules, mode⟩)

theorem replace_replaced {store : NetworkMockRuleStore} (input : Option JsonValue)
    (expectedRevision : Option Text) :
    Replaced host store (store.replace host input expectedRevision) := by
  unfold NetworkMockRuleStore.replace
  by_cases conflict :
      expectedRevision.any (fun expected => expected ≠ decimalText store.revision) = true
  · rw [if_pos conflict]
    exact .refused _
  · rw [if_neg conflict]
    cases admitted : admitRuleSet host input with
    | error error => exact .refused error
    | ok ruleSet =>
      obtain ⟨mode, rules⟩ := ruleSet
      obtain ⟨ordered, named⟩ := admitRuleSet_spec admitted
      have accepted : Replaced host store _ := .accepted mode ordered named
      dsimp only
      by_cases many : maxCounts < store.counts.size
      · have forgets : store.forgets = true := decide_eq_true many
        rw [forgets] at accepted
        rw [if_pos many]
        exact accepted
      · have forgets : store.forgets = false := decide_eq_false many
        rw [forgets] at accepted
        rw [if_neg many]
        exact accepted

theorem Counted.replaced (counted : Counted state) (input : Option JsonValue)
    (expectedRevision : Option Text) : Counted (state.replaced host input expectedRevision) := by
  have replaced : Replaced host state.store _ := replace_replaced input expectedRevision
  unfold RuleStoreState.replaced
  generalize state.store.replace host input expectedRevision = outcome at replaced
  cases replaced with
  | refused error => exact counted
  | @accepted rules mode ordered named =>
    have last : (state.issued ++ [(⟨mode, decimalText (state.store.revision + 1), rules⟩ :
        NetworkMockRuleSetSnapshot)])[state.store.revision + 1]? =
          some ⟨mode, decimalText (state.store.revision + 1), rules⟩ := by
      rw [← counted.length]
      simp
    have recentOnly : ∀ entry ∈ (if state.store.forgets then [] else state.recent),
        entry ∈ state.recent := by
      intro entry listed
      cases forgets : state.store.forgets with
      | true =>
        rw [forgets] at listed
        cases listed
      | false =>
        rw [forgets] at listed
        exact listed
    have fewer (entry : Text × Text) :
        (if state.store.forgets then [] else state.recent).count entry ≤ state.recent.count
          entry := by
      cases state.store.forgets <;> simp
    have new (id : Text) : state.recent.count (decimalText (state.store.revision + 1), id) = 0 := by
      rw [List.count_eq_zero]
      intro listed
      obtain ⟨index, inside, same⟩ := counted.known _ listed
      have sameText : decimalText (state.store.revision + 1) = decimalText index := same
      have isIndex := decimalText_injective sameText
      have length := counted.length
      omega
    have members {snapshot : NetworkMockRuleSetSnapshot} (listed : snapshot ∈ state.issued ++
        [(⟨mode, decimalText (state.store.revision + 1), rules⟩ : NetworkMockRuleSetSnapshot)]) :
        snapshot ∈ state.issued ∨
          snapshot = ⟨mode, decimalText (state.store.revision + 1), rules⟩ := by
      rcases List.mem_append.mp listed with earlier | now
      · exact .inl earlier
      · exact .inr (List.mem_singleton.mp now)
    constructor
    · have length := counted.length
      simp only [List.length_append, List.length_singleton]
      omega
    · intro index snapshot found
      by_cases inside : index < state.issued.length
      · rw [List.getElem?_append_left inside] at found
        exact counted.revisions index snapshot found
      · obtain ⟨within, _⟩ := List.getElem?_eq_some_iff.mp found
        have length := counted.length
        have isLast : index = state.store.revision + 1 := by
          simp only [List.length_append, List.length_singleton] at within
          omega
        rw [isLast, last] at found
        cases found
        rw [isLast]
    · exact last
    · intro snapshot listed
      rcases members listed with earlier | rfl
      · exact counted.ordered snapshot earlier
      · exact ordered
    · intro snapshot listed
      rcases members listed with earlier | rfl
      · exact counted.named snapshot earlier
      · exact named
    · intro index id
      dsimp only
      cases forgets : state.store.forgets with
      | true => rfl
      | false => exact counted.counted index id
    · intro entry listed
      obtain ⟨index, inside, same⟩ := counted.known entry (recentOnly entry listed)
      refine ⟨index, ?_, same⟩
      simp only [List.length_append, List.length_singleton]
      omega
    · intro snapshot listed rule among most isMost
      rcases members listed with earlier | rfl
      · exact (fewer _).trans (counted.atMost snapshot earlier rule among most isMost)
      · exact (fewer _).trans (by rw [new]; omega)

theorem counted_of_reaches {events : List RuleStoreEvent}
    (reached : (ruleStoreMachine host).Reaches events state) : Counted state := by
  refine reached.invariant counted_start ?_
  intro state event next counted stepped
  cases event with
  | replace input expectedRevision =>
    cases stepped
    exact counted.replaced input expectedRevision
  | request request now snapshot =>
    cases snapshot with
    | none =>
      cases stepped
      exact counted.answered (List.mem_of_getElem? counted.current) request now
    | some index =>
      obtain ⟨snapshot, found, same⟩ := Option.map_eq_some_iff.mp stepped
      rw [← same]
      exact counted.answered (List.mem_of_getElem? found) request now

end Runs

section Examples

def plainRuleHost : RuleHost where
  numbers := Kernel.decimalFormat
  toLowerCase text := text.map Kernel.lowerUnit
  parseUrl text := if text = js "http://h/" then some ⟨js "http://h", js "/", [], [], []⟩ else none
  parseDate _ := none
  parseJson _ := none

def onceRuleSet : JsonValue := .object [(js "mode", .string (js "passthrough")),
  (js "rules", .array [.object [(js "id", .string (js "r")), (js "priority", .number 0),
    (js "match", .object []), (js "action", .object [(js "type", .string (js "passthrough"))]),
    (js "lifetime", .object [(js "maxMatches", .number 1)])]])]

def onceRule : NetworkMockRule where
  action := .object [(js "type", .string (js "passthrough"))]
  id := js "r"
  lifetime := ⟨none, some 1⟩
  matching := ⟨none, none, none, none, none, none⟩
  priority := 0
  sequence := 0

def plainRequest : NetworkMockRequest := ⟨[], none, none, [], [], js "GET", js "http://h/"⟩

variable {snapshot : NetworkMockRuleSetSnapshot} {state : RuleStoreState} {host : RuleHost}
  {events : List RuleStoreEvent}

set_option maxRecDepth 100000 in
theorem admitRuleSet_once :
    admitRuleSet plainRuleHost (some onceRuleSet) = .ok (.passthrough, [onceRule]) := by
  rfl

theorem replace_once (store : NetworkMockRuleStore) :
    store.replace plainRuleHost (some onceRuleSet) none =
      (.ok ⟨.passthrough, decimalText (store.revision + 1), [onceRule]⟩,
        ⟨if store.forgets then .empty else store.counts, store.revision + 1, [onceRule],
          .passthrough⟩) := by
  unfold NetworkMockRuleStore.replace NetworkMockRuleStore.forgets
  rw [if_neg (by simp), admitRuleSet_once]
  by_cases many : maxCounts < store.counts.size <;> simp [many, NetworkMockRuleStore.getSnapshot]

theorem match_once {store : NetworkMockRuleStore} (rules : snapshot.rules = [onceRule])
    (unused : store.counts.get? (matchKey snapshot.revision (js "r")) = none) :
    store.match plainRuleHost plainRequest 0 snapshot =
      (.ok ⟨onceRule.action, snapshot.revision, some (js "r")⟩,
        { store with counts := store.counts.set (matchKey snapshot.revision (js "r")) 1 }) := by
  have fits : ruleMatches plainRuleHost onceRule plainRequest 0 = .ok true := rfl
  have named : onceRule.id = js "r" := rfl
  unfold NetworkMockRuleStore.match
  rw [rules, NetworkMockRuleStore.matchRules, fits, named, unused]
  rfl

theorem replaced_once (state : RuleStoreState) :
    state.replaced plainRuleHost (some onceRuleSet) none = ⟨
      ⟨if state.store.forgets then .empty else state.store.counts, state.store.revision + 1,
        [onceRule], .passthrough⟩,
      state.issued ++ [⟨.passthrough, decimalText (state.store.revision + 1), [onceRule]⟩],
      state.selections, if state.store.forgets then [] else state.recent⟩ := by
  unfold RuleStoreState.replaced
  rw [replace_once]

theorem answered_once (rules : snapshot.rules = [onceRule])
    (unused : state.store.counts.get? (matchKey snapshot.revision (js "r")) = none) :
    state.answered plainRuleHost plainRequest 0 snapshot = { state with
      store := { state.store with
        counts := state.store.counts.set (matchKey snapshot.revision (js "r")) 1 }
      selections := state.selections ++ [(snapshot.revision, js "r")]
      recent := state.recent ++ [(snapshot.revision, js "r")] } := by
  unfold RuleStoreState.answered
  rw [match_once rules unused]
  rfl

section

variable (reached : (ruleStoreMachine host).Reaches events state)

include reached

theorem reaches_replaced
    (input : Option JsonValue) (expectedRevision : Option Text) : (ruleStoreMachine host).Reaches
      (events ++ [.replace input expectedRevision])
      (state.replaced host input expectedRevision) :=
  .step reached trivial rfl

theorem reaches_answered (request : NetworkMockRequest) (now : ℤ) :
    (ruleStoreMachine host).Reaches (events ++ [.request request now none])
      (state.answered host request now state.store.getSnapshot) :=
  .step reached trivial rfl

theorem reaches_answered_at (request : NetworkMockRequest) (now : ℤ) {index : ℕ}
    (found : state.issued[index]? = some snapshot) : (ruleStoreMachine host).Reaches
      (events ++ [.request request now (some index)])
      (state.answered host request now snapshot) :=
  .step reached trivial (Option.map_eq_some_iff.mpr ⟨snapshot, found, rfl⟩)

end

structure AfterRounds (rounds : ℕ) (state : RuleStoreState) : Prop where
  revision : state.store.revision = rounds
  size : state.store.counts.size = rounds
  fresh : ∀ later, rounds < later →
    state.store.counts.get? (matchKey (decimalText later) (js "r")) = none
  issued : state.issued.length = rounds + 1
  first : 0 < rounds → state.issued[1]? = some ⟨.passthrough, decimalText 1, [onceRule]⟩
  used : 0 < rounds → (decimalText 1, js "r") ∈ state.selections

theorem afterRounds (rounds : ℕ) (few : rounds ≤ maxCounts + 1) :
    ∃ events state, (ruleStoreMachine plainRuleHost).Reaches events state ∧
      AfterRounds rounds state := by
  induction rounds with
  | zero =>
    refine ⟨[], _, .refl, rfl, rfl, fun _ _ => rfl, rfl, ?_, ?_⟩
    · intro none
      omega
    · intro none
      omega
  | succ rounds ih =>
    obtain ⟨events, state, reached, taken⟩ := ih (by omega)
    have keeps : state.store.forgets = false := by
      unfold NetworkMockRuleStore.forgets
      rw [taken.size]
      exact decide_eq_false (by omega)
    have replaced := replaced_once state
    rw [keeps, taken.revision] at replaced
    have unused := taken.fresh (rounds + 1) (by omega)
    have second := reaches_replaced reached (some onceRuleSet) none
    rw [replaced] at second
    have third := reaches_answered second plainRequest 0
    rw [answered_once rfl unused] at third
    refine ⟨_, _, third, rfl, ?_, ?_, ?_, ?_, ?_⟩
    · exact (OrderedMap.size_set_of_none unused).trans (congrArg (· + 1) taken.size)
    · intro later behind
      have other : matchKey (decimalText later) (js "r") ≠
          matchKey (decimalText (rounds + 1)) (js "r") := by
        intro same
        have revisions := decimalText_injective (Prod.mk.inj (matchKey_inj.mp same)).1
        omega
      exact (OrderedMap.get?_set.trans (if_neg other)).trans (taken.fresh later (by omega))
    · change (state.issued ++ [_]).length = _
      rw [List.length_append, taken.issued]
      rfl
    · intro _
      by_cases begins : rounds = 0
      · have length := taken.issued
        rw [begins] at length
        change (state.issued ++ [_])[1]? = _
        rw [List.getElem?_append_right (by omega), length, begins]
        rfl
      · have length := taken.issued
        change (state.issued ++ [_])[1]? = _
        rw [List.getElem?_append_left (by omega)]
        exact taken.first (by omega)
    · intro _
      by_cases begins : rounds = 0
      · rw [begins]
        exact List.mem_append_right _ (List.mem_singleton_self _)
      · exact List.mem_append_left _ (taken.used (by omega))

end Examples

end Holonomy.Network
