import Holonomy.Foundation.Lookups
import Holonomy.Modules.Loader

/-!
# Package patterns

Node looks a subpath up among the keys of a package: first the key itself, unless it has a star,
then the most specific pattern that matches it, a pattern being a key with one star. The loader
does the same but for three things: it takes a key of `exports` with a star for itself, it takes
keys of `exports` with several stars for patterns, and it looks at no pattern that does not start as
subpaths or internal names do.
-/

namespace Holonomy.Modules

open Foundation

/-- The key that an entry is under, and what the star of a pattern stands for. -/
abbrev PackageChoice : Type := Text × Option Text

/-- What the star of an expansion key stands for, as Node has it. -/
def expansionMatch (pattern key : Text) : Option Text :=
  let base := pattern.takeWhile fun unit => unit ≠ 42
  let trailer := pattern.drop (base.length + 1)
  if startsWith key base ∧ key ≠ base ∧
      (trailer = [] ∨ endsWith key trailer ∧ pattern.length ≤ key.length) then
    some ((key.take (key.length - trailer.length)).drop base.length)
  else none

def isExpansionKey (pattern : Text) : Bool := decide (pattern.count 42 = 1)

/-- What Node chooses: the key itself, or the first match among the expansion keys, which are in the
order of `PATTERN_KEY_COMPARE`, by what is in front of the star and by length. -/
def packageResolve (keys : List Text) (key : Text) : Option PackageChoice :=
  if key ∈ keys ∧ 42 ∉ key then some (key, none)
  else (compareExportPattern.sort (keys.filter isExpansionKey)).findSome?
    fun pattern => (expansionMatch pattern key).map fun text => (pattern, some text)

/-- The best pattern that the loader finds among some. -/
def bestOf (patterns : List Text) (key : Text) : Option (Text × Text) :=
  ((compareExportPattern.comap Prod.fst).sort (patterns.filterMap fun pattern =>
    (matchExportPattern pattern key).map fun text => (pattern, text))).head?

/-- What the loader chooses, given whether it takes the key itself and which keys it takes for
patterns. -/
def loaderChoice (exact : Bool) (eligible : Text → Bool) (keys : List Text) (key : Text) :
    Option PackageChoice :=
  if exact then some (key, none)
  else (bestOf (keys.filter eligible) key).map fun best => (best.1, some best.2)

def isExportPattern (pattern : Text) : Bool := startsWith pattern (js "./") && decide (42 ∈ pattern)

def isImportPattern (pattern : Text) : Bool :=
  startsWith pattern (js "#") && decide (pattern.count 42 = 1)

/-- What `selectExportEntry` chooses of an object with subpaths. -/
def exportChoice (keys : List Text) (exportKey : Text) : Option PackageChoice :=
  loaderChoice (exportKey ∈ keys) isExportPattern keys exportKey

/-- What `selectImportEntry` chooses. -/
def importChoice (keys : List Text) (specifier : Text) : Option PackageChoice :=
  loaderChoice (specifier ∈ keys ∧ 42 ∉ specifier) isImportPattern keys specifier

def chosenEntry (members : List (Text × JsonValue)) (choice : Option PackageChoice) :
    Option SelectedEntry :=
  choice.bind fun chosen => (member members chosen.1).map fun entry => ⟨entry, chosen.2⟩

variable {pattern : Text}

/-- The first star of a text stands behind what has none. -/
theorem split_star (star : 42 ∈ pattern) :
    ∃ base stop, pattern = base ++ 42 :: stop ∧ pattern.takeWhile (fun unit => unit ≠ 42) = base ∧
      pattern.drop (base.length + 1) = stop := by
  obtain ⟨base, stop, whole, none'⟩ := List.eq_append_cons_of_mem star
  refine ⟨base, stop, whole, ?_, ?_⟩
  · have plain : ∀ unit ∈ base, decide (unit ≠ 42) = true := fun unit listed =>
      decide_eq_true fun same => none' (same ▸ listed)
    rw [whole, List.takeWhile_append_of_pos plain, List.takeWhile_cons_of_neg (by simp),
      List.append_nil]
  · rw [whole, List.drop_append, List.drop_of_length_le (Nat.le_succ _), List.nil_append,
      Nat.add_sub_cancel_left, List.drop_succ_cons, List.drop_zero]

/-- A match takes a key apart as the star takes the pattern apart. -/
theorem matchExportPattern_spec {pattern key text : Text}
    (matched : matchExportPattern pattern key = some text) :
    ∃ base stop, pattern = base ++ 42 :: stop ∧ key = base ++ text ++ stop ∧
      patternBase pattern = base.length + 1 := by
  obtain ⟨star, matched⟩ := Option.ite_none_left_eq_some.mp matched
  rw [not_not] at star
  obtain ⟨base, stop, whole, first, last⟩ := split_star star
  simp only [first, last] at matched
  obtain ⟨fits, same⟩ := Option.ite_none_left_eq_some.mp matched
  rw [not_or, not_or, Nat.not_lt, not_not, not_not, startsWith, endsWith,
    List.isPrefixOf_iff_prefix, List.isSuffixOf_iff_suffix] at fits
  obtain ⟨long, starts, before, stops⟩ := fits
  rw [whole, List.length_append, List.length_cons, ← stops, List.length_append] at long
  rw [← stops] at starts
  obtain ⟨middle, opens⟩ := List.prefix_of_prefix_length_le starts (List.prefix_append before stop)
    (by omega)
  refine ⟨base, stop, whole, ?_, ?_⟩
  · have text : text = middle := by
      rw [← Option.some.inj same, ← stops, List.length_append, Nat.add_sub_cancel, List.take_left',
        ← opens, List.drop_left']
      · rfl
      · rfl
    rw [text, opens, stops]
  · rw [patternBase, if_pos star, first]

/-- No two patterns that match a key are alike in the order. -/
theorem tied_eq {left right key : Text} (matchesLeft : (matchExportPattern left key).isSome)
    (matchesRight : (matchExportPattern right key).isSome)
    (before : compareExportPattern.before left right)
    (after : compareExportPattern.before right left) : left = right := by
  obtain ⟨text, matched⟩ := Option.isSome_iff_exists.mp matchesLeft
  obtain ⟨other, matched'⟩ := Option.isSome_iff_exists.mp matchesRight
  obtain ⟨base, stop, whole, parts, baseLength⟩ := matchExportPattern_spec matched
  obtain ⟨base', stop', whole', parts', baseLength'⟩ := matchExportPattern_spec matched'
  have bases : patternBase left = patternBase right := le_antisymm after.1 before.1
  have lengths : left.length = right.length :=
    le_antisymm (after.2 before.1) (before.2 after.1)
  rw [baseLength, baseLength'] at bases
  rw [whole, whole', List.length_append, List.length_append, List.length_cons, List.length_cons]
    at lengths
  rw [parts] at parts'
  have total := congrArg List.length parts'
  simp only [List.length_append] at total
  obtain ⟨front, stops⟩ := List.append_inj' parts' (by omega)
  rw [whole, whole', (List.append_inj front (by omega)).1, stops]

/-- Among patterns with one star both matches are the same. -/
theorem expansionMatch_eq (star : 42 ∈ pattern) (key : Text) :
    expansionMatch pattern key = matchExportPattern pattern key := by
  obtain ⟨base, stop, whole, first, last⟩ := split_star star
  have length := congrArg List.length whole
  rw [List.length_append, List.length_cons] at length
  unfold expansionMatch matchExportPattern
  rw [if_neg (not_not.mpr star)]
  simp only [first, last]
  have same : (startsWith key base = true ∧ key ≠ base ∧
      (stop = [] ∨ endsWith key stop = true ∧ pattern.length ≤ key.length)) ↔
        ¬ (key.length < pattern.length ∨ ¬ startsWith key base = true ∨
          ¬ endsWith key stop = true) := by
    rw [not_or, not_or, not_not, not_not, Nat.not_lt]
    constructor
    · rintro ⟨starts, different, ends | ⟨stops, long⟩⟩
      · rw [ends]
        refine ⟨?_, starts, List.isSuffixOf_iff_suffix.mpr (List.nil_suffix)⟩
        obtain ⟨behind, opens⟩ := List.isPrefixOf_iff_prefix.mp starts
        have more : behind ≠ [] := by
          intro none'
          rw [none', List.append_nil] at opens
          exact different opens.symm
        have longer := List.length_pos_of_ne_nil more
        rw [← opens, length, ends, List.length_append, List.length_nil]
        omega
      · exact ⟨long, starts, stops⟩
    · rintro ⟨long, starts, stops⟩
      refine ⟨starts, fun equal => ?_, .inr ⟨stops, long⟩⟩
      rw [equal, length] at long
      omega
  by_cases fits : startsWith key base = true ∧ key ≠ base ∧
      (stop = [] ∨ endsWith key stop = true ∧ pattern.length ≤ key.length)
  · rw [if_pos fits, if_neg (same.mp fits)]
  · rw [if_neg fits, if_pos (not_not.mp fun no => fits (same.mpr no))]

/-- A pattern that matches and comes before all others that are eligible and match. -/
structure IsBest (eligible : Text → Bool) (keys : List Text) (key : Text) (best : Text × Text) :
    Prop where
  listed : best.1 ∈ keys
  kind : eligible best.1 = true
  found : matchExportPattern best.1 key = some best.2
  first : ∀ other ∈ keys, eligible other = true → (matchExportPattern other key).isSome →
    compareExportPattern.before best.1 other

/-- Each key that matches and is a pattern either for the loader or for Node comes behind one that
is a pattern for both. -/
def PatternsAlike (eligible other : Text → Bool) (keys : List Text) (key : Text) : Prop :=
  ∀ pattern ∈ keys, (matchExportPattern pattern key).isSome → eligible pattern ≠ other pattern →
    ∃ better ∈ keys, eligible better = true ∧ other better = true ∧
      (matchExportPattern better key).isSome ∧ compareExportPattern.before better pattern
deriving Decidable

section Choices

variable {eligible other : Text → Bool} {keys : List Text} {key : Text} {best next : Text × Text}

theorem IsBest.eq (left : IsBest eligible keys key best) (right : IsBest eligible keys key next) :
    best = next := by
  have leftSome : (matchExportPattern best.1 key).isSome := by
    rw [left.found]
    rfl
  have rightSome : (matchExportPattern next.1 key).isSome := by
    rw [right.found]
    rfl
  have same := tied_eq leftSome rightSome (left.first _ right.listed right.kind rightSome)
    (right.first _ left.listed left.kind leftSome)
  have texts := left.found
  rw [same, right.found] at texts
  exact Prod.ext same (Option.some.inj texts).symm

/-- The patterns of a kind that match. -/
theorem mem_candidates {entry : Text × Text} :
    entry ∈ (keys.filter eligible).filterMap (fun pattern =>
      (matchExportPattern pattern key).map fun text => (pattern, text)) ↔
        entry.1 ∈ keys ∧ eligible entry.1 = true ∧
          matchExportPattern entry.1 key = some entry.2 := by
  rw [List.mem_filterMap]
  constructor
  · rintro ⟨pattern, listed, same⟩
    obtain ⟨text, matched, same⟩ := Option.map_eq_some_iff.mp same
    rw [List.mem_filter] at listed
    rw [← same]
    exact ⟨listed.1, listed.2, matched⟩
  · rintro ⟨listed, kind, matched⟩
    exact ⟨entry.1, List.mem_filter.mpr ⟨listed, kind⟩, by rw [matched]; rfl⟩

theorem isBest_of_bestOf (found : bestOf (keys.filter eligible) key = some best) :
    IsBest eligible keys key best := by
  obtain ⟨listed, first⟩ := head?_sort_spec _ found
  obtain ⟨listed, kind, matched⟩ := mem_candidates.mp listed
  refine ⟨listed, kind, matched, fun other otherIn otherKind otherMatches => ?_⟩
  obtain ⟨text, otherMatched⟩ := Option.isSome_iff_exists.mp otherMatches
  exact first (other, text) (mem_candidates.mpr ⟨otherIn, otherKind, otherMatched⟩)

/-- Where a pattern matches there is a best one. -/
theorem exists_isBest (listed : pattern ∈ keys) (kind : eligible pattern = true)
    (found : (matchExportPattern pattern key).isSome) :
    ∃ best, bestOf (keys.filter eligible) key = some best ∧ IsBest eligible keys key best := by
  obtain ⟨text, matched⟩ := Option.isSome_iff_exists.mp found
  cases chosen : bestOf (keys.filter eligible) key with
  | none =>
    have there := (@mem_candidates eligible keys key (pattern, text)).mpr ⟨listed, kind, matched⟩
    rw [bestOf, List.head?_eq_none_iff] at chosen
    rw [← Precedence.mem_sort (compareExportPattern.comap Prod.fst), chosen] at there
    cases there
  | some best => exact ⟨best, rfl, isBest_of_bestOf chosen⟩

/-- The loader finds the best pattern. -/
theorem bestOf_eq_some_iff :
    bestOf (keys.filter eligible) key = some best ↔ IsBest eligible keys key best := by
  refine ⟨isBest_of_bestOf, fun isBest => ?_⟩
  obtain ⟨next, chosen, nextBest⟩ := exists_isBest isBest.listed isBest.kind (by
    rw [isBest.found]
    rfl)
  rw [chosen, nextBest.eq isBest]

/-- Node finds the best pattern among those with one star. -/
theorem findSome_eq_some_iff {choice : PackageChoice} :
    (compareExportPattern.sort (keys.filter isExpansionKey)).findSome?
      (fun pattern => (expansionMatch pattern key).map fun text => (pattern, some text)) =
        some choice ↔
      ∃ best, IsBest isExpansionKey keys key best ∧ choice = (best.1, some best.2) := by
  have mem : ∀ pattern, pattern ∈ compareExportPattern.sort
      (keys.filter isExpansionKey) ↔
        pattern ∈ keys ∧ isExpansionKey pattern = true := fun pattern => by
    rw [Precedence.mem_sort, List.mem_filter]
  have same : ∀ pattern : Text, isExpansionKey pattern = true →
      expansionMatch pattern key = matchExportPattern pattern key := fun pattern single =>
    expansionMatch_eq (List.count_pos_iff.mp (by rw [of_decide_eq_true single]; exact one_pos)) key
  have sound : ∀ {choice : PackageChoice},
      (compareExportPattern.sort (keys.filter isExpansionKey)).findSome?
        (fun pattern => (expansionMatch pattern key).map fun text => (pattern, some text)) =
          some choice →
        ∃ best, IsBest isExpansionKey keys key best ∧ choice = (best.1, some best.2) := by
    intro choice found
    obtain ⟨before, pattern, after, whole, matched, passed⟩ := List.findSome?_eq_some_iff.mp found
    obtain ⟨text, matched, chosen⟩ := Option.map_eq_some_iff.mp matched
    have sorted := compareExportPattern.sort_sorted
      (keys.filter isExpansionKey)
    rw [whole] at sorted mem
    obtain ⟨listed, single⟩ := (mem pattern).mp (List.mem_append_right _ List.mem_cons_self)
    rw [same pattern single] at matched
    refine ⟨(pattern, text), ⟨listed, single, matched, fun other otherIn kind otherMatches => ?_⟩,
      chosen.symm⟩
    rcases List.mem_append.mp ((mem other).mpr ⟨otherIn, kind⟩) with early | late
    · have none' := Option.map_eq_none_iff.mp (passed other early)
      rw [same other kind] at none'
      rw [none'] at otherMatches
      cases otherMatches
    · rcases List.mem_cons.mp late with here | behind
      · rw [here]
        exact compareExportPattern.refl pattern
      · exact (List.pairwise_cons.mp (List.pairwise_append.mp sorted).2.1).1 other behind
  refine ⟨sound, fun ⟨best, isBest, chosen⟩ => ?_⟩
  cases found : (compareExportPattern.sort (keys.filter isExpansionKey)).findSome?
        (fun pattern => (expansionMatch pattern key).map fun text => (pattern, some text)) with
  | none =>
    have missed := Option.map_eq_none_iff.mp (List.findSome?_eq_none_iff.mp found best.1
      ((mem best.1).mpr ⟨isBest.listed, isBest.kind⟩))
    rw [same best.1 isBest.kind, isBest.found] at missed
    cases missed
  | some other =>
    obtain ⟨next, nextBest, otherIs⟩ := sound found
    rw [chosen, otherIs, nextBest.eq isBest]

/-- Two kinds of patterns have the same best one if and only if each pattern that is of one kind
only comes behind one that is of both. -/
theorem best_iff_best_iff :
    (∀ best, IsBest eligible keys key best ↔ IsBest other keys key best) ↔
      PatternsAlike eligible other keys key := by
  have transfer : ∀ {one two : Text → Bool}, PatternsAlike one two keys key →
      ∀ best, IsBest one keys key best → IsBest two keys key best := by
    intro one two behind best isBest
    have found : (matchExportPattern best.1 key).isSome := by
      rw [isBest.found]
      rfl
    have both : two best.1 = true := by
      by_contra no
      have differ : one best.1 ≠ two best.1 := by
        rw [isBest.kind]
        exact fun same => no same.symm
      obtain ⟨better, listed, kind, two', matches', before⟩ :=
        behind best.1 isBest.listed found differ
      rw [tied_eq found matches' (isBest.first better listed kind matches') before] at no
      exact no two'
    refine ⟨isBest.listed, both, isBest.found, fun pattern listed kind matches' => ?_⟩
    by_cases one' : one pattern = true
    · exact isBest.first pattern listed one' matches'
    · obtain ⟨better, betterIn, better1, -, betterMatches, before⟩ :=
        behind pattern listed matches' (fun same => one' (same.trans kind))
      exact compareExportPattern.trans _ _ _ (isBest.first better betterIn better1 betterMatches)
        before
  constructor
  · intro alike pattern listed matches' differ
    have some' : eligible pattern = true ∨ other pattern = true := by
      cases one : eligible pattern with
      | true => exact .inl rfl
      | false =>
        rw [one] at differ
        exact .inr (Bool.eq_true_of_not_eq_false fun no => differ no.symm)
    rcases some' with kind | kind
    · obtain ⟨best, -, isBest⟩ := exists_isBest listed kind matches'
      have otherBest := (alike best).mp isBest
      exact ⟨best.1, isBest.listed, isBest.kind, otherBest.kind, by rw [isBest.found]; rfl,
        isBest.first pattern listed kind matches'⟩
    · obtain ⟨best, -, isBest⟩ := exists_isBest listed kind matches'
      have otherBest := (alike best).mpr isBest
      exact ⟨best.1, isBest.listed, otherBest.kind, isBest.kind, by rw [isBest.found]; rfl,
        isBest.first pattern listed kind matches'⟩
  · intro behind best
    refine ⟨transfer behind best, transfer (fun pattern listed matches' differ => ?_) best⟩
    obtain ⟨better, betterIn, one, two, rest⟩ := behind pattern listed matches' differ.symm
    exact ⟨better, betterIn, two, one, rest⟩

theorem patterns_eq_iff :
    (bestOf (keys.filter eligible) key).map (fun best => (best.1, some best.2)) =
      (compareExportPattern.sort (keys.filter isExpansionKey)).findSome?
        (fun pattern => (expansionMatch pattern key).map fun text => (pattern, some text)) ↔
      PatternsAlike eligible isExpansionKey keys key := by
  have chosen : ∀ choice : PackageChoice,
      (bestOf (keys.filter eligible) key).map (fun best => (best.1, some best.2)) = some choice ↔
        ∃ best, IsBest eligible keys key best ∧ choice = (best.1, some best.2) := by
    intro choice
    rw [Option.map_eq_some_iff]
    exact exists_congr fun best => and_congr bestOf_eq_some_iff eq_comm
  have same : ∀ {one two : Text × Text}, (one.1, some one.2) = (two.1, some two.2) → one = two :=
    fun equal => Prod.ext (Prod.mk.inj equal).1 (Option.some.inj (Prod.mk.inj equal).2)
  rw [← best_iff_best_iff]
  constructor
  · intro equal best
    constructor
    · intro isBest
      obtain ⟨next, nextBest, is⟩ := findSome_eq_some_iff.mp
        (equal ▸ (chosen _).mpr ⟨best, isBest, rfl⟩)
      exact same is ▸ nextBest
    · intro isBest
      obtain ⟨next, nextBest, is⟩ := (chosen _).mp
        (equal ▸ findSome_eq_some_iff.mpr ⟨best, isBest, rfl⟩)
      exact same is ▸ nextBest
  · intro alike
    refine Option.ext fun choice => ?_
    rw [chosen, findSome_eq_some_iff]
    exact exists_congr fun best => and_congr_left' (alike best)

end Choices

section Entries

variable {members others : List (Text × JsonValue)} {key : Text}

theorem member_eq_none_iff : member members key = none ↔ key ∉ members.map Prod.fst := by
  rw [member, Option.map_eq_none_iff, List.find?_eq_none, List.mem_map]
  constructor
  · rintro none' ⟨entry, listed, same⟩
    exact none' entry listed (decide_eq_true same)
  · exact fun unlisted entry listed same => unlisted ⟨entry, listed, of_decide_eq_true same⟩

/-- Without repeated keys the order of the members does not matter. -/
theorem member_perm (once : (members.map Prod.fst).Nodup) (perm : members.Perm others) :
    member members key = member others key := by
  have apart := (perm.map Prod.fst).nodup_iff.mp once
  have found : ∀ {entries : List (Text × JsonValue)}, (entries.map Prod.fst).Nodup →
      ∀ value, member entries key = some value ↔ (key, value) ∈ entries := by
    intro entries once value
    rw [member, Option.map_eq_some_iff]
    constructor
    · rintro ⟨entry, found, same⟩
      have here : entry.1 = key := of_decide_eq_true (List.find?_some found :)
      rw [← here, ← same]
      exact List.mem_of_find?_eq_some found
    · intro listed
      cases found : entries.find? fun entry => entry.1 = key with
      | none => exact absurd (decide_eq_true rfl) (List.find?_eq_none.mp found _ listed)
      | some entry =>
        have here : entry.1 = key := of_decide_eq_true (List.find?_some found :)
        rw [List.inj_on_of_nodup_map once (List.mem_of_find?_eq_some found) listed here]
        exact ⟨_, rfl, rfl⟩
  refine Option.ext fun value => ?_
  rw [found once, found apart, perm.mem_iff]

theorem loaderChoice_perm {keys more : List Text} (perm : keys.Perm more) (exact' : Bool)
    (eligible : Text → Bool) :
    loaderChoice exact' eligible keys key = loaderChoice exact' eligible more key := by
  have same : bestOf (keys.filter eligible) key = bestOf (more.filter eligible) key := by
    refine Option.ext fun best => ?_
    rw [bestOf_eq_some_iff, bestOf_eq_some_iff]
    constructor
    · exact fun isBest => ⟨perm.mem_iff.mp isBest.listed, isBest.kind, isBest.found,
        fun other listed => isBest.first other (perm.mem_iff.mpr listed)⟩
    · exact fun isBest => ⟨perm.mem_iff.mpr isBest.listed, isBest.kind, isBest.found,
        fun other listed => isBest.first other (perm.mem_iff.mp listed)⟩
  rw [loaderChoice, loaderChoice, same]

theorem bestPattern_eq (patterns : List Text) : bestPattern members patterns key =
    chosenEntry members ((bestOf patterns key).map fun best => (best.1, some best.2)) := by
  rw [chosenEntry, Option.bind_map]
  change (bestOf patterns key).bind _ = _
  cases bestOf patterns key with
  | none => rfl
  | some best =>
    rw [Option.bind_some, Option.bind_some, Function.comp_apply, Option.map_eq_bind]
    rfl

/-- The loader takes the entry under the key that it chooses. -/
theorem selectExportEntry_eq
    (subpaths : (members.map Prod.fst).any fun name => startsWith name (js ".")) :
    selectExportEntry (.object members) key =
      chosenEntry members (exportChoice (members.map Prod.fst) key) := by
  unfold selectExportEntry exportChoice loaderChoice
  simp only [subpaths, if_true]
  cases found : member members key with
  | none =>
    rw [member_eq_none_iff] at found
    rw [if_neg (Bool.eq_false_iff.mp (decide_eq_false found)), ← bestPattern_eq]
    rfl
  | some entry =>
    have listed : key ∈ members.map Prod.fst := by
      by_contra unlisted
      rw [member_eq_none_iff.mpr unlisted] at found
      cases found
    rw [if_pos (decide_eq_true listed), chosenEntry, Option.bind_some, found]
    rfl

theorem selectImportEntry_eq : selectImportEntry members key =
    chosenEntry members (importChoice (members.map Prod.fst) key) := by
  unfold selectImportEntry importChoice loaderChoice
  by_cases star : 42 ∈ key
  · rw [if_pos star, if_neg (fun taken => (of_decide_eq_true taken).2 star), ← bestPattern_eq]
    rfl
  · rw [if_neg star]
    cases found : member members key with
    | none =>
      rw [member_eq_none_iff] at found
      rw [if_neg (fun taken => found (of_decide_eq_true taken).1), ← bestPattern_eq]
      rfl
    | some entry =>
      have listed : key ∈ members.map Prod.fst := by
        by_contra unlisted
        rw [member_eq_none_iff.mpr unlisted] at found
        cases found
      rw [if_pos (decide_eq_true ⟨listed, star⟩), chosenEntry, Option.bind_some, found]
      rfl

/-- The loader and Node choose alike of `exports`: the key is not there with a star in it, and
otherwise their patterns are alike. -/
def ExportsAlike (keys : List Text) (exportKey : Text) : Prop :=
  if exportKey ∈ keys then 42 ∉ exportKey
  else PatternsAlike isExportPattern isExpansionKey keys exportKey
deriving Decidable

def ImportsAlike (keys : List Text) (specifier : Text) : Prop :=
  (specifier ∈ keys ∧ 42 ∉ specifier) ∨
    PatternsAlike isImportPattern isExpansionKey keys specifier
deriving Decidable

theorem exportChoice_eq_iff (keys : List Text) (exportKey : Text) :
    exportChoice keys exportKey = packageResolve keys exportKey ↔ ExportsAlike keys exportKey := by
  unfold exportChoice loaderChoice packageResolve ExportsAlike
  by_cases listed : exportKey ∈ keys
  · rw [if_pos (decide_eq_true listed), if_pos listed]
    by_cases star : 42 ∈ exportKey
    · rw [if_neg (fun both => both.2 star)]
      refine iff_of_false (fun same => ?_) (not_not.mpr star)
      obtain ⟨best, -, chosen⟩ := findSome_eq_some_iff.mp same.symm
      cases (Prod.mk.inj chosen).2
    · rw [if_pos ⟨listed, star⟩]
      exact iff_of_true rfl star
  · rw [if_neg (Bool.eq_false_iff.mp (decide_eq_false listed)), if_neg (fun both => listed both.1),
      if_neg listed]
    exact patterns_eq_iff

theorem importChoice_eq_iff (keys : List Text) (specifier : Text) :
    importChoice keys specifier = packageResolve keys specifier ↔
      ImportsAlike keys specifier := by
  unfold importChoice loaderChoice packageResolve ImportsAlike
  by_cases taken : specifier ∈ keys ∧ 42 ∉ specifier
  · rw [if_pos (decide_eq_true taken), if_pos taken]
    exact iff_of_true rfl (.inl taken)
  · rw [if_neg (Bool.eq_false_iff.mp (decide_eq_false taken)), if_neg taken]
    exact patterns_eq_iff.trans (or_iff_right taken).symm

/-- The loader chooses what Node chooses and takes its entry, whatever the order of the keys,
exactly where the two are alike. -/
theorem entries_follow_iff (members : List (Text × JsonValue)) (key : Text)
    (once : (members.map Prod.fst).Nodup) :
    ((members.map Prod.fst).any (fun name => startsWith name (js ".")) = true →
      ((exportChoice (members.map Prod.fst) key = packageResolve (members.map Prod.fst) key ∧
        ∀ others, members.Perm others → selectExportEntry (.object others) key =
          chosenEntry members (exportChoice (members.map Prod.fst) key)) ↔
        ExportsAlike (members.map Prod.fst) key)) ∧
    ((importChoice (members.map Prod.fst) key = packageResolve (members.map Prod.fst) key ∧
      ∀ others, members.Perm others → selectImportEntry others key =
        chosenEntry members (importChoice (members.map Prod.fst) key)) ↔
      ImportsAlike (members.map Prod.fst) key) := by
  have entries : ∀ {others}, members.Perm others → ∀ choice,
      chosenEntry others choice = chosenEntry members choice := by
    intro others perm choice
    refine congrArg choice.bind (funext fun chosen => ?_)
    rw [member_perm once perm]
  constructor
  · intro subpaths
    rw [← exportChoice_eq_iff]
    refine and_iff_left fun others perm => ?_
    have keys := perm.map Prod.fst
    have chosen : exportChoice (others.map Prod.fst) key = exportChoice (members.map Prod.fst)
        key := by
      rw [exportChoice, exportChoice, loaderChoice_perm keys]
      simp only [keys.mem_iff]
    rw [selectExportEntry_eq (by rw [← subpaths]; exact (keys.any_eq).symm), entries perm, chosen]
  · rw [← importChoice_eq_iff]
    refine and_iff_left fun others perm => ?_
    have keys := perm.map Prod.fst
    have chosen : importChoice (others.map Prod.fst) key = importChoice (members.map Prod.fst)
        key := by
      rw [importChoice, importChoice, loaderChoice_perm keys]
      simp only [keys.mem_iff]
    rw [selectImportEntry_eq, entries perm, chosen]

/-- Subpaths with patterns of which two match. -/
def subpathKeys : List (Text × JsonValue) :=
  [(js ".", .null), (js "./a/*", .null), (js "./a/*.js", .null), (js "./b", .null)]

/-- The longer pattern is chosen. -/
theorem entries_follow_subpathKeys :
    exportChoice (subpathKeys.map Prod.fst) (js "./a/x.js") = some (js "./a/*.js", some (js "x")) ∧
      exportChoice (subpathKeys.map Prod.fst) (js "./a/x.js") =
        packageResolve (subpathKeys.map Prod.fst) (js "./a/x.js") :=
  ⟨by decide +kernel, (((entries_follow_iff subpathKeys (js "./a/x.js") (by decide +kernel)).1
    (by decide +kernel)).mpr (by decide +kernel)).1⟩

/-- The loader takes a key with two stars for a pattern. -/
theorem not_entries_follow : ¬ ∀ (members : List (Text × JsonValue)) (exportKey : Text),
    (members.map Prod.fst).Nodup →
      (members.map Prod.fst).any (fun name => startsWith name (js ".")) = true →
        selectExportEntry (.object members) exportKey =
          chosenEntry members (packageResolve (members.map Prod.fst) exportKey) := by
  intro claim
  have same := congrArg Option.isSome (claim [(js "./*/*", .null)] (js "./x/*") (by decide +kernel)
    (by decide +kernel))
  exact absurd same (by decide +kernel)

end Entries

end Holonomy.Modules
