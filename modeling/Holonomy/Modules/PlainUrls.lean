import Holonomy.Modules.Rooted

/-!
# Plain URLs are parsed as URLs are

The small parser of URLs with plain paths does all that the loader relies on, with nothing to
escape. Its URLs are those of a host and of segments among which there are no dots.
-/

namespace Holonomy.Modules

open Foundation

section Segments

def IsTidy (path : List Text) : Prop := ∀ segment ∈ path, segment.all isPlain = true ∧
  isSingleDot segment = false ∧ isDoubleDot segment = false

/-- The segments of a path. -/
structure Clean (path : List Text) : Prop where
  some : path ≠ []
  tidy : IsTidy path

variable {path reference : List Text} {segment : Text}

theorem noSlash_of_plain (plain : segment.all isPlain = true) : 47 ∉ segment := by
  intro among
  have slash : isPlain 47 = true := List.all_eq_true.mp plain 47 among
  exact absurd slash (by decide)

theorem Clean.segments (clean : Clean path) : segments (pathOf path) = path := by
  rw [pathOf_eq clean.some]
  exact List.splitOn_intercalate 47 (fun segment among =>
    noSlash_of_plain (clean.tidy segment among).1)
    clean.some

theorem noDots_nil : isSingleDot [] = false ∧ isDoubleDot [] = false := by decide

theorem IsTidy.clean (tidy : IsTidy path) (plain : segment.all isPlain = true)
    (noDots : isSingleDot segment = false ∧ isDoubleDot segment = false) :
    Clean (path ++ [segment]) where
  some := List.append_ne_nil_of_right_ne_nil _ (List.cons_ne_nil _ _)
  tidy := forall_mem_concat tidy ⟨plain, noDots⟩

theorem app_ne_file : js "app:" ≠ js "file:" := by decide

theorem pushSegment_app (path : List Text) (segment : Text) :
    pushSegment (js "app:") path segment = path ++ [segment] := by
  unfold pushSegment
  exact if_neg fun file => app_ne_file file.1

theorem shortenPath_app (path : List Text) : shortenPath (js "app:") path = path.dropLast := by
  unfold shortenPath
  exact if_neg fun file => app_ne_file file.1

theorem isTidy_appendSegment (tidy : IsTidy path) (plain : segment.all isPlain = true) :
    IsTidy (appendSegment (js "app:") path segment) := by
  unfold appendSegment
  split
  case isTrue =>
    rw [shortenPath_app]
    exact fun other among => tidy other (List.mem_of_mem_dropLast among)
  case isFalse noDouble =>
    split
    case isTrue => exact tidy
    case isFalse noSingle =>
      rw [pushSegment_app]
      exact (tidy.clean plain ⟨Bool.eq_false_iff.mpr noSingle, Bool.eq_false_iff.mpr noDouble⟩).tidy

theorem clean_appendPlain (tidy : IsTidy path) (some : reference ≠ [])
    (plain : ∀ segment ∈ reference, segment.all isPlain = true) :
    Clean (appendPlain path reference) := by
  unfold appendPlain
  induction reference generalizing path with
  | nil => exact absurd rfl some
  | cons segment rest ih =>
    have isPlain := plain segment List.mem_cons_self
    have next := isTidy_appendSegment tidy isPlain
    cases rest with
    | nil =>
      unfold appendSegments
      split
      case isTrue => exact next.clean rfl noDots_nil
      case isFalse noDots =>
        rw [pushSegment_app]
        exact tidy.clean isPlain ⟨Bool.eq_false_iff.mpr fun single => noDots (.inr single),
          Bool.eq_false_iff.mpr fun double => noDots (.inl double)⟩
    | cons second others =>
      exact ih next (List.cons_ne_nil _ _) fun other among =>
        plain other (List.mem_cons_of_mem _ among)

theorem appendSegments_tidy (tidy : IsTidy reference) :
    appendSegments (js "app:") path reference = path ++ reference := by
  induction reference generalizing path with
  | nil => exact (List.append_nil path).symm
  | cons segment rest ih =>
    obtain ⟨_, noSingle, noDouble⟩ := tidy segment List.mem_cons_self
    have pushed : appendSegment (js "app:") path segment = path ++ [segment] := by
      unfold appendSegment
      rw [if_neg (by rw [noDouble]; exact Bool.false_ne_true),
        if_neg (by rw [noSingle]; exact Bool.false_ne_true), pushSegment_app]
    cases rest with
    | nil =>
      unfold appendSegments
      rw [if_neg (by rw [noDouble, noSingle]; decide), pushSegment_app]
    | cons second others =>
      show appendSegments (js "app:") (appendSegment (js "app:") path segment)
        (second :: others) = _
      rw [pushed, ih fun other among => tidy other (List.mem_cons_of_mem _ among),
        List.append_assoc]
      rfl

theorem plain_of_isPlainPath {text : Text} (plain : isPlainPath text = true) :
    ∀ segment ∈ text.splitOn 47, segment.all isPlain = true := by
  intro segment among
  rw [List.all_eq_true]
  intro unit inside
  have noSlash : unit ≠ 47 := by
    rintro rfl
    exact not_mem_of_mem_splitOn among inside
  have joined : joinSegments (text.splitOn 47) = text := List.intercalate_splitOn 47
  have isUnit : unit ∈ text := by
    rw [← joined]
    exact (mem_joinSegments noSlash).mpr ⟨segment, among, inside⟩
  have either := List.all_eq_true.mp plain unit isUnit
  rcases Bool.or_eq_true_iff.mp either with isPlain | slash
  · exact isPlain
  · exact absurd (beq_iff_eq.mp slash) noSlash

end Segments

section Parsing

variable {host : Text} {path : List Text} {text : Text} {url : Url}

/-- A host and segments of which URLs consist. -/
structure IsPlainUrl (host : Text) (path : List Text) : Prop where
  hostSome : host ≠ []
  hostPlain : host.all isPlain = true
  clean : Clean path

theorem plainUrls_parse (text : Text) (base : Option Text) : plainUrls.parse text base =
    if startsWith text (js "app:") then parseAbsolute text
    else base.bind fun base => (parseAbsolute base).bind (parseRelative text) := rfl

theorem parseAbsolute_spec (parsed : parseAbsolute text = some url) :
    ∃ host path, IsPlainUrl host path ∧ url = plainUrl host path := by
  unfold parseAbsolute at parsed
  split at parsed
  case isTrue => cases parsed
  case isFalse =>
    dsimp only at parsed
    split at parsed
    case isTrue => cases parsed
    case isFalse fine =>
      simp only [not_or, not_not] at fine
      refine ⟨_, _, ⟨fine.1, fine.2.1, ?_⟩, (Option.some.inj parsed).symm⟩
      refine clean_appendPlain (fun _ none => absurd none List.not_mem_nil)
        (List.splitOn_ne_nil _ _) (plain_of_isPlainPath ?_)
      rw [isPlainPath, List.all_eq_true]
      exact fun unit among => List.all_eq_true.mp fine.2.2.2 unit (List.mem_of_mem_drop among)

theorem splitHost (plain : host.all isPlain = true) (some : path ≠ []) :
    (host ++ pathOf path).takeWhile (fun unit => unit ≠ 47) = host ∧
      (host ++ pathOf path).dropWhile (fun unit => unit ≠ 47) = pathOf path := by
  have noSlash := noSlash_of_plain plain
  rw [pathOf_eq some]
  induction host with
  | nil => exact ⟨rfl, rfl⟩
  | cons unit rest ih =>
    rw [List.all_cons, Bool.and_eq_true] at plain
    rw [List.mem_cons, not_or] at noSlash
    have differs : decide (unit ≠ 47) = true := decide_eq_true (Ne.symm noSlash.1)
    obtain ⟨taken, dropped⟩ := ih plain.2 noSlash.2
    simp only [List.cons_append, List.takeWhile_cons, List.dropWhile_cons, differs,
      ↓reduceIte, taken, dropped, and_self]

theorem isPlainPath_pathOf (tidy : IsTidy path) : isPlainPath (pathOf path) = true := by
  rw [isPlainPath, List.all_eq_true]
  intro unit among
  obtain ⟨segment, isSegment, inside⟩ := List.mem_flatMap.mp among
  rcases List.mem_cons.mp inside with slash | within
  · rw [slash]
    rfl
  · rw [List.all_eq_true.mp (tidy segment isSegment).1 unit within]
    rfl

theorem canonical_plainUrl (isUrl : IsPlainUrl host path) :
    plainUrls.Canonical (plainUrl host path) := by
  obtain ⟨hosts, paths⟩ := splitHost isUrl.hostPlain isUrl.clean.some
  have absolute : parseAbsolute (js "app://" ++ host ++ pathOf path) =
      some (plainUrl host path) := by
    unfold parseAbsolute
    have starts : startsWith (js "app://" ++ host ++ pathOf path) (js "app://") = true :=
      startsWith_iff.mpr ⟨host ++ pathOf path, (List.append_assoc _ _ _).symm⟩
    have rest : (js "app://" ++ host ++ pathOf path).drop 6 = host ++ pathOf path := by
      rw [List.append_assoc]
      rfl
    rw [if_neg (not_not.mpr starts)]
    dsimp only
    rw [rest, hosts, paths, if_neg, isUrl.clean.segments]
    · unfold appendPlain
      rw [appendSegments_tidy isUrl.clean.tidy, List.nil_append]
    · rw [pathOf_eq isUrl.clean.some, ← pathOf_eq isUrl.clean.some,
        isPlainPath_pathOf isUrl.clean.tidy, isUrl.hostPlain]
      simp only [not_true_eq_false, false_or, or_false, not_or]
      refine ⟨isUrl.hostSome, ?_⟩
      rw [pathOf_eq isUrl.clean.some]
      exact List.cons_ne_nil _ _
  have startsApp : startsWith (js "app://" ++ host ++ pathOf path) (js "app:") = true :=
    startsWith_iff.mpr ⟨js "//" ++ host ++ pathOf path, by
      rw [← List.append_assoc, ← List.append_assoc]
      rfl⟩
  unfold UrlParser.Canonical
  rw [plainUrls_parse, if_pos (by exact startsApp)]
  exact absolute

theorem plainUrl_of_parse (parsed : plainUrls.parse text none = some url) :
    ∃ host path, IsPlainUrl host path ∧ url = plainUrl host path := by
  rw [plainUrls_parse] at parsed
  split at parsed
  · exact parseAbsolute_spec parsed
  · cases parsed

theorem plainUrl_of_parseWith {base : Option Text} (parsed : plainUrls.parse text base = some url) :
    ∃ host path, IsPlainUrl host path ∧ url = plainUrl host path := by
  rw [plainUrls_parse] at parsed
  split at parsed
  case isTrue => exact parseAbsolute_spec parsed
  case isFalse =>
    obtain ⟨spelled, _, rest⟩ := Option.bind_eq_some_iff.mp parsed
    obtain ⟨from_, isFrom, relative⟩ := Option.bind_eq_some_iff.mp rest
    obtain ⟨host, path, isUrl, same⟩ := parseAbsolute_spec isFrom
    unfold parseRelative at relative
    split at relative
    case isTrue => cases relative
    case isFalse fine =>
      simp only [not_or, not_not] at fine
      have plain := plain_of_isPlainPath fine.2.1
      split at relative
      case isTrue =>
        refine ⟨from_.host, _,
          ⟨by rw [same]; exact isUrl.hostSome, by rw [same]; exact isUrl.hostPlain,
          clean_appendPlain (fun _ none => absurd none List.not_mem_nil) (List.splitOn_ne_nil _ _)
            (plain_of_isPlainPath ?_)⟩, (Option.some.inj relative).symm⟩
        rw [isPlainPath, List.all_eq_true]
        exact fun unit among => List.all_eq_true.mp fine.2.1 unit (List.mem_of_mem_drop among)
      case isFalse =>
        refine ⟨from_.host, _,
          ⟨by rw [same]; exact isUrl.hostSome, by rw [same]; exact isUrl.hostPlain,
          clean_appendPlain (fun segment among => ?_) (List.splitOn_ne_nil _ _) plain⟩,
          (Option.some.inj relative).symm⟩
        rw [same] at among
        have among := List.mem_of_mem_dropLast among
        rw [show segments (plainUrl host path).pathname = path from isUrl.clean.segments] at among
        exact isUrl.clean.tidy segment among

theorem plainUrl_of_canonical (canonical : plainUrls.Canonical url) :
    ∃ host path, IsPlainUrl host path ∧ url = plainUrl host path := plainUrl_of_parse canonical

theorem setPathname_plainUrl {other : List Text} (isUrl : IsPlainUrl host path)
    (clean : Clean other) :
    plainUrls.Canonical (plainUrls.setPathname (plainUrl host path) (pathOf other)) ∧
      SameOrigin (plainUrls.setPathname (plainUrl host path) (pathOf other)) (plainUrl host path) ∧
      (plainUrls.setPathname (plainUrl host path) (pathOf other)).pathname = pathOf other := by
  have same : plainUrls.setPathname (plainUrl host path) (pathOf other) = plainUrl host other := by
    show plainUrl host (appendPlain [] (segments (pathOf other))) = _
    unfold appendPlain
    rw [clean.segments, appendSegments_tidy clean.tidy, List.nil_append]
  rw [same]
  exact ⟨canonical_plainUrl ⟨isUrl.hostSome, isUrl.hostPlain, clean⟩, ⟨rfl, rfl, rfl, rfl⟩, rfl⟩

theorem noDots_of_undotted {segment : Text} (undotted : segment.any isUndotted = true) :
    isSingleDot segment = false ∧ isDoubleDot segment = false := by
  obtain ⟨unit, among, others⟩ := List.any_eq_true.mp undotted
  have inLower : lowerUnit unit ∈ toLowerCase segment := List.mem_map_of_mem among
  have notLower : lowerUnit unit ∉ ([37, 46, 50, 101] : List UInt16) := by
    unfold isUndotted at others
    simp only [decide_eq_true_eq, List.mem_cons, List.not_mem_nil, or_false, not_or] at others ⊢
    unfold lowerUnit
    split
    case isTrue upper =>
      simp only [Bool.and_eq_true, decide_eq_true_eq] at upper
      refine ⟨?_, ?_, ?_, ?_⟩ <;> grind
    case isFalse => exact ⟨others.1, others.2.1, others.2.2.1, others.2.2.2.2⟩
  have none : ∀ spellings : List Text, spellings.all (fun spelling => spelling.all fun other =>
      decide (other ∈ ([37, 46, 50, 101] : List UInt16))) = true →
        toLowerCase segment ∉ spellings := by
    intro spellings all isSpelling
    have inside := List.all_eq_true.mp (List.all_eq_true.mp all _ isSpelling) _ inLower
    exact notLower (of_decide_eq_true inside)
  unfold isSingleDot isDoubleDot
  rw [decide_eq_false_iff_not, decide_eq_false_iff_not]
  exact ⟨none _ (by decide), none _ (by decide)⟩

theorem path_concat (clean : Clean path) : ∃ front last, path = front ++ [last] := by
  obtain ⟨front, last, same⟩ := (List.eq_nil_or_concat path).resolve_left clean.some
  exact ⟨front, last, by rw [same, List.concat_eq_append]⟩

theorem clean_extend (clean : Clean path) {suffix : Text} (follows : IsPathSuffix suffix) :
    ∃ longer, Clean longer ∧ pathOf path ++ suffix = pathOf longer := by
  rcases follows with slash | ⟨name, plain, undotted, same | same⟩
  · refine ⟨path ++ [[]], clean.tidy.clean rfl noDots_nil, ?_⟩
    rw [slash, pathOf_append]
    rfl
  · obtain ⟨front, last, isLast⟩ := path_concat clean
    have tidy : IsTidy front := fun segment among =>
      clean.tidy segment (by rw [isLast]; exact List.mem_append_left _ among)
    have lastPlain := (clean.tidy last (by rw [isLast]; simp)).1
    refine ⟨front ++ [last ++ name], tidy.clean ?_ (noDots_of_undotted ?_), ?_⟩
    · rw [List.all_append, lastPlain, plain]
      rfl
    · rw [List.any_append, undotted, Bool.or_true]
    · rw [same, isLast, pathOf_append, pathOf_append, List.append_assoc]
      simp [pathOf]
  · refine ⟨path ++ [name], clean.tidy.clean plain (noDots_of_undotted undotted), ?_⟩
    rw [same, pathOf_append]
    simp [pathOf]

theorem cut_unique {before after last final : Text}
    (same : before ++ 47 :: last = after ++ 47 :: final) (noSlash : 47 ∉ last)
    (noSlashToo : 47 ∉ final) : before = after := by
  rcases List.append_eq_append_iff.mp same with ⟨more, longer, rest⟩ | ⟨more, longer, rest⟩
  · cases more with
    | nil => exact (longer.trans (List.append_nil _)).symm
    | cons unit others =>
      refine absurd ?_ noSlash
      rw [(List.cons.inj rest).2]
      exact List.mem_append_right _ List.mem_cons_self
  · cases more with
    | nil => exact longer.trans (List.append_nil _)
    | cons unit others =>
      refine absurd ?_ noSlashToo
      rw [(List.cons.inj rest).2]
      exact List.mem_append_right _ List.mem_cons_self

theorem withoutBreaks_plain (plain : isPlainPath text = true) : withoutBreaks text = text := by
  refine List.filter_eq_self.mpr fun unit among => ?_
  have either := List.all_eq_true.mp plain unit among
  refine decide_eq_true ⟨?_, ?_, ?_⟩ <;>
    · rintro rfl
      exact absurd either (by decide)

theorem noApp_of_reference (reference : IsPathReference text) :
    startsWith text (js "app:") = false := by
  refine Bool.eq_false_iff.mpr fun starts => ?_
  obtain ⟨rest, same⟩ := startsWith_iff.mp starts
  have among : (58 : UInt16) ∈ text.takeWhile fun unit => unit ≠ 47 := by
    rw [← same]
    exact List.mem_cons_of_mem _
      (List.mem_cons_of_mem _ (List.mem_cons_of_mem _ List.mem_cons_self))
  exact (reference.noScheme 58 among).1 rfl

theorem plainUrls_standard : plainUrls.Standard id where
  plain _ _ := rfl
  dots _ := ⟨id, id⟩
  reparse text base url parsed := by
    obtain ⟨host, path, isUrl, same⟩ := plainUrl_of_parseWith parsed
    rw [same]
    exact canonical_plainUrl isUrl
  relative text base url target isUrl hierarchical reference parsed := by
    rw [plainUrls_parse, if_neg (by rw [noApp_of_reference reference]; exact Bool.false_ne_true)]
      at parsed
    obtain ⟨host, path, isPlain, same⟩ := plainUrl_of_parse isUrl
    have absolute : parseAbsolute base = some url := by
      rw [plainUrls_parse] at isUrl
      split at isUrl
      · exact isUrl
      · cases isUrl
    obtain ⟨_, isBase, rest⟩ := Option.bind_eq_some_iff.mp parsed
    rw [← Option.some.inj isBase] at rest
    obtain ⟨_, isFrom, relative⟩ := Option.bind_eq_some_iff.mp rest
    rw [← Option.some.inj (absolute.symm.trans isFrom)] at relative
    unfold parseRelative at relative
    split at relative
    case isTrue => cases relative
    case isFalse fine =>
      simp only [not_or, not_not] at fine
      split at relative
      case isTrue slash =>
        -- A reference to a path opens with a plain character.
        obtain ⟨unit, opens, plain⟩ := reference.opens
        obtain ⟨behind, spelled⟩ := startsWith_iff.mp slash
        rw [← spelled] at opens
        cases opens
        exact absurd plain (by decide)
      case isFalse =>
        rw [← Option.some.inj relative, same]
        refine ⟨⟨rfl, rfl, rfl, rfl⟩, ?_⟩
        rw [withoutBreaks_plain fine.2.1, List.map_id]
        show pathOf (appendPlain _ _) = pathOf
          (appendSegments (js "app:") (shortenPath (js "app:") _) _)
        rw [shortenPath_app]
        rfl
  clearQuery url canonical _ := ⟨canonical, ⟨rfl, rfl, rfl, rfl⟩, rfl⟩
  cutPath url before last canonical _ splits noSlash := by
    obtain ⟨host, path, isUrl, same⟩ := plainUrl_of_canonical canonical
    obtain ⟨front, final, isLast⟩ := path_concat isUrl.clean
    have tidy : IsTidy front := fun segment among =>
      isUrl.clean.tidy segment (by rw [isLast]; exact List.mem_append_left _ among)
    have cuts : before = pathOf front := by
      rw [same] at splits
      have spelled : pathOf front ++ 47 :: final = before ++ 47 :: last := by
        rw [← splits, isLast]
        show _ = pathOf (front ++ [final])
        rw [pathOf_append]
        simp [pathOf]
      exact (cut_unique spelled (noSlash_of_plain (isUrl.clean.tidy final
        (by rw [isLast]; simp)).1) noSlash).symm
    rw [same, cuts]
    have joined : pathOf front ++ [47] = pathOf (front ++ [[]]) := by
      rw [pathOf_append]
      rfl
    rw [joined]
    exact setPathname_plainUrl isUrl (tidy.clean rfl noDots_nil)
  extendPath url suffix canonical _ follows := by
    obtain ⟨host, path, isUrl, same⟩ := plainUrl_of_canonical canonical
    obtain ⟨longer, clean, joined⟩ := clean_extend isUrl.clean follows
    have pathname : (plainUrl host path).pathname = pathOf path := rfl
    rw [same, pathname, joined]
    exact setPathname_plainUrl isUrl clean
  spelled url other canonical also _ _ sameOrigin starts := by
    obtain ⟨host, path, isUrl, same⟩ := plainUrl_of_canonical canonical
    obtain ⟨otherHost, otherPath, isOther, sameToo⟩ := plainUrl_of_canonical also
    rw [same, sameToo] at sameOrigin starts ⊢
    have hosts : host = otherHost := sameOrigin.2.2.2
    rw [startsWith_iff] at starts ⊢
    have spelled : js "app://" ++ otherHost ++ pathOf otherPath <+:
      js "app://" ++ host ++ pathOf path :=
      starts
    rw [hosts] at spelled
    exact (List.prefix_append_right_inj _).mp spelled
  hierarchical url canonical _ := by
    obtain ⟨host, path, isUrl, same⟩ := plainUrl_of_canonical canonical
    rw [same]
    exact .inr (head_pathOf isUrl.clean.some)

end Parsing

end Holonomy.Modules
