/-
  Which of the composite names that apply to a tag is taken.

  * `Matching`: a way in which a composite name applies to the last tag of a path.
  * `Match.beats_iff`: the ranking of matches is a lexicographic order.
  * `Matching.IsPreferred`: of the ways in which one name applies, the one that is ranked: a
    contiguous one, or else the nearest.
  * `resolve_ofNames`: a template is found exactly if a composite name applies. It ranks above all
    others, each of them with its preferred matching; with any matching, if no ancestor contains the
    separator.
  * `exists_resolve_not_isBest`: for other paths it may rank below a matching that is not preferred.
-/
import ComponentMarkup.Proofs.CatalogNames
import ComponentMarkup.Proofs.GroupMatching

namespace ComponentMarkup

/-- A way in which a composite name applies to the last tag of a path: some last segments are the
tag, and the ones before, of which there are some, name ancestors. -/
structure Matching (separator : String) (entry : Composite) (path : List String) where
  ancestors : List String
  tag : String
  /-- The segments that name ancestors. -/
  front : List String
  /-- The segments that are the tag. -/
  suffix : List String
  /-- The positions of the named ancestors, from the outermost one. -/
  positions : List Nat
  ancestors_concat : ancestors ++ [tag] = path
  front_append : front ++ suffix = entry.segments
  front_ne_nil : front ≠ []
  suffix_ne_nil : suffix ≠ []
  join_suffix : separator.intercalate suffix = tag
  names : Names separator ancestors front positions

namespace Matching

variable {separator tag : String} {entry : Composite} {path above front suffix : List String}
  {positions : List Nat} {m : Match}

theorem positions_ne_nil (M : Matching separator entry path) : M.positions ≠ [] := by
  intro h
  have hn := M.names
  rw [h] at hn
  exact M.front_ne_nil (names_positions_nil_iff.1 hn)

/-- The named ancestors stand directly above the tag and above each other. -/
def contiguous (M : Matching separator entry path) : Bool :=
  decide (IsAdjacent M.ancestors.length M.positions)

/-- The position of the outermost named ancestor. -/
def start (M : Matching separator entry path) : Nat := M.positions.head M.positions_ne_nil

theorem start_le (M : Matching separator entry path) : ∀ p ∈ M.positions, M.start ≤ p := by
  intro p hp
  have hpairwise := M.names.1
  rw [← List.cons_head_tail M.positions_ne_nil] at hp hpairwise
  rcases List.mem_cons.1 hp with rfl | hp
  · exact Nat.le_refl _
  · exact Nat.le_of_lt ((List.pairwise_cons.1 hpairwise).1 p hp)

/-- What the ranking compares. -/
def toMatch (M : Matching separator entry path) : Match := ⟨entry, M.contiguous, M.start⟩

/-- It is contiguous, or no way is and it is the nearest one, compared from the tag outwards. -/
def IsPreferred (M : Matching separator entry path) : Prop :=
  M.contiguous = true ∨ ∀ other : Matching separator entry path,
    other.contiguous = false ∧ ¬ IsNearer other.positions M.positions

/-- Two ways in which a composite name applies differ in the named ancestors only. -/
theorem eq_of_path (hs : separator ≠ "") (M other : Matching separator entry path) :
    M.ancestors = other.ancestors ∧ M.tag = other.tag ∧ M.front = other.front := by
  obtain ⟨hancestors, htag⟩ :=
    List.append_inj' (M.ancestors_concat.trans other.ancestors_concat.symm) rfl
  have htag := List.singleton_inj.1 htag
  refine ⟨hancestors, htag, ?_⟩
  refine (append_inj_of_join hs M.suffix_ne_nil other.suffix_ne_nil
    (M.front_append.trans other.front_append.symm) ?_).1
  rw [M.join_suffix, other.join_suffix, htag]

/-- No way starts nearer to the tag than the nearest ancestor that the search finds. -/
theorem start_le_of_matchGroups (hs : separator ≠ "") (M : Matching separator entry path)
    {before : List Nat} {p : Nat}
    (h : matchGroups separator false M.front M.ancestors.reverse = some (before ++ [p])) :
    M.start ≤ p := by
  have hnot := (isNearest_matchGroups hs h).2 M.positions
    ((List.reverse_reverse M.ancestors).symm ▸ M.names)
  obtain ⟨init, last, hlast⟩ :=
    (List.eq_nil_or_concat M.positions).resolve_left M.positions_ne_nil
  have hle := M.start_le last (by rw [hlast]; simp)
  rw [hlast, List.concat_eq_append, isNearer_concat_iff] at hnot
  omega

theorem contiguous_iff (hs : separator ≠ "") (M : Matching separator entry path) :
    M.contiguous = true ↔
      matchGroups separator true M.front M.ancestors.reverse = some M.positions := by
  rw [matchGroups_true_iff hs, List.reverse_reverse, List.length_reverse, contiguous,
    decide_eq_true_iff, and_iff_right M.names]

/-- The preferred way is the only one. -/
theorem positions_eq_of_isPreferred (hs : separator ≠ "") {M other : Matching separator entry path}
    (h : M.IsPreferred) (hother : other.IsPreferred) : M.positions = other.positions := by
  rcases h with h | h
  · rcases hother with hother | hother
    · rw [contiguous_iff hs] at h hother
      obtain ⟨hancestors, -, hfront⟩ := eq_of_path hs M other
      rw [hancestors, hfront, hother] at h
      exact Option.some_inj.1 h.symm
    · rw [(hother M).1] at h
      cases h
  · rcases hother with hother | hother
    · rw [(h other).1] at hother
      cases hother
    · exact eq_of_not_isNearer (hother M).2 (h other).2

theorem toMatch_eq_of_isPreferred (hs : separator ≠ "") {M other : Matching separator entry path}
    (h : M.IsPreferred) (hother : other.IsPreferred) : M.toMatch = other.toMatch := by
  have hpositions := positions_eq_of_isPreferred hs h hother
  have hstart : M.start = other.start := by simp only [start, hpositions]
  have hcontiguous : M.contiguous = other.contiguous := by
    rw [contiguous, contiguous, hpositions, (eq_of_path hs M other).1]
  rw [toMatch, toMatch, hstart, hcontiguous]

/-! ## The search for a matching -/

/-- The search with the segments that are the tag. -/
theorem find?_of_join (hs : separator ≠ "") (hf : front ≠ []) (hg : suffix ≠ [])
    (hsegments : front ++ suffix = entry.segments) (above : List String) :
    Match.find? separator entry (separator.intercalate suffix) above =
      ((matchGroups separator true front above).map fun positions =>
          (⟨entry, true, positions.head?.getD above.length⟩ : Match)).or
        ((matchGroups separator false front above).map fun positions =>
          (⟨entry, false, positions.head?.getD above.length⟩ : Match)) := by
  rw [Match.find?, ← hsegments, findSome?_eq_of_mem (mem_endSplits.2 ⟨hg, rfl⟩)]
  · dsimp only
    rw [List.isEmpty_eq_false_iff.2 hf, if_pos (by simp)]
  · rintro ⟨front', suffix'⟩ hm hother
    obtain ⟨hg', happ⟩ := mem_endSplits.1 hm
    refine if_neg fun h => hother ?_
    rw [Bool.and_eq_true, decide_eq_true_iff] at h
    obtain ⟨rfl, rfl⟩ := append_inj_of_join hs hg' hg happ h.2
    rfl

/-- A name that applies is found. -/
theorem isSome_find? (hs : separator ≠ "") (M : Matching separator entry (above.reverse ++ [tag])) :
    (Match.find? separator entry tag above).isSome = true := by
  obtain ⟨hancestors, htag⟩ := List.append_inj' M.ancestors_concat rfl
  have hjoin := M.join_suffix.trans (List.singleton_inj.1 htag)
  have hn := M.names
  rw [hancestors] at hn
  rw [← hjoin, find?_of_join hs M.front_ne_nil M.suffix_ne_nil M.front_append, Option.isSome_or,
    Option.isSome_map, Option.isSome_map, Bool.or_eq_true]
  exact .inr (isSome_matchGroups hs hn)

theorem head?_getD_positions (M : Matching separator entry path) (n : Nat) :
    M.positions.head?.getD n = M.start := by
  rw [List.head?_eq_some_head M.positions_ne_nil]
  rfl

/-- A contiguous matching comes from the adjacent search. -/
theorem exists_of_matchGroups_true (hs : separator ≠ "") (hf : front ≠ []) (hg : suffix ≠ [])
    (hsegments : front ++ suffix = entry.segments) (htag : separator.intercalate suffix = tag)
    (h : matchGroups separator true front above = some positions) :
    ∃ M : Matching separator entry (above.reverse ++ [tag]), M.IsPreferred ∧
      M.toMatch = ⟨entry, true, positions.head?.getD above.length⟩ := by
  obtain ⟨hn, hadjacent⟩ := (matchGroups_true_iff hs).1 h
  rw [← List.length_reverse] at hadjacent
  let M : Matching separator entry (above.reverse ++ [tag]) :=
    ⟨above.reverse, tag, front, suffix, positions, rfl, hsegments, hf, hg, htag, hn⟩
  have hcontiguous : M.contiguous = true := decide_eq_true hadjacent
  refine ⟨M, .inl hcontiguous, ?_⟩
  rw [toMatch, hcontiguous, ← M.head?_getD_positions above.length]

/-- Without a contiguous one, the nearest matching comes from the other search. -/
theorem exists_of_matchGroups_false (hs : separator ≠ "") (hf : front ≠ []) (hg : suffix ≠ [])
    (hsegments : front ++ suffix = entry.segments) (htag : separator.intercalate suffix = tag)
    (hnone : matchGroups separator true front above = none)
    (h : matchGroups separator false front above = some positions) :
    ∃ M : Matching separator entry (above.reverse ++ [tag]), M.IsPreferred ∧
      M.toMatch = ⟨entry, false, positions.head?.getD above.length⟩ := by
  obtain ⟨hn, hnearest⟩ := isNearest_matchGroups hs h
  let M : Matching separator entry (above.reverse ++ [tag]) :=
    ⟨above.reverse, tag, front, suffix, positions, rfl, hsegments, hf, hg, htag, hn⟩
  have hothers : ∀ other : Matching separator entry (above.reverse ++ [tag]),
      other.contiguous = false ∧ ¬ IsNearer other.positions M.positions := by
    intro other
    obtain ⟨hancestors, -, hfront⟩ := eq_of_path hs other M
    constructor
    · rw [← Bool.not_eq_true, contiguous_iff hs, hancestors, hfront, List.reverse_reverse, hnone]
      exact Option.some_ne_none _ ∘ Eq.symm
    · have hother := other.names
      rw [hancestors, hfront] at hother
      exact hnearest other.positions hother
  refine ⟨M, .inr hothers, ?_⟩
  rw [toMatch, (hothers M).1, ← M.head?_getD_positions above.length]

/-- **What is found is a preferred matching.** -/
theorem exists_of_find? (hs : separator ≠ "")
    (h : Match.find? separator entry tag above = some m) :
    ∃ M : Matching separator entry (above.reverse ++ [tag]), M.IsPreferred ∧ M.toMatch = m := by
  obtain ⟨⟨front, suffix⟩, hm, hfound⟩ := List.exists_of_findSome?_eq_some h
  obtain ⟨hg, hsegments⟩ := mem_endSplits.1 hm
  dsimp only at hfound
  split at hfound
  next hcond =>
    rw [Bool.and_eq_true, Bool.not_eq_true', List.isEmpty_eq_false_iff, decide_eq_true_iff] at hcond
    obtain ⟨hf, htag⟩ := hcond
    rw [Option.or_eq_some_iff, Option.map_eq_some_iff, Option.map_eq_none_iff,
      Option.map_eq_some_iff] at hfound
    rcases hfound with ⟨positions, hpositions, rfl⟩ | ⟨hnone, positions, hpositions, rfl⟩
    · exact exists_of_matchGroups_true hs hf hg hsegments htag hpositions
    · exact exists_of_matchGroups_false hs hf hg hsegments htag hnone hpositions
  next => cases hfound

theorem find?_eq_some_iff (hs : separator ≠ "") : Match.find? separator entry tag above = some m ↔
    ∃ M : Matching separator entry (above.reverse ++ [tag]), M.IsPreferred ∧ M.toMatch = m := by
  refine ⟨exists_of_find? hs, ?_⟩
  rintro ⟨M, hM, rfl⟩
  obtain ⟨m, hm⟩ := Option.isSome_iff_exists.1 (isSome_find? hs M)
  obtain ⟨found, hfound, rfl⟩ := exists_of_find? hs hm
  rw [hm, toMatch_eq_of_isPreferred hs hM hfound]

/-- A name that applies has a preferred matching. -/
theorem exists_isPreferred (hs : separator ≠ "") (M : Matching separator entry path) :
    ∃ other : Matching separator entry path, other.IsPreferred := by
  obtain ⟨ancestors, tag, rfl⟩ : ∃ ancestors tag, path = ancestors ++ [tag] :=
    ⟨_, _, M.ancestors_concat.symm⟩
  rw [← List.reverse_reverse ancestors] at M ⊢
  obtain ⟨m, hm⟩ := Option.isSome_iff_exists.1 (isSome_find? hs M)
  obtain ⟨other, hother, -⟩ := exists_of_find? hs hm
  exact ⟨other, hother⟩

end Matching

/-! ## The ranking -/

namespace Match

/-- What the ranking compares, the more important first. -/
def rank (m : Match) : ℕ ×ₗ Bool ×ₗ ℕ ×ₗ Stringᵒᵈ :=
  toLex (m.entry.specificity, toLex (m.contiguous, toLex (m.start, OrderDual.toDual m.entry.name)))

theorem beats_iff (a b : Match) : a.beats b = true ↔ b.rank < a.rank := by
  simp only [beats, rank, Bool.or_eq_true, Bool.and_eq_true, decide_eq_true_eq, beq_iff_eq,
    Bool.not_eq_true', Prod.Lex.toLex_lt_toLex, OrderDual.toDual_lt_toDual, Bool.lt_iff]
  grind

theorem foldl_beats (ms : List Match) (m : Match) :
    ms.foldl (fun best m => if best.beats m then best else m) m ∈ m :: ms ∧
      ∀ other ∈ m :: ms,
        other.rank ≤ (ms.foldl (fun best m => if best.beats m then best else m) m).rank := by
  induction ms generalizing m with
  | nil => exact ⟨List.mem_singleton_self m, fun other h => by rw [List.mem_singleton.1 h]; rfl⟩
  | cons next ms ih =>
    rw [List.foldl_cons]
    -- the better one of two is one of them and ranks above both
    have hstep : ∃ best, (if m.beats next then m else next) = best ∧ (best = m ∨ best = next) ∧
        m.rank ≤ best.rank ∧ next.rank ≤ best.rank := by
      by_cases h : m.beats next = true
      · exact ⟨m, if_pos h, .inl rfl, le_rfl, ((beats_iff ..).1 h).le⟩
      · exact ⟨next, if_neg h, .inr rfl, not_lt.1 fun hlt => h ((beats_iff ..).2 hlt), le_rfl⟩
    obtain ⟨best, hbest, hone, hm, hnext⟩ := hstep
    rw [hbest]
    obtain ⟨hmem, hall⟩ := ih best
    have htop := hall best (List.mem_cons_self ..)
    refine ⟨?_, fun other hother => ?_⟩
    · rcases List.mem_cons.1 hmem with h | h
      · rw [h]
        rcases hone with rfl | rfl <;> simp
      · exact List.mem_cons_of_mem _ (List.mem_cons_of_mem _ h)
    · rcases List.mem_cons.1 hother with rfl | hother
      · exact hm.trans htop
      rcases List.mem_cons.1 hother with rfl | hother
      · exact hnext.trans htop
      · exact hall other (List.mem_cons_of_mem _ hother)

/-- **The best match** is one of them, and none ranks above it. -/
theorem mem_of_best? {ms : List Match} {m : Match} (h : best? ms = some m) :
    m ∈ ms ∧ ∀ other ∈ ms, other.rank ≤ m.rank := by
  cases ms with
  | nil => cases h
  | cons first rest =>
    cases h
    exact foldl_beats rest first

theorem best?_eq_none_iff {ms : List Match} : best? ms = none ↔ ms = [] := by
  cases ms <;> simp [best?]

/-- Of two matches of different names, one ranks above the other. -/
theorem beats_of_rank_le {a b : Match} (hname : b.entry.name ≠ a.entry.name)
    (h : b.rank ≤ a.rank) : a.beats b = true := by
  refine (beats_iff ..).2 (lt_of_le_of_ne h fun heq => hname ?_)
  have hparts := congrArg ofLex heq
  simp only [rank, ofLex_toLex, Prod.mk.injEq, toLex_inj, OrderDual.toDual_inj] at hparts
  exact hparts.2.2.2

end Match

namespace Matching

variable {separator : String} {entry : Composite} {path : List String}

/-- What the search finds, if no matching is contiguous, has the preferred positions. -/
theorem matchGroups_eq_of_isNearest (hs : separator ≠ "")
    {preferred : Matching separator entry path}
    (h : ∀ other : Matching separator entry path,
      ¬ IsNearer other.positions preferred.positions) :
    matchGroups separator false preferred.front preferred.ancestors.reverse =
      some preferred.positions := by
  obtain ⟨positions, hpositions⟩ := Option.isSome_iff_exists.1 <|
    isSome_matchGroups hs ((List.reverse_reverse preferred.ancestors).symm ▸ preferred.names)
  obtain ⟨hn, hnearest⟩ := isNearest_matchGroups hs hpositions
  rw [List.reverse_reverse] at hn hnearest
  have hfound : positions = preferred.positions :=
    eq_of_not_isNearer (h { preferred with positions := positions, names := hn })
      (hnearest preferred.positions preferred.names)
  rw [hpositions, hfound]

/-- A preferred matching ranks above the others of the same name, if no separator splits an
ancestor. -/
theorem rank_le_of_isPreferred (hs : separator ≠ "")
    (hfree : ∀ name ∈ path.dropLast, Catalog.splits separator name = false)
    (M : Matching separator entry path) {preferred : Matching separator entry path}
    (h : preferred.IsPreferred) : M.toMatch.rank ≤ preferred.toMatch.rank := by
  rcases h with h | h
  · by_cases hM : M.contiguous = true
    · rw [toMatch_eq_of_isPreferred hs (.inl hM) (.inl h)]
    · rw [Bool.not_eq_true] at hM
      rw [Match.rank, Match.rank, toMatch, toMatch, hM, h, Prod.Lex.toLex_le_toLex,
        Prod.Lex.toLex_le_toLex]
      exact .inr ⟨rfl, .inl rfl⟩
  · have hcontiguous : M.contiguous = preferred.contiguous := by rw [(h M).1, (h preferred).1]
    obtain ⟨hancestors, -, hfront⟩ := eq_of_path hs M preferred
    have hnames := M.names
    rw [hancestors, hfront, ← List.reverse_reverse preferred.ancestors] at hnames
    have hpath : path.dropLast = preferred.ancestors :=
      (congrArg List.dropLast preferred.ancestors_concat).symm.trans List.dropLast_concat
    have hstart : M.start ≤ preferred.start := by
      refine head_le_head (forall₂_le_matchGroups hs (fun name hm => hfree name ?_)
        (matchGroups_eq_of_isNearest hs fun other => (h other).2) hnames) ..
      rw [hpath]
      exact List.mem_reverse.1 hm
    rw [Match.rank, Match.rank, toMatch, toMatch, hcontiguous, Prod.Lex.toLex_le_toLex,
      Prod.Lex.toLex_le_toLex, Prod.Lex.toLex_le_toLex]
    refine .inr ⟨rfl, .inr ⟨rfl, ?_⟩⟩
    rcases Nat.lt_or_eq_of_le hstart with hlt | heq
    · exact .inl hlt
    · exact .inr ⟨heq, le_rfl⟩

end Matching

/-! ## Catalogs -/

namespace Catalog

variable {catalog : Catalog} {separator name : String} {path : List String} {entry : Composite}
  {m : Match}

/-- Every composite name is split by the separator, and its spelling determines its segments. -/
def IsSplit (catalog : Catalog) : Prop :=
  ∀ entry ∈ catalog.composites, splits catalog.separator entry.name = true ∧
    entry = .ofName catalog.separator entry.name

/-- **The catalog of any names** has composite names only that the separator splits. -/
theorem isSplit_ofNames (separator : String) (names : List String) :
    (ofNames separator names).IsSplit := by
  intro entry hm
  obtain ⟨name, -, -, hs, rfl⟩ := of_mem_composites hm
  rw [separator_ofNames]
  exact ⟨hs, rfl⟩

theorem IsSplit.separator_ne (h : catalog.IsSplit) (hm : entry ∈ catalog.composites) :
    catalog.separator ≠ "" := by
  have hsplits := (h entry hm).1
  rw [splits, Bool.and_eq_true, bne_iff_ne] at hsplits
  exact hsplits.1

theorem mem_matchesFor (h : catalog.IsSplit) : m ∈ catalog.matchesFor path ↔
    ∃ entry ∈ catalog.composites,
      ∃ M : Matching catalog.separator entry (path.map Text.lowercase),
        M.IsPreferred ∧ M.toMatch = m := by
  unfold matchesFor
  split
  next hnil =>
    rw [List.reverse_eq_nil_iff] at hnil
    refine iff_of_false List.not_mem_nil ?_
    rintro ⟨entry, -, M, -⟩
    exact List.append_ne_nil_of_right_ne_nil _ (List.cons_ne_nil _ _)
      (M.ancestors_concat.trans hnil)
  next tag above hcons =>
    rw [List.reverse_eq_cons_iff] at hcons
    rw [hcons, List.mem_filterMap]
    refine exists_congr fun entry => and_congr_right fun hm => ?_
    exact Matching.find?_eq_some_iff (h.separator_ne hm)

theorem value_resolve (catalog : Catalog) (path : List String) :
    (catalog.resolve path).value = (Match.best? (catalog.matchesFor path)).map (·.entry) := by
  unfold resolve
  cases Match.best? (catalog.matchesFor path) <;> rfl

theorem mem_composites_of_resolve (h : catalog.IsSplit)
    (hresolve : (catalog.resolve path).value = some entry) : entry ∈ catalog.composites := by
  rw [value_resolve] at hresolve
  obtain ⟨m, hbest, rfl⟩ := Option.map_eq_some_iff.1 hresolve
  obtain ⟨entry, hentry, M, -, rfl⟩ := (mem_matchesFor h).1 (Match.mem_of_best? hbest).1
  exact hentry

/-- The composite names and their separator are all that counts. -/
theorem value_resolve_congr {other : Catalog} (hs : other.separator = catalog.separator)
    (hc : other.composites = catalog.composites) (path : List String) :
    (other.resolve path).value = (catalog.resolve path).value := by
  rw [value_resolve, value_resolve, matchesFor, matchesFor, hs, hc]

/-- A composite name has a matching, of those that count, that ranks above the ones of all other
names, and no lower than another one of its own. -/
def IsBest (catalog : Catalog) (path : List String)
    (counts : ∀ {entry : Composite}, Matching catalog.separator entry path → Prop)
    (entry : Composite) : Prop :=
  entry ∈ catalog.composites ∧ ∃ M : Matching catalog.separator entry path, counts M ∧
    ∀ other ∈ catalog.composites, ∀ M' : Matching catalog.separator other path, counts M' →
      M.toMatch.beats M'.toMatch = true ∨ other = entry ∧ M'.toMatch.beats M.toMatch = false

theorem isBest_of_rank_le (h : catalog.IsSplit)
    {counts : ∀ {entry : Composite}, Matching catalog.separator entry path → Prop}
    (hm : entry ∈ catalog.composites) (M : Matching catalog.separator entry path) (hM : counts M)
    (hall : ∀ other ∈ catalog.composites, ∀ M' : Matching catalog.separator other path,
      counts M' → M'.toMatch.rank ≤ M.toMatch.rank) : catalog.IsBest path counts entry := by
  refine ⟨hm, M, hM, fun other hother M' hM' => ?_⟩
  have hle := hall other hother M' hM'
  by_cases hname : other.name = entry.name
  · refine .inr ⟨?_, ?_⟩
    · rw [(h other hother).2, (h entry hm).2, hname]
    · rw [← Bool.not_eq_true, Match.beats_iff]
      exact not_lt.2 hle
  · exact .inl (Match.beats_of_rank_le hname hle)

/-- **The composite template for a tag.** There is one exactly if a composite name applies to the
path, in any case of its letters. It is the best name when each one counts with its preferred
matching, and when each counts with all of them if no separator splits an ancestor. -/
theorem resolve_ofNames (separator : String) (names path : List String) :
    let catalog := ofNames separator names
    let tags := path.map Text.lowercase
    ((catalog.resolve path).value = none ↔
      ∀ entry ∈ catalog.composites, IsEmpty (Matching catalog.separator entry tags)) ∧
    ∀ entry, (catalog.resolve path).value = some entry →
      catalog.IsBest tags Matching.IsPreferred entry ∧
      ((∀ name ∈ tags.dropLast, splits catalog.separator name = false) →
        catalog.IsBest tags (fun _ => True) entry) := by
  intro catalog tags
  have hsplit : catalog.IsSplit := isSplit_ofNames separator names
  rw [value_resolve]
  refine ⟨?_, fun entry h => ?_⟩
  · rw [Option.map_eq_none_iff, Match.best?_eq_none_iff, List.eq_nil_iff_forall_not_mem]
    constructor
    · intro h entry hm
      refine ⟨fun M => ?_⟩
      obtain ⟨preferred, hp⟩ := Matching.exists_isPreferred (hsplit.separator_ne hm) M
      exact h _ ((mem_matchesFor hsplit).2 ⟨entry, hm, preferred, hp, rfl⟩)
    · intro h m hm
      obtain ⟨entry, hentry, M, -⟩ := (mem_matchesFor hsplit).1 hm
      exact (h entry hentry).false M
  · obtain ⟨m, hbest, rfl⟩ := Option.map_eq_some_iff.1 h
    obtain ⟨hm, hall⟩ := Match.mem_of_best? hbest
    obtain ⟨entry, hentry, M, hM, rfl⟩ := (mem_matchesFor hsplit).1 hm
    have hpreferred : ∀ other ∈ catalog.composites, ∀ M' : Matching catalog.separator other tags,
        M'.IsPreferred → M'.toMatch.rank ≤ M.toMatch.rank := fun other hother M' hM' =>
      hall _ ((mem_matchesFor hsplit).2 ⟨other, hother, M', hM', rfl⟩)
    refine ⟨isBest_of_rank_le hsplit hentry M hM hpreferred, fun hfree => ?_⟩
    refine isBest_of_rank_le hsplit hentry M trivial fun other hother M' _ => ?_
    have hs := hsplit.separator_ne hother
    obtain ⟨preferred, hp⟩ := Matching.exists_isPreferred hs M'
    exact (Matching.rank_le_of_isPreferred hs hfree M' hp).trans (hpreferred other hother _ hp)

/-- A match that starts later may lose. The search takes the nearest ancestors first, here `b` and
then `a`, and does not go on to `a-b`, which alone names both segments. -/
theorem exists_resolve_not_isBest :
    let catalog := ofNames "-" ["a-b-t", "c-d-t"]
    let path := ["a", "c-d", "a-b", "b", "t"]
    ∃ entry, (catalog.resolve path).value = some entry ∧
      ¬ catalog.IsBest (path.map Text.lowercase) (fun _ => True) entry := by
  intro catalog path
  let best : Composite := ⟨"a-b-t", ["a", "b", "t"]⟩
  let found : Composite := ⟨"c-d-t", ["c", "d", "t"]⟩
  have hcomposites : catalog.composites = [best, found] := by
    have hadd : (["a-b-t", "c-d-t"].foldl add ⟨"-", ∅, []⟩).composites = [best, found] := by
      decide +kernel
    change List.mergeSort _ Composite.precedes = _
    rw [hadd]
    exact List.mergeSort_of_pairwise (by decide)
  have hseparator : catalog.separator = "-" := by decide +kernel
  have hpath : ["a", "c-d", "a-b", "b"] ++ ["t"] = path.map Text.lowercase := by decide +kernel
  have hresolve : (catalog.resolve path).value = some found := by
    rw [value_resolve, matchesFor, hcomposites, hseparator]
    decide +kernel
  refine ⟨found, hresolve, ?_⟩
  rintro ⟨-, M, -, hall⟩
  have hbest : best ∈ catalog.composites := hcomposites ▸ List.mem_cons_self ..
  -- the better name applies with its first two segments in one ancestor
  let later : Matching catalog.separator best (path.map Text.lowercase) :=
    ⟨_, _, ["a", "b"], ["t"], [2], hpath, rfl, by simp, by simp, by decide,
      by simp, [["a", "b"]], by simp, rfl, by decide⟩
  let nearest : Matching catalog.separator found (path.map Text.lowercase) :=
    ⟨_, _, ["c", "d"], ["t"], [1], hpath, rfl, by simp, by simp, by decide,
      by simp, [["c", "d"]], by simp, rfl, by decide⟩
  have hs : catalog.separator ≠ "" := (isSplit_ofNames _ _).separator_ne hbest
  obtain ⟨hancestors, -, hfront⟩ := Matching.eq_of_path hs M nearest
  have hcontiguous : M.contiguous = false := by
    rw [← Bool.not_eq_true, Matching.contiguous_iff hs, hancestors, hfront]
    have hnone : matchGroups "-" true ["c", "d"] ["b", "a-b", "c-d", "a"] = none := by decide
    exact fun h => Option.some_ne_none _ (h.symm.trans hnone)
  have hstart : M.start ≤ 1 := by
    have hnearest : matchGroups catalog.separator false nearest.front nearest.ancestors.reverse =
        some ([] ++ [1]) :=
      show matchGroups "-" false ["c", "d"] ["b", "a-b", "c-d", "a"] = some [1] by decide
    rw [← hancestors, ← hfront] at hnearest
    exact M.start_le_of_matchGroups hs hnearest
  rcases hall best hbest later trivial with h | ⟨h, -⟩
  · have hlater : later.toMatch = ⟨best, false, 2⟩ := by rfl
    have hfound : M.toMatch = ⟨found, false, M.start⟩ := by rw [Matching.toMatch, hcontiguous]
    have heq : found.specificity = best.specificity := rfl
    rw [hlater, hfound] at h
    simp only [Match.beats, heq, Nat.lt_irrefl, decide_false, beq_self_eq_true, Bool.not_false,
      Bool.and_true, Bool.true_and, Bool.false_or, Bool.or_eq_true, Bool.and_eq_true,
      decide_eq_true_eq, beq_iff_eq] at h
    omega
  · exact absurd h (by decide)

end Catalog

end ComponentMarkup
