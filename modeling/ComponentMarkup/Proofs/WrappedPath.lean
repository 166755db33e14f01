/-
  Composite names that apply to a tag, and to the same tag with more ancestors around it.

  * `NamesUpTo`: what a search for ancestors looks for; `isSome_matchGroups_iff` and
    `names_of_matchGroups` say that it finds nothing else and misses nothing.
  * `isSome_find?_iff`: a name is found exactly if it has a matching; `contiguous_iff_of_find?` says
    for which ones a contiguous matching is found.
  * `Names.of_sublist`, `Names.of_append`: the ancestors that segments name along a longer path.
  * `resolve_of_sublist`: more ancestors never lead to a less specific template, and ancestors
    around the whole path do not lead away from contiguous ones.
-/
import Mathlib.Data.List.NodupEquivFin
import ComponentMarkup.Proofs.TemplateRanking

namespace ComponentMarkup

variable {separator tag : String} {ancestors above wrapped segments : List String}
  {positions : List Nat} {adjacent : Bool} {entry : Composite} {m : Match}

/-! ## What the searches find -/

/-- The segments name the ancestors at the positions. If `adjacent`, these run up to the tag. -/
def NamesUpTo (separator : String) (adjacent : Bool) (ancestors segments : List String)
    (positions : List Nat) : Prop :=
  Names separator ancestors segments positions ∧
    (adjacent = true → IsAdjacent ancestors.length positions)

theorem names_of_matchGroups (hs : separator ≠ "")
    (h : matchGroups separator adjacent segments ancestors.reverse = some positions) :
    NamesUpTo separator adjacent ancestors segments positions := by
  cases adjacent with
  | true =>
    have hiff := (matchGroups_true_iff hs).1 h
    rw [List.reverse_reverse, List.length_reverse] at hiff
    exact ⟨hiff.1, fun _ => hiff.2⟩
  | false =>
    have hn := (isNearest_matchGroups hs h).1
    rw [List.reverse_reverse] at hn
    exact ⟨hn, fun hadjacent => absurd hadjacent Bool.false_ne_true⟩

theorem isSome_matchGroups_iff (hs : separator ≠ "") :
    (matchGroups separator adjacent segments ancestors.reverse).isSome = true ↔
      ∃ positions, NamesUpTo separator adjacent ancestors segments positions := by
  constructor
  · intro h
    obtain ⟨positions, hpositions⟩ := Option.isSome_iff_exists.1 h
    exact ⟨positions, names_of_matchGroups hs hpositions⟩
  · rintro ⟨positions, hn, hadjacent⟩
    rw [← List.reverse_reverse ancestors] at hn
    cases adjacent with
    | true =>
      have hrun := hadjacent rfl
      rw [← List.length_reverse] at hrun
      exact Option.isSome_iff_exists.2 ⟨positions, (matchGroups_true_iff hs).2 ⟨hn, hrun⟩⟩
    | false => exact isSome_matchGroups hs hn

namespace Matching

theorem isSome_find?_iff (hs : separator ≠ "") :
    (Match.find? separator entry tag ancestors.reverse).isSome = true ↔
      Nonempty (Matching separator entry (ancestors ++ [tag])) := by
  constructor
  · intro h
    obtain ⟨m, hm⟩ := Option.isSome_iff_exists.1 h
    obtain ⟨M, -⟩ := exists_of_find? hs hm
    rw [List.reverse_reverse] at M
    exact ⟨M⟩
  · rintro ⟨M⟩
    rw [← List.reverse_reverse ancestors] at M
    exact isSome_find? hs M

theorem contiguous_iff_of_find? (hs : separator ≠ "")
    (h : Match.find? separator entry tag ancestors.reverse = some m) :
    m.entry = entry ∧ (m.contiguous = true ↔
      ∃ M : Matching separator entry (ancestors ++ [tag]), M.contiguous = true) := by
  have hfound := exists_of_find? hs h
  rw [List.reverse_reverse] at hfound
  obtain ⟨M, hM, rfl⟩ := hfound
  refine ⟨rfl, fun hcontiguous => ⟨M, hcontiguous⟩, ?_⟩
  rintro ⟨other, hother⟩
  rcases hM with hM | hM
  · exact hM
  · rw [(hM other).1] at hother
    cases hother

end Matching

/-- **The search for named ancestors is sound and complete**, and so is the search for a match: it
finds one exactly if the last segments are the tag and the ones before name ancestors, and a
contiguous one exactly if they name ancestors that run up to the tag. -/
theorem search_iff_names (hs : separator ≠ "") :
    (∀ (adjacent : Bool) (segments ancestors : List String),
      ((matchGroups separator adjacent segments ancestors.reverse).isSome = true ↔
        ∃ positions, NamesUpTo separator adjacent ancestors segments positions) ∧
      ∀ positions, matchGroups separator adjacent segments ancestors.reverse = some positions →
        NamesUpTo separator adjacent ancestors segments positions) ∧
    ∀ (entry : Composite) (ancestors : List String) (tag : String),
      ((Match.find? separator entry tag ancestors.reverse).isSome = true ↔
        Nonempty (Matching separator entry (ancestors ++ [tag]))) ∧
      ∀ m, Match.find? separator entry tag ancestors.reverse = some m → m.entry = entry ∧
        (m.contiguous = true ↔
          ∃ M : Matching separator entry (ancestors ++ [tag]), M.contiguous = true) := by
  constructor
  · intro adjacent segments ancestors
    exact ⟨isSome_matchGroups_iff hs, fun positions => names_of_matchGroups hs⟩
  · intro entry ancestors tag
    exact ⟨Matching.isSome_find?_iff hs, fun m => Matching.contiguous_iff_of_find? hs⟩

/-- The first ancestor of the two that are named has the separator and an empty segment in its name,
and the ancestor between them and the tag lets the match be found, but not a contiguous one. -/
theorem search_iff_names_card :
    "-" ≠ "" ∧
    (∃ positions, NamesUpTo "-" true ["page", "card-", "header"] ["card", "", "header"] positions) ∧
    Nonempty (Matching "-" ⟨"card--header-title", ["card", "", "header", "title"]⟩
      (["page", "card-", "header", "row"] ++ ["title"])) ∧
    ¬ ∃ M : Matching "-" ⟨"card--header-title", ["card", "", "header", "title"]⟩
      (["page", "card-", "header", "row"] ++ ["title"]), M.contiguous = true := by
  have hs : "-" ≠ "" := by decide
  obtain ⟨hgroups, hmatch⟩ := search_iff_names hs
  refine ⟨hs, (hgroups true _ _).1.1 (by decide), (hmatch _ _ _).1.1 (by decide), ?_⟩
  let entry : Composite := ⟨"card--header-title", ["card", "", "header", "title"]⟩
  have hfound := (hmatch entry ["page", "card-", "header", "row"] "title").2 ⟨entry, false, 1⟩
    (by decide)
  exact fun h => Bool.false_ne_true (hfound.2.2 h)

/-! ## More ancestors -/

/-- Segments that name ancestors still name them when others come between or around. -/
theorem Names.of_sublist (hsub : ancestors.Sublist wrapped)
    (h : Names separator ancestors segments positions) :
    ∃ moved, Names separator wrapped segments moved := by
  obtain ⟨hp, groups, hne, hflat, hmap⟩ := h
  obtain ⟨place, hplace⟩ := List.sublist_iff_exists_orderEmbedding_getElem?_eq.1 hsub
  refine ⟨positions.map place, ?_, groups, hne, hflat, ?_⟩
  · exact List.pairwise_map.2 (hp.imp fun hlt => place.lt_iff_lt.2 hlt)
  · rw [List.map_map, ← hmap]
    exact List.map_congr_left fun p _ => (hplace p).symm

/-- Ancestors around the whole path move the positions. -/
theorem Names.of_append (outer : List String) (h : Names separator ancestors segments positions) :
    Names separator (outer ++ ancestors) segments (positions.map (outer.length + ·)) := by
  obtain ⟨hp, groups, hne, hflat, hmap⟩ := h
  refine ⟨?_, groups, hne, hflat, ?_⟩
  · exact List.pairwise_map.2 (hp.imp fun hlt => Nat.add_lt_add_left hlt _)
  · rw [List.map_map, ← hmap]
    refine List.map_congr_left fun p _ => ?_
    rw [Function.comp_apply, List.getElem?_append_right (Nat.le_add_right _ _),
      Nat.add_sub_cancel_left]

theorem IsAdjacent.add {count : Nat} (n : Nat) (hle : positions.length ≤ count)
    (h : IsAdjacent count positions) : IsAdjacent (n + count) (positions.map (n + ·)) := by
  unfold IsAdjacent at *
  rw [List.length_map, Nat.add_sub_assoc hle, ← List.map_add_range', ← h]

namespace Matching

variable {path longer : List String}

theorem exists_of_sublist (hpath : path = ancestors ++ [tag]) (hlonger : longer = wrapped ++ [tag])
    (hsub : ancestors.Sublist wrapped) (M : Matching separator entry path) :
    Nonempty (Matching separator entry longer) := by
  obtain ⟨hancestors, htag⟩ := List.append_inj' (M.ancestors_concat.trans hpath) rfl
  have hn := M.names
  rw [hancestors] at hn
  obtain ⟨positions, hpositions⟩ := hn.of_sublist hsub
  exact ⟨⟨wrapped, tag, M.front, M.suffix, positions, hlonger.symm, M.front_append, M.front_ne_nil,
    M.suffix_ne_nil, M.join_suffix.trans (List.singleton_inj.1 htag), hpositions⟩⟩

theorem exists_contiguous_of_append (outer : List String) (M : Matching separator entry path)
    (hM : M.contiguous = true) :
    ∃ M' : Matching separator entry (outer ++ path), M'.contiguous = true := by
  have hn := M.names.of_append outer
  have hlonger : outer ++ M.ancestors ++ [M.tag] = outer ++ path := by
    rw [List.append_assoc, M.ancestors_concat]
  refine ⟨⟨outer ++ M.ancestors, M.tag, M.front, M.suffix, _, hlonger, M.front_append,
    M.front_ne_nil, M.suffix_ne_nil, M.join_suffix, hn⟩, decide_eq_true ?_⟩
  rw [List.length_append]
  exact (of_decide_eq_true hM).add outer.length M.names.length_le

end Matching

namespace Match

theorem specificity_le_of_rank_le {a b : Match} (h : a.rank ≤ b.rank) :
    a.entry.specificity ≤ b.entry.specificity := by
  rw [rank, rank, Prod.Lex.toLex_le_toLex] at h
  rcases h with h | ⟨h, -⟩
  · exact h.le
  · exact h.le

theorem contiguous_of_rank_le {a b : Match} (h : a.rank ≤ b.rank)
    (hs : a.entry.specificity = b.entry.specificity) (ha : a.contiguous = true) :
    b.contiguous = true := by
  rw [rank, rank, Prod.Lex.toLex_le_toLex, Prod.Lex.toLex_le_toLex] at h
  rcases h with h | ⟨-, h | ⟨h, -⟩⟩
  · exact absurd hs h.ne
  · exact (Bool.lt_iff.1 h).2
  · exact h.symm.trans ha

end Match

namespace Catalog

variable {catalog : Catalog} {path : List String}

/-- The template that is taken has a preferred matching of the highest rank. -/
theorem exists_top_of_resolve (h : catalog.IsSplit)
    (hr : (catalog.resolve path).value = some entry) :
    entry ∈ catalog.composites ∧
      ∃ M : Matching catalog.separator entry (path.map Text.lowercase),
        ∀ other ∈ catalog.composites,
          ∀ M' : Matching catalog.separator other (path.map Text.lowercase),
            M'.IsPreferred → M'.toMatch.rank ≤ M.toMatch.rank := by
  rw [value_resolve] at hr
  obtain ⟨m, hbest, rfl⟩ := Option.map_eq_some_iff.1 hr
  obtain ⟨hm, hall⟩ := Match.mem_of_best? hbest
  obtain ⟨entry, hentry, M, -, rfl⟩ := (mem_matchesFor h).1 hm
  exact ⟨hentry, M, fun other hother M' hM' =>
    hall _ ((mem_matchesFor h).2 ⟨other, hother, M', hM', rfl⟩)⟩

/-- Some template is taken if a composite name has a matching. -/
theorem exists_resolve_of_matching (h : catalog.IsSplit) (hm : entry ∈ catalog.composites)
    (M : Matching catalog.separator entry (path.map Text.lowercase)) :
    ∃ found, (catalog.resolve path).value = some found := by
  obtain ⟨preferred, hp⟩ := Matching.exists_isPreferred (h.separator_ne hm) M
  have hmem := (mem_matchesFor h).2 ⟨entry, hm, preferred, hp, rfl⟩
  rw [value_resolve, ← Option.isSome_iff_exists, Option.isSome_map, Option.isSome_iff_ne_none]
  intro hnone
  rw [Match.best?_eq_none_iff] at hnone
  rw [hnone] at hmem
  cases hmem

/-- **Wrapping a tag never loses a specific template.** With more ancestors anywhere on the path some
template still applies, and the one that is taken is no less specific. If all of them are around the
path, a contiguous matching is not given up for one of the same specificity that is not. -/
theorem resolve_of_sublist (separator : String) (names : List String)
    (hsub : ancestors.Sublist wrapped)
    (h : ((ofNames separator names).resolve (ancestors ++ [tag])).value = some entry) :
    let catalog := ofNames separator names
    ∃ found, (catalog.resolve (wrapped ++ [tag])).value = some found ∧
      entry.specificity ≤ found.specificity ∧
      (ancestors.IsSuffix wrapped → found.specificity = entry.specificity →
        (∃ M : Matching catalog.separator entry ((ancestors ++ [tag]).map Text.lowercase),
          M.contiguous = true) →
        ∃ M : Matching catalog.separator found ((wrapped ++ [tag]).map Text.lowercase),
          M.contiguous = true) := by
  intro catalog
  have hsplit : catalog.IsSplit := isSplit_ofNames separator names
  obtain ⟨hentry, M, -⟩ := exists_top_of_resolve hsplit h
  have hmap (above : List String) : (above ++ [tag]).map Text.lowercase =
      above.map Text.lowercase ++ [Text.lowercase tag] := List.map_append
  obtain ⟨moved⟩ := M.exists_of_sublist (hmap _) (hmap _) (hsub.map Text.lowercase)
  obtain ⟨found, hfound⟩ := exists_resolve_of_matching hsplit hentry moved
  obtain ⟨-, top, htop⟩ := exists_top_of_resolve hsplit hfound
  obtain ⟨preferred, hp⟩ := Matching.exists_isPreferred (hsplit.separator_ne hentry) moved
  refine ⟨found, hfound, Match.specificity_le_of_rank_le (htop entry hentry preferred hp), ?_⟩
  rintro ⟨outer, rfl⟩ hspecificity ⟨M, hM⟩
  have hcontiguous := M.exists_contiguous_of_append (outer.map Text.lowercase) hM
  rw [← List.map_append, ← List.append_assoc] at hcontiguous
  obtain ⟨M', hM'⟩ := hcontiguous
  exact ⟨top, Match.contiguous_of_rank_le (htop entry hentry M' (.inl hM')) hspecificity.symm hM'⟩

/-- Around the whole path stands an ancestor that lets another name of the same specificity apply. -/
theorem resolve_of_sublist_card :
    let catalog := ofNames "-" ["card-title", "list-title"]
    let entry : Composite := ⟨"card-title", ["card", "title"]⟩
    ["Card"].Sublist ["list", "Card"] ∧
    (catalog.resolve (["Card"] ++ ["title"])).value = some entry ∧
    ∃ found, (catalog.resolve (["list", "Card"] ++ ["title"])).value = some found ∧
      1 ≤ found.specificity ∧
      (found.specificity = 1 → ∃ M : Matching catalog.separator found
        ((["list", "Card"] ++ ["title"]).map Text.lowercase), M.contiguous = true) := by
  intro catalog entry
  have hcomposites : catalog.composites = [entry, ⟨"list-title", ["list", "title"]⟩] := by
    have hadd : (["card-title", "list-title"].foldl add ⟨"-", ∅, []⟩).composites =
        [entry, ⟨"list-title", ["list", "title"]⟩] := by decide +kernel
    change List.mergeSort _ Composite.precedes = _
    rw [hadd]
    exact List.mergeSort_of_pairwise (by decide)
  have hseparator : catalog.separator = "-" := by decide +kernel
  have hresolve : (catalog.resolve (["Card"] ++ ["title"])).value = some entry := by
    rw [value_resolve, matchesFor, hcomposites, hseparator]
    decide +kernel
  have hsub : ["Card"].Sublist ["list", "Card"] := by decide
  obtain ⟨found, hfound, hle, hcontiguous⟩ := resolve_of_sublist "-" _ hsub hresolve
  refine ⟨hsub, hresolve, found, hfound, hle, fun h => hcontiguous ⟨["list"], rfl⟩ h ?_⟩
  have hpath : ["card"] ++ ["title"] = (["Card"] ++ ["title"]).map Text.lowercase := by
    decide +kernel
  exact ⟨⟨_, _, ["card"], ["title"], [0], hpath, rfl, by simp, by simp, by decide, by simp,
    [["card"]], by simp, rfl, by decide⟩, rfl⟩

end Catalog

end ComponentMarkup
