/-
  Segments of a composite name that name ancestors of a tag.

  * `Names`: segments in groups whose joins are the ancestors at some positions, from the outermost
    one to the nearest; `names_concat_iff` opens it at the nearest ancestor.
  * `matchGroups_true_iff`: the adjacent search finds the positions that run up to the tag.
  * `isNearest_matchGroups`: any other search finds the nearest positions, compared from the tag
    outwards. They need not be those that start nearest.
  * `forall₂_le_matchGroups`: they are, one by one, if no ancestor contains the separator.
-/
import Mathlib.Data.List.Forall2
import Mathlib.Data.List.Induction
import Mathlib.Data.List.Perm.Subperm
import ComponentMarkup.Catalog.Resolve

namespace ComponentMarkup

variable {separator name : String} {ancestors above outer segments front group : List String}
  {positions other before : List Nat}

/-! ## Joins of segments -/

theorem length_intercalate_lt (hs : separator ≠ "") (hf : front ≠ []) (hg : group ≠ []) :
    (separator.intercalate group).length < (separator.intercalate (front ++ group)).length := by
  have hpos : 0 < separator.length :=
    Nat.pos_of_ne_zero fun h => hs (String.length_eq_zero_iff.1 h)
  induction front with
  | nil => exact absurd rfl hf
  | cons segment rest ih =>
    have hrest : rest ++ group ≠ [] := List.append_ne_nil_of_right_ne_nil _ hg
    rw [List.cons_append, String.intercalate_cons_of_ne_nil hrest, String.length_append,
      String.length_append]
    by_cases hr : rest = []
    · rw [hr, List.nil_append]
      omega
    · have := ih hr
      omega

/-- Of the ends of a list of segments, at most one has a given join. -/
theorem append_inj_of_join (hs : separator ≠ "") {front' group' : List String} (hg : group ≠ [])
    (hg' : group' ≠ []) (h : front ++ group = front' ++ group')
    (hj : separator.intercalate group = separator.intercalate group') :
    front = front' ∧ group = group' := by
  rcases List.append_eq_append_iff.1 h with ⟨more, rfl, rfl⟩ | ⟨more, rfl, rfl⟩
  · by_cases hm : more = []
    · subst hm
      exact ⟨(List.append_nil _).symm, rfl⟩
    · have := length_intercalate_lt hs hm hg'
      rw [hj] at this
      omega
  · by_cases hm : more = []
    · subst hm
      exact ⟨List.append_nil _, rfl⟩
    · have := length_intercalate_lt hs hm hg
      rw [hj] at this
      omega

theorem mem_endSplits {α : Type} {xs front group : List α} :
    (front, group) ∈ endSplits xs ↔ group ≠ [] ∧ front ++ group = xs := by
  simp only [endSplits, List.mem_map, List.mem_range, List.splitAt_eq, Prod.mk.injEq]
  constructor
  · rintro ⟨i, hi, rfl, rfl⟩
    refine ⟨fun h => ?_, List.take_append_drop ..⟩
    have := List.drop_eq_nil_iff.1 h
    omega
  · rintro ⟨hg, rfl⟩
    have := List.length_pos_iff.2 hg
    have hlen : (front ++ group).length - (group.length - 1 + 1) = front.length := by
      rw [List.length_append]
      omega
    refine ⟨group.length - 1, ?_, ?_, ?_⟩
    · rw [List.length_append]
      omega
    · rw [hlen, List.take_left]
    · rw [hlen, List.drop_left]

theorem findSome?_eq_of_mem {α β : Type} {f : α → Option β} {xs : List α} {a : α} (ha : a ∈ xs)
    (h : ∀ b ∈ xs, b ≠ a → f b = none) : xs.findSome? f = f a := by
  induction xs with
  | nil => cases ha
  | cons x xs ih =>
    rw [List.findSome?_cons]
    by_cases hx : x = a
    · subst hx
      cases hfx : f x with
      | some b => rfl
      | none =>
        refine List.findSome?_eq_none_iff.2 fun b hb => ?_
        by_cases hb' : b = x
        · rw [hb', hfx]
        · exact h b (List.mem_cons_of_mem _ hb) hb'
    · rw [h x (List.mem_cons_self ..) hx]
      exact ih ((List.mem_cons.1 ha).resolve_left (Ne.symm hx)) fun b hb =>
        h b (List.mem_cons_of_mem _ hb)

/-! ## The ancestors that segments name -/

/-- The segments split into groups whose joins are the ancestors at the positions. The outermost
ancestor stands first. -/
def Names (separator : String) (ancestors segments : List String) (positions : List Nat) : Prop :=
  positions.Pairwise (· < ·) ∧
    ∃ groups : List (List String), [] ∉ groups ∧ groups.flatten = segments ∧
      positions.map (ancestors[·]?) = groups.map fun group => some (separator.intercalate group)

/-- The positions run up to the last one of so many. -/
def IsAdjacent (count : Nat) (positions : List Nat) : Prop :=
  positions = List.range' (count - positions.length) positions.length

instance (count : Nat) (positions : List Nat) : Decidable (IsAdjacent count positions) :=
  inferInstanceAs (Decidable (_ = _))

theorem Names.lt_length (h : Names separator ancestors segments positions) :
    ∀ p ∈ positions, p < ancestors.length := by
  obtain ⟨-, groups, -, -, hmap⟩ := h
  intro p hp
  have hmem := List.mem_map_of_mem (f := (ancestors[·]?)) hp
  rw [hmap] at hmem
  obtain ⟨group, -, hg⟩ := List.mem_map.1 hmem
  exact (List.getElem?_eq_some_iff.1 hg.symm).1

theorem Names.length_le (h : Names separator ancestors segments positions) :
    positions.length ≤ ancestors.length := by
  have hnodup : positions.Nodup := h.1.imp fun hlt => Nat.ne_of_lt hlt
  have hsub : positions ⊆ List.range ancestors.length := fun p hp =>
    List.mem_range.2 (h.lt_length p hp)
  simpa using (List.subperm_of_subset hnodup hsub).length_le

theorem names_nil_iff : Names separator ancestors [] positions ↔ positions = [] := by
  constructor
  · rintro ⟨-, groups, hne, hflat, hmap⟩
    have hnil : groups = [] := List.eq_nil_iff_forall_not_mem.2 fun group hg =>
      hne (List.flatten_eq_nil_iff.1 hflat group hg ▸ hg)
    rw [hnil] at hmap
    exact List.map_eq_nil_iff.1 hmap
  · rintro rfl
    exact ⟨.nil, [], by simp⟩

theorem names_positions_nil_iff : Names separator ancestors segments [] ↔ segments = [] := by
  constructor
  · rintro ⟨-, groups, -, rfl, hmap⟩
    rw [List.map_eq_nil_iff.1 hmap.symm, List.flatten_nil]
  · rintro rfl
    exact names_nil_iff.2 rfl

/-- No segment names an ancestor if there is none. -/
theorem Names.of_nil (h : Names separator [] segments positions) :
    segments = [] ∧ positions = [] := by
  obtain rfl : positions = [] := List.eq_nil_iff_forall_not_mem.2 fun p hp =>
    Nat.not_lt_zero p (h.lt_length p hp)
  exact ⟨names_positions_nil_iff.1 h, rfl⟩

theorem map_getElem?_concat (h : ∀ p ∈ positions, p < ancestors.length) :
    positions.map ((ancestors ++ [name])[·]?) = positions.map (ancestors[·]?) :=
  List.map_congr_left fun p hp => List.getElem?_append_left (h p hp)

theorem names_concat_iff_of_lt (h : ∀ p ∈ positions, p < ancestors.length) :
    Names separator (ancestors ++ [name]) segments positions ↔
      Names separator ancestors segments positions := by
  unfold Names
  rw [map_getElem?_concat h]

/-- One more group names one more ancestor. -/
theorem Names.concat (h : Names separator ancestors front before) (hg : group ≠ []) :
    Names separator (ancestors ++ [separator.intercalate group]) (front ++ group)
      (before ++ [ancestors.length]) := by
  have hlt := h.lt_length
  obtain ⟨hp, groups, hne, rfl, hmap⟩ := h
  refine ⟨?_, groups ++ [group], ?_, ?_, ?_⟩
  · refine List.pairwise_append.2 ⟨hp, List.pairwise_singleton .., fun p hp q hq => ?_⟩
    rw [List.mem_singleton.1 hq]
    exact hlt p hp
  · rw [List.mem_append, List.mem_singleton]
    rintro (hm | rfl)
    exacts [hne hm, hg rfl]
  · rw [List.flatten_append, List.flatten_singleton]
  · rw [List.map_append, List.map_append, map_getElem?_concat hlt, hmap]
    simp

/-- The last group names the nearest ancestor, if that one is named. -/
theorem Names.exists_group
    (h : Names separator (ancestors ++ [name]) segments (before ++ [ancestors.length])) :
    ∃ front group, group ≠ [] ∧ front ++ group = segments ∧ separator.intercalate group = name ∧
      Names separator ancestors front before := by
  obtain ⟨hp, groups, hne, rfl, hmap⟩ := h
  rw [List.pairwise_append] at hp
  have hbefore : ∀ p ∈ before, p < ancestors.length := fun p hm =>
    hp.2.2 p hm _ (List.mem_singleton_self _)
  rw [List.map_append, map_getElem?_concat hbefore] at hmap
  obtain ⟨groups, lasts, rfl, hinit, hlast⟩ := List.map_eq_append_iff.1 hmap.symm
  obtain ⟨group, hlasts, hgroup⟩ := List.map_eq_singleton_iff.1 hlast
  subst hlasts
  refine ⟨groups.flatten, group, ?_, ?_, ?_, hp.1, groups,
    fun hm => hne (List.mem_append_left _ hm), rfl, hinit.symm⟩
  · rintro rfl
    exact hne (List.mem_append_right _ (List.mem_singleton_self _))
  · rw [List.flatten_append, List.flatten_singleton]
  · exact Option.some_inj.1 (hgroup.trans List.getElem?_concat_length)

/-- **The nearest ancestor is passed over, or the last group names it** and the segments before name
ancestors above it. -/
theorem names_concat_iff : Names separator (ancestors ++ [name]) segments positions ↔
    Names separator ancestors segments positions ∨
      ∃ front group before, group ≠ [] ∧ front ++ group = segments ∧
        separator.intercalate group = name ∧ before ++ [ancestors.length] = positions ∧
        Names separator ancestors front before := by
  constructor
  · intro h
    have hlt := h.lt_length
    rw [List.length_append, List.length_singleton] at hlt
    by_cases hlast : ∀ p ∈ positions, p < ancestors.length
    · exact .inl ((names_concat_iff_of_lt hlast).1 h)
    -- positions increase, so the nearest one is the last
    right
    rcases List.eq_nil_or_concat positions with rfl | ⟨before, last, rfl⟩
    · exact absurd (fun p hp => absurd hp List.not_mem_nil) hlast
    rw [List.concat_eq_append] at *
    have hbefore := (List.pairwise_append.1 h.1).2.2
    obtain rfl : last = ancestors.length := by
      by_contra hne
      have hle := hlt last (List.mem_append_right _ (List.mem_singleton_self _))
      refine hlast fun p hp => ?_
      rcases List.mem_append.1 hp with hp | hp
      · have := hbefore p hp last (List.mem_singleton_self _)
        omega
      · rw [List.mem_singleton.1 hp]
        omega
    obtain ⟨front, group, hg, happ, hjoin, hn⟩ := h.exists_group
    exact ⟨front, group, before, hg, happ, hjoin, rfl, hn⟩
  · rintro (h | ⟨front, group, before, hg, rfl, rfl, rfl, h⟩)
    · exact (names_concat_iff_of_lt h.lt_length).2 h
    · exact h.concat hg

/-- As `names_concat_iff`, for the join of a group that the segments end with. -/
theorem names_concat_join_iff (hs : separator ≠ "") (hg : group ≠ []) :
    Names separator (ancestors ++ [separator.intercalate group]) (front ++ group) positions ↔
      Names separator ancestors (front ++ group) positions ∨
        ∃ before, before ++ [ancestors.length] = positions ∧
          Names separator ancestors front before := by
  rw [names_concat_iff]
  refine or_congr_right ⟨?_, ?_⟩
  · rintro ⟨front', group', before, hg', happ, hjoin, hpos, h⟩
    obtain ⟨rfl, rfl⟩ := append_inj_of_join hs hg' hg happ hjoin
    exact ⟨before, hpos, h⟩
  · rintro ⟨before, hpos, h⟩
    exact ⟨front, group, before, hg, rfl, rfl, hpos, h⟩

/-- As `names_concat_iff`, for a name that no group at the end of the segments has. -/
theorem names_concat_iff_of_ne
    (h : ∀ front group, group ≠ [] → front ++ group = segments →
      separator.intercalate group ≠ name) :
    Names separator (ancestors ++ [name]) segments positions ↔
      Names separator ancestors segments positions := by
  rw [names_concat_iff, or_iff_left]
  rintro ⟨front, group, -, hg, happ, hjoin, -⟩
  exact h front group hg happ hjoin

theorem isAdjacent_concat_iff {count p : Nat} (h : before.length ≤ count) :
    IsAdjacent (count + 1) (before ++ [p]) ↔ p = count ∧ IsAdjacent count before := by
  unfold IsAdjacent
  have hlast : count - before.length + before.length = count := Nat.sub_add_cancel h
  rw [List.length_append, List.length_singleton, Nat.add_sub_add_right, List.range'_concat,
    Nat.one_mul, hlast]
  constructor
  · intro heq
    obtain ⟨h1, h2⟩ := List.append_inj' heq rfl
    exact ⟨List.singleton_inj.1 h2, h1⟩
  · rintro ⟨rfl, h1⟩
    rw [← h1]

/-- Positions that run up to the tag do not pass over the nearest ancestor. -/
theorem Names.not_isAdjacent (h : Names separator ancestors segments positions)
    (hne : segments ≠ []) : ¬ IsAdjacent (ancestors.length + 1) positions := by
  intro hadj
  rcases List.eq_nil_or_concat positions with rfl | ⟨before, p, rfl⟩
  · exact hne (names_positions_nil_iff.1 h)
  rw [List.concat_eq_append] at *
  have hlen := h.length_le
  have hlt := h.lt_length p (List.mem_append_right _ (List.mem_singleton_self p))
  rw [List.length_append, List.length_singleton] at hlen
  have := ((isAdjacent_concat_iff (by omega)).1 hadj).1
  omega

/-- The first positions are nearer to the tag, compared from the tag outwards. -/
def IsNearer (positions other : List Nat) : Prop :=
  List.Lex (· < ·) other.reverse positions.reverse

theorem not_isNearer_nil (positions : List Nat) : ¬ IsNearer [] positions :=
  List.not_lex_nil

theorem isNearer_concat_iff {p q : Nat} :
    IsNearer (positions ++ [p]) (other ++ [q]) ↔ q < p ∨ q = p ∧ IsNearer positions other := by
  unfold IsNearer
  rw [List.reverse_append, List.reverse_append]
  exact List.cons_lex_cons_iff

theorem eq_of_not_isNearer (h : ¬ IsNearer positions other) (h' : ¬ IsNearer other positions) :
    positions = other :=
  List.reverse_inj.1 <| List.le_antisymm (show ¬ other.reverse < positions.reverse from h)
    (show ¬ positions.reverse < other.reverse from h')

/-! ## The search -/

theorem matchGroups_nil (separator : String) (adjacent : Bool) (above : List String) :
    matchGroups separator adjacent [] above = some [] := by
  cases above <;> rfl

/-- The search at an ancestor that a group at the end of the segments names. -/
theorem matchGroups_concat_join (hs : separator ≠ "") (hg : group ≠ []) (adjacent : Bool) :
    matchGroups separator adjacent (front ++ group) (separator.intercalate group :: outer) =
      ((matchGroups separator adjacent front outer).map (· ++ [outer.length])).or
        (if adjacent then none else matchGroups separator adjacent (front ++ group) outer) := by
  have hne : (front ++ group).isEmpty = false :=
    List.isEmpty_eq_false_iff.2 (List.append_ne_nil_of_right_ne_nil _ hg)
  rw [matchGroups, if_neg (by rw [hne]; exact Bool.false_ne_true),
    findSome?_eq_of_mem (mem_endSplits.2 ⟨hg, rfl⟩)]
  · dsimp only
    rw [if_pos rfl]
    cases (matchGroups separator adjacent front outer).map (· ++ [outer.length]) <;> rfl
  · rintro ⟨front', group'⟩ hm hother
    obtain ⟨hg', happ⟩ := mem_endSplits.1 hm
    refine if_neg fun hjoin => hother ?_
    obtain ⟨rfl, rfl⟩ := append_inj_of_join hs hg' hg happ hjoin
    rfl

/-- The search at an ancestor that no group at the end of the segments names. -/
theorem matchGroups_cons_of_ne (hne : segments ≠ [])
    (h : ∀ front group, group ≠ [] → front ++ group = segments →
      separator.intercalate group ≠ name) (adjacent : Bool) : matchGroups separator adjacent segments (name :: outer) =
      if adjacent then none else matchGroups separator adjacent segments outer := by
  rw [matchGroups, if_neg (by rwa [List.isEmpty_iff]), List.findSome?_eq_none_iff.2]
  rintro ⟨front, group⟩ hm
  obtain ⟨hg, happ⟩ := mem_endSplits.1 hm
  exact if_neg (h front group hg happ)

/-- A group at the end of the segments names the ancestor, or none does. -/
theorem exists_group_or (separator name : String) (segments : List String) :
    (∃ front group, group ≠ [] ∧ front ++ group = segments ∧ separator.intercalate group = name) ∨
      ∀ front group, group ≠ [] → front ++ group = segments →
        separator.intercalate group ≠ name := by
  by_cases h : ∃ front group, group ≠ [] ∧ front ++ group = segments ∧
      separator.intercalate group = name
  · exact .inl h
  · exact .inr fun front group hg happ hjoin => h ⟨front, group, hg, happ, hjoin⟩

/-- **The adjacent search** finds the positions that run up to the tag, and there is at most one
such list of them. -/
theorem matchGroups_true_iff (hs : separator ≠ "") :
    matchGroups separator true segments above = some positions ↔
      Names separator above.reverse segments positions ∧ IsAdjacent above.length positions := by
  induction above generalizing segments positions with
  | nil =>
    constructor
    · intro h
      rw [matchGroups] at h
      split at h
      next hempty =>
        cases h
        exact ⟨names_positions_nil_iff.2 (List.isEmpty_iff.1 hempty), rfl⟩
      next => cases h
    · rintro ⟨hn, -⟩
      obtain ⟨rfl, rfl⟩ := hn.of_nil
      exact matchGroups_nil ..
  | cons name outer ih =>
    by_cases hempty : segments = []
    · subst hempty
      rw [matchGroups_nil, names_nil_iff, Option.some_inj, eq_comm]
      constructor
      · rintro rfl
        exact ⟨rfl, rfl⟩
      · exact And.left
    have hpassed : ¬ (Names separator outer.reverse segments positions ∧
        IsAdjacent (outer.length + 1) positions) := by
      rintro ⟨hn, hadj⟩
      rw [← List.length_reverse] at hadj
      exact hn.not_isAdjacent hempty hadj
    rw [List.reverse_cons, List.length_cons]
    rcases exists_group_or separator name segments with ⟨front, group, hg, rfl, rfl⟩ | hne
    · rw [matchGroups_concat_join hs hg, if_pos rfl, Option.or_none, Option.map_eq_some_iff,
        names_concat_join_iff hs hg, or_and_right, or_iff_right hpassed, List.length_reverse]
      constructor
      · rintro ⟨before, h, rfl⟩
        obtain ⟨hn, hadj⟩ := ih.1 h
        have hlen := hn.length_le
        rw [List.length_reverse] at hlen
        exact ⟨⟨before, rfl, hn⟩, (isAdjacent_concat_iff hlen).2 ⟨rfl, hadj⟩⟩
      · rintro ⟨⟨before, rfl, hn⟩, hadj⟩
        have hlen := hn.length_le
        rw [List.length_reverse] at hlen
        exact ⟨before, ih.2 ⟨hn, ((isAdjacent_concat_iff hlen).1 hadj).2⟩, rfl⟩
    · rw [matchGroups_cons_of_ne hempty hne, if_pos rfl, names_concat_iff_of_ne hne]
      exact iff_of_false (by simp) hpassed

/-- The search that may pass over ancestors finds some if the segments name any. -/
theorem isSome_matchGroups (hs : separator ≠ "")
    (h : Names separator above.reverse segments positions) :
    (matchGroups separator false segments above).isSome := by
  induction above generalizing segments positions with
  | nil =>
    rw [h.of_nil.1]
    rfl
  | cons name outer ih =>
    by_cases hempty : segments = []
    · rw [hempty, matchGroups_nil]
      rfl
    rw [List.reverse_cons] at h
    rcases exists_group_or separator name segments with ⟨front, group, hg, rfl, rfl⟩ | hne
    · rw [matchGroups_concat_join hs hg, if_neg Bool.false_ne_true, Option.isSome_or,
        Option.isSome_map, Bool.or_eq_true]
      rcases (names_concat_join_iff hs hg).1 h with h | ⟨before, -, h⟩
      · exact .inr (ih h)
      · exact .inl (ih h)
    · rw [matchGroups_cons_of_ne hempty hne, if_neg Bool.false_ne_true]
      exact ih ((names_concat_iff_of_ne hne).1 h)

/-- The segments name the ancestors at the positions, and none that are nearer. -/
def IsNearest (separator : String) (ancestors segments : List String) (positions : List Nat) :
    Prop :=
  Names separator ancestors segments positions ∧
    ∀ other, Names separator ancestors segments other → ¬ IsNearer other positions

/-- **The search that may pass over ancestors** finds the nearest ones. -/
theorem isNearest_matchGroups (hs : separator ≠ "")
    (h : matchGroups separator false segments above = some positions) :
    IsNearest separator above.reverse segments positions := by
  induction above generalizing segments positions with
  | nil =>
    rw [matchGroups] at h
    split at h
    next hempty =>
      cases h
      rw [List.isEmpty_iff.1 hempty]
      refine ⟨names_nil_iff.2 rfl, fun other hother => ?_⟩
      rw [names_nil_iff.1 hother]
      exact not_isNearer_nil _
    next => cases h
  | cons name outer ih =>
    by_cases hempty : segments = []
    · subst hempty
      rw [matchGroups_nil] at h
      cases h
      refine ⟨names_nil_iff.2 rfl, fun other hother => ?_⟩
      rw [names_nil_iff.1 hother]
      exact not_isNearer_nil _
    rw [List.reverse_cons]
    rcases exists_group_or separator name segments with ⟨front, group, hg, rfl, rfl⟩ | hne
    · rw [matchGroups_concat_join hs hg, if_neg Bool.false_ne_true, Option.or_eq_some_iff,
        Option.map_eq_some_iff, Option.map_eq_none_iff] at h
      rcases h with ⟨before, h, rfl⟩ | ⟨hnone, h⟩
      · -- the nearest ancestor is taken: those that pass over it are farther away
        obtain ⟨hn, hnearest⟩ := ih h
        refine ⟨(names_concat_join_iff hs hg).2 (.inr ⟨before, by rw [List.length_reverse], hn⟩),
          fun other hother => ?_⟩
        rcases (names_concat_join_iff hs hg).1 hother with hother | ⟨before', rfl, hbefore⟩
        · rcases List.eq_nil_or_concat other with rfl | ⟨before', p, rfl⟩
          · exact not_isNearer_nil _
          rw [List.concat_eq_append] at *
          have hlt := hother.lt_length p (List.mem_append_right _ (List.mem_singleton_self p))
          rw [List.length_reverse] at hlt
          rw [isNearer_concat_iff]
          omega
        · rw [List.length_reverse, isNearer_concat_iff]
          rintro (hlt | ⟨-, hnearer⟩)
          · exact Nat.lt_irrefl _ hlt
          · exact hnearest before' hbefore hnearer
      · obtain ⟨hn, hnearest⟩ := ih h
        refine ⟨(names_concat_join_iff hs hg).2 (.inl hn), fun other hother => ?_⟩
        rcases (names_concat_join_iff hs hg).1 hother with hother | ⟨before, -, hother⟩
        · exact hnearest other hother
        · have := isSome_matchGroups hs hother
          rw [hnone] at this
          cases this
    · rw [matchGroups_cons_of_ne hempty hne, if_neg Bool.false_ne_true] at h
      obtain ⟨hn, hnearest⟩ := ih h
      refine ⟨(names_concat_iff_of_ne hne).2 hn, fun other hother => ?_⟩
      exact hnearest other ((names_concat_iff_of_ne hne).1 hother)

/-! ## Ancestors that no separator splits -/

theorem head_le_head (h : List.Forall₂ (· ≤ ·) positions other) (hp : positions ≠ [])
    (ho : other ≠ []) : positions.head hp ≤ other.head ho := by
  cases h with
  | nil => exact absurd rfl hp
  | cons h _ => exact h

theorem splits_intercalate (hs : separator ≠ "") (first second : String) (rest : List String) :
    Catalog.splits separator (separator.intercalate (first :: second :: rest)) = true := by
  rw [Catalog.splits, Bool.and_eq_true, bne_iff_ne, Text.occursIn_iff,
    String.intercalate_cons_cons, String.toList_append, String.toList_append]
  exact ⟨hs, _, _, rfl⟩

/-- A group whose join no separator splits is a single segment. -/
theorem exists_singleton (hs : separator ≠ "") (hg : group ≠ [])
    (h : Catalog.splits separator (separator.intercalate group) = false) :
    ∃ segment, group = [segment] := by
  match group, hg, h with
  | [segment], _, _ => exact ⟨segment, rfl⟩
  | first :: second :: rest, _, h =>
    rw [splits_intercalate hs] at h
    cases h

/-- The last segment names an ancestor of its own, if no separator splits the ancestors. -/
theorem Names.exists_concat (hs : separator ≠ "")
    (hfree : ∀ name ∈ ancestors, Catalog.splits separator name = false) {segment : String}
    (h : Names separator ancestors (front ++ [segment]) positions) :
    ∃ before p, positions = before ++ [p] ∧ p < ancestors.length ∧
      Names separator ancestors front before := by
  induction ancestors using List.reverseRecOn with
  | nil =>
    exact absurd h.of_nil.1 (by simp)
  | append_singleton ancestors name ih =>
    rw [List.length_append, List.length_singleton]
    rcases names_concat_iff.1 h with h | ⟨front', group, before, hg, happ, rfl, rfl, hbefore⟩
    · obtain ⟨before, p, rfl, hp, hn⟩ :=
        ih (fun name hm => hfree name (List.mem_append_left _ hm)) h
      exact ⟨before, p, rfl, Nat.lt_succ_of_lt hp, names_concat_iff.2 (.inl hn)⟩
    · obtain ⟨last, rfl⟩ :=
        exists_singleton hs hg (hfree _ (List.mem_append_right _ (List.mem_singleton_self _)))
      obtain ⟨rfl, -⟩ := List.append_inj' happ rfl
      exact ⟨before, ancestors.length, rfl, Nat.lt_succ_self _, names_concat_iff.2 (.inl hbefore)⟩

/-- **The search starts nearest if no separator splits an ancestor**: each position that it finds is
as near as any other one for the same segment. -/
theorem forall₂_le_matchGroups (hs : separator ≠ "")
    (hfree : ∀ name ∈ above, Catalog.splits separator name = false)
    (h : matchGroups separator false segments above = some positions)
    (hother : Names separator above.reverse segments other) :
    List.Forall₂ (· ≤ ·) other positions := by
  induction above generalizing segments positions other with
  | nil =>
    obtain ⟨rfl, rfl⟩ := hother.of_nil
    rw [matchGroups_nil] at h
    cases h
    exact .nil
  | cons name outer ih =>
    have hfree' : ∀ name ∈ outer, Catalog.splits separator name = false := fun name hm =>
      hfree name (List.mem_cons_of_mem _ hm)
    by_cases hempty : segments = []
    · subst hempty
      rw [matchGroups_nil] at h
      cases h
      rw [names_nil_iff.1 hother]
      exact .nil
    rw [List.reverse_cons] at hother
    rcases exists_group_or separator name segments with ⟨front, group, hg, rfl, rfl⟩ | hne
    · obtain ⟨segment, rfl⟩ := exists_singleton hs hg (hfree _ (List.mem_cons_self ..))
      rw [matchGroups_concat_join hs hg, if_neg Bool.false_ne_true, Option.or_eq_some_iff,
        Option.map_eq_some_iff, Option.map_eq_none_iff] at h
      rw [names_concat_join_iff hs hg, List.length_reverse] at hother
      rcases h with ⟨before, h, rfl⟩ | ⟨hnone, h⟩
      · rcases hother with hother | ⟨before', rfl, hbefore⟩
        · -- the other positions pass over the nearest ancestor; their last one is farther away
          obtain ⟨before', p, rfl, hp, hbefore⟩ := hother.exists_concat hs fun name hm =>
            hfree' name (List.mem_reverse.1 hm)
          rw [List.length_reverse] at hp
          exact List.rel_append (ih hfree' h hbefore) (.cons (Nat.le_of_lt hp) .nil)
        · exact List.rel_append (ih hfree' h hbefore) (.cons (Nat.le_refl _) .nil)
      · rcases hother with hother | ⟨before', -, hbefore⟩
        · exact ih hfree' h hother
        · have := isSome_matchGroups hs hbefore
          rw [hnone] at this
          cases this
    · rw [matchGroups_cons_of_ne hempty hne, if_neg Bool.false_ne_true] at h
      exact ih hfree' h ((names_concat_iff_of_ne hne).1 hother)

end ComponentMarkup
