/-
  What the catalog of some names finds.

  * `Catalog.of_canonical?`, `Catalog.of_mem_composites`: what is found is one of the names.
  * `Catalog.AreDistinct`: names that are not the same in small letters. Of them, all are found
    (`canonical?_eq_some_iff`), and all that the separator splits are composite ones
    (`mem_composites_iff`).
  * `Composite.precedes_iff`: the composite names stand in a linear order.
  * `Catalog.canonical?_congr`, `Catalog.composites_congr`: the order in which distinct names are
    given does not matter.
  * `Catalog.ofNames_eq_empty_of_size`: a catalog without names has no composite ones.
-/
import Mathlib.Data.List.Nodup
import Mathlib.Data.Prod.Lex
import Mathlib.Data.String.Basic
import ComponentMarkup.Catalog.Basic

namespace ComponentMarkup

namespace Catalog

variable {catalog : Catalog} {separator name tag : String} {names names' : List String}
  {entry : Composite}

/-! ## Adding names -/

theorem separator_add (catalog : Catalog) (name : String) :
    (catalog.add name).separator = catalog.separator := by
  unfold add
  split <;> rfl

theorem separator_foldl_add (catalog : Catalog) (names : List String) :
    (names.foldl add catalog).separator = catalog.separator := by
  induction names generalizing catalog with
  | nil => rfl
  | cons name names ih => rw [List.foldl_cons, ih, separator_add]

theorem separator_ofNames (separator : String) (names : List String) :
    (ofNames separator names).separator = separator :=
  separator_foldl_add ..

theorem canonical?_add (catalog : Catalog) (name tag : String) :
    (catalog.add name).canonical? tag =
      if name ≠ "" ∧ Text.lowercase name = Text.lowercase tag then some name
      else catalog.canonical? tag := by
  unfold add canonical?
  by_cases hne : name = ""
  · simp [hne]
  · rw [if_neg hne, OrderedMap.get?_insert]
    simp only [ne_eq, hne, not_false_eq_true, true_and]

theorem canonical?_foldl_add (catalog : Catalog) (names : List String) (tag : String) :
    (names.foldl add catalog).canonical? tag = catalog.canonical? tag ∨
      ∃ name ∈ names, (name ≠ "" ∧ Text.lowercase name = Text.lowercase tag) ∧
        (names.foldl add catalog).canonical? tag = some name := by
  induction names generalizing catalog with
  | nil => exact .inl rfl
  | cons name names ih =>
    rw [List.foldl_cons]
    rcases ih (catalog.add name) with h | ⟨found, hm, h⟩
    · rw [h, canonical?_add]
      split
      next hname => exact .inr ⟨name, List.mem_cons_self .., hname, rfl⟩
      next => exact .inl rfl
    · exact .inr ⟨found, List.mem_cons_of_mem _ hm, h⟩

/-- A name adds a composite one if the separator splits it and it is not known yet. -/
theorem composites_add (catalog : Catalog) (name : String) : (catalog.add name).composites =
    if (name ≠ "" ∧ splits catalog.separator name = true) ∧ catalog.canonical? name = none then
      catalog.composites ++ [.ofName catalog.separator name]
    else catalog.composites := by
  have hknown : catalog.names.contains (Text.lowercase name) = (catalog.canonical? name).isSome :=
    rfl
  unfold add
  split
  next hempty => simp [hempty]
  next hne =>
    dsimp only
    rw [hknown]
    cases catalog.canonical? name <;> cases splits catalog.separator name <;> simp [hne]

theorem mem_composites_add : entry ∈ (catalog.add name).composites ↔ entry ∈ catalog.composites ∨
    ((name ≠ "" ∧ splits catalog.separator name = true) ∧ catalog.canonical? name = none) ∧
      entry = .ofName catalog.separator name := by
  rw [composites_add]
  split
  next h => rw [List.mem_append, List.mem_singleton, and_iff_right h]
  next h => simp only [h, false_and, or_false]

theorem mem_composites_foldl_add (h : entry ∈ catalog.composites) (names : List String) :
    entry ∈ (names.foldl add catalog).composites := by
  induction names generalizing catalog with
  | nil => exact h
  | cons name names ih => exact ih (mem_composites_add.2 (.inl h))

theorem of_mem_composites_foldl_add (h : entry ∈ (names.foldl add catalog).composites) :
    entry ∈ catalog.composites ∨ ∃ name ∈ names, name ≠ "" ∧
      splits catalog.separator name = true ∧ entry = .ofName catalog.separator name := by
  induction names generalizing catalog with
  | nil => exact .inl h
  | cons name names ih =>
    rcases ih h with h | ⟨found, hm, h⟩
    · exact (mem_composites_add.1 h).imp_right fun h =>
        ⟨name, List.mem_cons_self .., h.1.1.1, h.1.1.2, h.2⟩
    · rw [separator_add] at h
      exact .inr ⟨found, List.mem_cons_of_mem _ hm, h⟩

/-- No composite name is added twice, in any case, as the added ones are known. -/
theorem nodup_composites_foldl_add
    (hnodup : (catalog.composites.map fun entry => Text.lowercase entry.name).Nodup)
    (hknown : ∀ entry ∈ catalog.composites, (catalog.canonical? entry.name).isSome = true)
    (names : List String) :
    ((names.foldl add catalog).composites.map fun entry => Text.lowercase entry.name).Nodup := by
  induction names generalizing catalog with
  | nil => exact hnodup
  | cons name names ih =>
    refine ih ?_ fun entry hm => ?_
    · rw [composites_add]
      split
      next hadded =>
        rw [List.map_append, List.nodup_append]
        refine ⟨hnodup, by simp, ?_⟩
        rintro key hkey other hother rfl
        obtain ⟨entry, hm, rfl⟩ := List.mem_map.1 hkey
        have hsame : Text.lowercase entry.name = Text.lowercase name := by
          simpa [Composite.ofName] using hother
        have := hknown entry hm
        rw [canonical?, hsame, ← canonical?, hadded.2] at this
        cases this
      next => exact hnodup
    · rw [canonical?_add]
      split
      next => rfl
      next hother =>
        rcases mem_composites_add.1 hm with hm | ⟨⟨⟨hne, -⟩, -⟩, rfl⟩
        · exact hknown entry hm
        · exact absurd ⟨hne, rfl⟩ hother

theorem canonical?_ofNames (separator : String) (names : List String) (tag : String) :
    (ofNames separator names).canonical? tag =
      (names.foldl add ⟨separator, ∅, []⟩).canonical? tag := rfl

/-- What is found is one of the names. -/
theorem of_canonical? (h : (ofNames separator names).canonical? tag = some name) :
    name ∈ names ∧ name ≠ "" ∧ Text.lowercase name = Text.lowercase tag := by
  rw [canonical?_ofNames] at h
  rcases canonical?_foldl_add ⟨separator, ∅, []⟩ names tag with hnone | ⟨other, hm, hname, hother⟩
  · cases hnone.symm.trans h
  · cases hother.symm.trans h
    exact ⟨hm, hname⟩

/-- The composite names are some of those that the separator splits. -/
theorem of_mem_composites (h : entry ∈ (ofNames separator names).composites) :
    ∃ name ∈ names, name ≠ "" ∧ splits separator name = true ∧ entry = .ofName separator name :=
  (of_mem_composites_foldl_add (List.mem_mergeSort.1 h)).resolve_left List.not_mem_nil

/-- No two composite names are the same in small letters. -/
theorem nodup_composites_ofNames (separator : String) (names : List String) :
    ((ofNames separator names).composites.map fun entry => Text.lowercase entry.name).Nodup := by
  refine ((List.mergeSort_perm ..).map _).nodup_iff.2 (nodup_composites_foldl_add ?_ ?_ names)
  · exact List.nodup_nil
  · exact fun _ hm => absurd hm List.not_mem_nil

/-! ## Without names -/

theorem add_eq_self_of_size (h : (catalog.add name).size = 0) : catalog.add name = catalog := by
  unfold add at h ⊢
  split
  · rfl
  next hname =>
    rw [if_neg hname, size, OrderedMap.size, List.length_eq_zero_iff] at h
    have hkeys : (catalog.names.insert (Text.lowercase name) name).keys = [] := by
      rw [OrderedMap.keys, h]
      rfl
    have hkey : Text.lowercase name ∈ (catalog.names.insert (Text.lowercase name) name).keys := by
      rw [OrderedMap.keys_insert]
      split <;> simp [*]
    rw [hkeys] at hkey
    cases hkey

/-- Adding names leaves an empty catalog only if all of them are empty. -/
theorem foldl_add_eq_self_of_size (h : (names.foldl add catalog).size = 0) :
    names.foldl add catalog = catalog := by
  induction names generalizing catalog with
  | nil => rfl
  | cons name names ih =>
    rw [List.foldl_cons] at h ⊢
    have hrest := ih h
    rw [hrest] at h ⊢
    exact add_eq_self_of_size h

/-- **A catalog without names has no composite ones.** -/
theorem ofNames_eq_empty_of_size (h : (ofNames separator names).size = 0) :
    ofNames separator names = ⟨separator, ∅, []⟩ := by
  have hfold : names.foldl add ⟨separator, ∅, []⟩ = ⟨separator, ∅, []⟩ :=
    foldl_add_eq_self_of_size h
  rw [ofNames, hfold, List.mergeSort_nil]

/-! ## The catalog of distinct names -/

/-- No two of the names are the same in small letters. -/
def AreDistinct (names : List String) : Prop :=
  ∀ a ∈ names, ∀ b ∈ names, Text.lowercase a = Text.lowercase b → a = b

/-- **Each of distinct names is found**, in any case of its letters, and nothing else is. -/
theorem canonical?_eq_some_iff (h : AreDistinct names) :
    (ofNames separator names).canonical? tag = some name ↔
      name ∈ names ∧ name ≠ "" ∧ Text.lowercase name = Text.lowercase tag := by
  refine ⟨of_canonical?, ?_⟩
  rintro ⟨hm, hname⟩
  obtain ⟨before, after, rfl⟩ := List.append_of_mem hm
  rw [canonical?_ofNames, List.foldl_append, List.foldl_cons]
  rcases canonical?_foldl_add ((before.foldl add ⟨separator, ∅, []⟩).add name) after tag with
    hsame | ⟨other, hother, hkey, hfound⟩
  · rw [hsame, canonical?_add, if_pos hname]
  · -- a later name with the same small letters is the same one
    have := h name hm other (by simp [hother]) (hname.2.trans hkey.2.symm)
    rw [hfound, this]

/-- **Each of distinct names is a composite one if the separator splits it.** -/
theorem mem_composites_iff (h : AreDistinct names) :
    entry ∈ (ofNames separator names).composites ↔
      ∃ name ∈ names, name ≠ "" ∧ splits separator name = true ∧ entry = .ofName separator name := by
  refine ⟨of_mem_composites, ?_⟩
  rintro ⟨name, hm, hname⟩
  obtain ⟨before, after, rfl, hfirst⟩ := List.eq_append_cons_of_mem hm
  rw [ofNames, List.mem_mergeSort, List.foldl_append, List.foldl_cons]
  refine mem_composites_foldl_add (mem_composites_add.2 (.inr ?_)) after
  rw [separator_foldl_add]
  refine ⟨⟨⟨hname.1, hname.2.1⟩, ?_⟩, hname.2.2⟩
  rcases canonical?_foldl_add ⟨separator, ∅, []⟩ before name with hnone | ⟨other, hother, hkey, -⟩
  · exact hnone
  · -- an earlier name with the same small letters is the same one
    have := h other (by simp [hother]) name hm hkey.2
    exact absurd (this ▸ hother) hfirst

end Catalog

/-! ## The order of composite names -/

namespace Composite

/-- What the order compares. -/
def orderKey (entry : Composite) : ℕᵒᵈ ×ₗ String :=
  toLex (OrderDual.toDual entry.specificity, entry.name)

theorem precedes_iff (a b : Composite) : a.precedes b = true ↔ a.orderKey ≤ b.orderKey := by
  simp only [precedes, orderKey, Bool.or_eq_true, Bool.and_eq_true, decide_eq_true_eq, beq_iff_eq,
    Prod.Lex.toLex_le_toLex, OrderDual.toDual_lt_toDual, OrderDual.toDual_inj]

theorem precedes_trans (a b c : Composite) (hab : a.precedes b = true) (hbc : b.precedes c = true) :
    a.precedes c = true := by
  rw [precedes_iff] at hab hbc ⊢
  exact hab.trans hbc

theorem precedes_total (a b : Composite) : (a.precedes b || b.precedes a) = true := by
  rw [Bool.or_eq_true, precedes_iff, precedes_iff]
  exact le_total ..

theorem name_eq_of_precedes {a b : Composite} (hab : a.precedes b = true)
    (hba : b.precedes a = true) : a.name = b.name := by
  rw [precedes_iff] at hab hba
  exact congrArg (fun key => (ofLex key).2) (hab.antisymm hba)

end Composite

namespace Catalog

variable {separator : String} {names names' : List String}

/-! ## Names in another order -/

section
variable (h : AreDistinct names) (h' : AreDistinct names')
  (hsame : ∀ name ≠ "", name ∈ names ↔ name ∈ names')
include h h' hsame

/-- **The order of distinct names does not matter** for the spelling that is found. -/
theorem canonical?_congr (tag : String) :
    (ofNames separator names).canonical? tag = (ofNames separator names').canonical? tag := by
  refine Option.ext fun name => ?_
  rw [canonical?_eq_some_iff h, canonical?_eq_some_iff h']
  constructor
  · exact fun ⟨hm, hname⟩ => ⟨(hsame name hname.1).1 hm, hname⟩
  · exact fun ⟨hm, hname⟩ => ⟨(hsame name hname.1).2 hm, hname⟩

/-- **The order of distinct names does not matter** for the composite ones, which are sorted. -/
theorem composites_congr :
    (ofNames separator names).composites = (ofNames separator names').composites := by
  have hsorted (names : List String) : (ofNames separator names).composites.Pairwise
      fun a b => a.precedes b = true :=
    List.pairwise_mergeSort Composite.precedes_trans Composite.precedes_total _
  have hnodup (names : List String) : (ofNames separator names).composites.Nodup :=
    List.Nodup.of_map _ (nodup_composites_ofNames separator names)
  refine List.Perm.eq_of_pairwise (fun a b ha hb hab hba => ?_) (hsorted names) (hsorted names')
    ((List.perm_ext_iff_of_nodup (hnodup names) (hnodup names')).2 fun entry => ?_)
  · obtain ⟨name, -, -, -, rfl⟩ := (mem_composites_iff h).1 ha
    obtain ⟨name', -, -, -, rfl⟩ := (mem_composites_iff h').1 hb
    have hname : name = name' := Composite.name_eq_of_precedes hab hba
    rw [hname]
  · rw [mem_composites_iff h, mem_composites_iff h']
    refine exists_congr fun name => ?_
    constructor
    · exact fun ⟨hm, hne, hrest⟩ => ⟨(hsame name hne).1 hm, hne, hrest⟩
    · exact fun ⟨hm, hne, hrest⟩ => ⟨(hsame name hne).2 hm, hne, hrest⟩

end

end Catalog

end ComponentMarkup
