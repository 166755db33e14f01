/-
  What a catalog keeps of names that recur in other spellings.

  * `Catalog.firstSpelling?`, `Catalog.lastSpelling?`: the first and the last of the names that are
    the same as a given one in small letters.
  * `Catalog.canonical?_ofNames_eq`: a name is found in its last spelling.
  * `Catalog.exists_mem_composites_iff`: the composite names are the first spellings that the
    separator splits.
  * `Composite.two_le_length_segments`: a separator in small letters is still there when a name is
    lowered, so that composite names have at least two segments.
  * `Catalog.Represents`, `Catalog.represents_ofNames`: all of this about the catalog of any names,
    and when both spellings are the same one. They need not be (`Catalog.canonical?_ne_of_recurring`).
-/
import Mathlib.Data.List.Induction
import ComponentMarkup.Proofs.CatalogNames
import ComponentMarkup.Proofs.LoweredText
import ComponentMarkup.Proofs.SplitPieces

namespace ComponentMarkup

theorem Composite.two_le_length_segments {separator name : String} (hlower : Text.IsLower separator)
    (h : Catalog.splits separator name = true) : 2 ≤ (ofName separator name).segments.length := by
  rw [Catalog.splits, Bool.and_eq_true, bne_iff_ne, Text.occursIn_iff] at h
  rw [ofName, Text.splitAt, List.length_map]
  exact Text.two_le_length_piecesOf (by simpa using h.1) (Text.infix_lowercase hlower h.2)

namespace Catalog

variable {separator name tag : String} {names : List String} {entry : Composite}

/-! ## Spellings -/

/-- Whether a name is another one in some case. The empty name is none. -/
def isSpelling (tag name : String) : Bool :=
  name != "" && Text.lowercase name == Text.lowercase tag

/-- The first of the names that is a given one in some case. -/
def firstSpelling? (names : List String) (tag : String) : Option String :=
  names.find? (isSpelling tag)

/-- The last of the names that is a given one in some case. -/
def lastSpelling? (names : List String) (tag : String) : Option String :=
  names.reverse.find? (isSpelling tag)

theorem isSpelling_iff : isSpelling tag name = true ↔
    name ≠ "" ∧ Text.lowercase name = Text.lowercase tag := by
  simp [isSpelling]

theorem firstSpelling?_concat (names : List String) (name tag : String) :
    firstSpelling? (names ++ [name]) tag =
      (firstSpelling? names tag).or (if isSpelling tag name then some name else none) := by
  rw [firstSpelling?, List.find?_append, List.find?_singleton]
  rfl

theorem lastSpelling?_concat (names : List String) (name tag : String) :
    lastSpelling? (names ++ [name]) tag =
      if isSpelling tag name then some name else lastSpelling? names tag := by
  rw [lastSpelling?, List.reverse_concat, List.find?_cons]
  cases isSpelling tag name <;> rfl

theorem firstSpelling?_eq_none_iff : firstSpelling? names tag = none ↔
    lastSpelling? names tag = none := by
  rw [firstSpelling?, lastSpelling?, List.find?_eq_none, List.find?_eq_none]
  simp only [List.mem_reverse]

/-! ## What is kept of each name -/

theorem mem_keys_add (catalog : Catalog) (name key : String) :
    key ∈ (catalog.add name).names.keys ↔
      key ∈ catalog.names.keys ∨ (name ≠ "" ∧ Text.lowercase name = key) := by
  unfold add
  split
  next hempty => simp [hempty]
  next hne =>
    rw [and_iff_right hne]
    dsimp only
    rw [OrderedMap.keys_insert]
    split
    next hknown =>
      refine ⟨.inl, ?_⟩
      rintro (h | rfl)
      · exact h
      · exact hknown
    next => rw [List.mem_append, List.mem_singleton, eq_comm (a := key)]

/-- The keys are the names in small letters. -/
theorem mem_keys_ofNames {key : String} : key ∈ (ofNames separator names).names.keys ↔
    ∃ name ∈ names, name ≠ "" ∧ Text.lowercase name = key := by
  have hkeys : key ∈ (names.foldl add ⟨separator, ∅, []⟩).names.keys ↔
      ∃ name ∈ names, name ≠ "" ∧ Text.lowercase name = key := by
    induction names using List.reverseRecOn with
    | nil => simp
    | append_singleton names name ih =>
      rw [List.foldl_concat, mem_keys_add, ih]
      simp only [List.mem_append, List.mem_singleton, or_and_right, exists_or, exists_eq_left]
  exact hkeys

/-- **A name is found in its last spelling.** -/
theorem canonical?_ofNames_eq (separator : String) (names : List String) (tag : String) :
    (ofNames separator names).canonical? tag = lastSpelling? names tag := by
  rw [canonical?_ofNames]
  induction names using List.reverseRecOn with
  | nil => rfl
  | append_singleton names name ih =>
    rw [List.foldl_concat, canonical?_add, lastSpelling?_concat, ih]
    simp only [isSpelling_iff]

/-- A composite name is the first spelling of a name, if the separator splits it. -/
theorem mem_composites_ofNames : entry ∈ (ofNames separator names).composites ↔
    entry = .ofName separator entry.name ∧ splits separator entry.name = true ∧
      firstSpelling? names entry.name = some entry.name := by
  rw [ofNames, List.mem_mergeSort]
  induction names using List.reverseRecOn with
  | nil =>
    refine iff_of_false List.not_mem_nil ?_
    rintro ⟨-, -, hfirst⟩
    cases hfirst
  | append_singleton names name ih =>
    rw [List.foldl_concat, mem_composites_add, ih, separator_foldl_add, ← canonical?_ofNames,
      canonical?_ofNames_eq, ← firstSpelling?_eq_none_iff]
    constructor
    · rintro (⟨hentry, hsplits, hfirst⟩ | ⟨⟨⟨hne, hsplits⟩, hnew⟩, rfl⟩)
      · exact ⟨hentry, hsplits, by rw [firstSpelling?_concat, hfirst, Option.some_or]⟩
      · refine ⟨rfl, hsplits, ?_⟩
        rw [firstSpelling?_concat, Composite.ofName, hnew, Option.none_or,
          if_pos (isSpelling_iff.2 ⟨hne, rfl⟩)]
    · rintro ⟨hentry, hsplits, hfirst⟩
      rw [firstSpelling?_concat] at hfirst
      cases hknown : firstSpelling? names entry.name with
      | some found =>
        rw [hknown, Option.some_or] at hfirst
        exact .inl ⟨hentry, hsplits, hfirst⟩
      | none =>
        rw [hknown, Option.none_or] at hfirst
        split at hfirst
        next hspelling =>
          obtain rfl : name = entry.name := Option.some.inj hfirst
          exact .inr ⟨⟨⟨(isSpelling_iff.1 hspelling).1, hsplits⟩, hknown⟩, hentry⟩
        next => cases hfirst

theorem exists_mem_composites_iff : (∃ entry ∈ (ofNames separator names).composites,
    entry.name = name) ↔ splits separator name = true ∧ firstSpelling? names name = some name := by
  simp only [mem_composites_ofNames]
  constructor
  · rintro ⟨entry, ⟨-, h⟩, rfl⟩
    exact h
  · exact fun h => ⟨.ofName separator name, ⟨rfl, h⟩, rfl⟩

theorem sorted_composites_ofNames (separator : String) (names : List String) :
    (ofNames separator names).composites.Pairwise fun a b =>
      b.specificity < a.specificity ∨ a.specificity = b.specificity ∧ a.name < b.name := by
  have hsorted : (ofNames separator names).composites.Pairwise fun a b => a.precedes b = true :=
    List.pairwise_mergeSort Composite.precedes_trans Composite.precedes_total _
  have hdistinct := List.pairwise_map.1 (nodup_composites_ofNames separator names)
  refine hsorted.imp₂ (fun a b hle hne => ?_) hdistinct
  rw [Composite.precedes_iff, Composite.orderKey, Composite.orderKey, Prod.Lex.toLex_le_toLex,
    OrderDual.toDual_lt_toDual, OrderDual.toDual_inj] at hle
  exact hle.imp_right fun h => ⟨h.1, lt_of_le_of_ne h.2 fun hname => hne (by rw [hname])⟩

/-! ## The catalog of any names -/

/-- What a catalog keeps of the names that it was made of. -/
structure Represents (catalog : Catalog) (names : List String) : Prop where
  nodup_keys : catalog.names.keys.Nodup
  mem_keys_iff : ∀ key, key ∈ catalog.names.keys ↔
    ∃ name ∈ names, name ≠ "" ∧ Text.lowercase name = key
  canonical?_eq : ∀ tag, catalog.canonical? tag = lastSpelling? names tag
  sorted_composites : catalog.composites.Pairwise fun a b =>
    b.specificity < a.specificity ∨ a.specificity = b.specificity ∧ a.name < b.name
  segments : ∀ entry ∈ catalog.composites, 2 ≤ entry.segments.length ∧
    catalog.separator.intercalate entry.segments = Text.lowercase entry.name
  /-- No name has two composite ones. -/
  nodup_composites : (catalog.composites.map fun entry => Text.lowercase entry.name).Nodup
  exists_mem_composites_iff : ∀ name, (∃ entry ∈ catalog.composites, entry.name = name) ↔
    splits catalog.separator name = true ∧ firstSpelling? names name = some name

/-- The composite names are the known ones that the separator splits, in the spelling in which they
are known. -/
def IsConsistent (catalog : Catalog) : Prop :=
  ∀ name, (∃ entry ∈ catalog.composites, entry.name = name) ↔
    splits catalog.separator name = true ∧ catalog.canonical? name = some name

/-- **The catalog of any names** keeps the last spelling of every name and makes composite ones of
the first spellings. It is consistent exactly if no name that the separator splits is only one of
the two. -/
theorem represents_ofNames (hlower : Text.IsLower separator) (names : List String) :
    (ofNames separator names).Represents names ∧
      ((ofNames separator names).IsConsistent ↔ ∀ name, splits separator name = true →
        (firstSpelling? names name = some name ↔ lastSpelling? names name = some name)) := by
  have hseparator := separator_ofNames separator names
  constructor
  · refine ⟨OrderedMap.nodup_keys _, fun key => mem_keys_ofNames, canonical?_ofNames_eq separator names,
      sorted_composites_ofNames separator names, fun entry hm => ?_,
      nodup_composites_ofNames separator names, fun name => ?_⟩
    · obtain ⟨hentry, hsplits, -⟩ := mem_composites_ofNames.1 hm
      rw [hseparator, hentry]
      exact ⟨Composite.two_le_length_segments hlower hsplits, Text.intercalate_splitAt _ _⟩
    · rw [hseparator]
      exact exists_mem_composites_iff
  · rw [IsConsistent, hseparator]
    refine forall_congr' fun name => ?_
    rw [exists_mem_composites_iff, canonical?_ofNames_eq]
    exact and_congr_right_iff

/-- Of two spellings of a name without a separator, the later one is kept. -/
theorem represents_ofNames_cards : Text.IsLower "-" ∧
    (ofNames "-" ["card", "Card-Header", "", "Card"]).Represents
      ["card", "Card-Header", "", "Card"] ∧
    (ofNames "-" ["card", "Card-Header", "", "Card"]).canonical? "CARD" = some "Card" ∧
    ∃ entry ∈ (ofNames "-" ["card", "Card-Header", "", "Card"]).composites,
      entry.name = "Card-Header" := by
  obtain ⟨hcatalog, -⟩ :=
    represents_ofNames Text.isLower_hyphen ["card", "Card-Header", "", "Card"]
  refine ⟨Text.isLower_hyphen, hcatalog, ?_, ?_⟩
  · rw [hcatalog.canonical?_eq]
    decide +kernel
  · rw [hcatalog.exists_mem_composites_iff, separator_ofNames]
    decide +kernel

/-- **A name that recurs is known in another spelling than its composite one.** -/
theorem canonical?_ne_of_recurring : Text.IsLower "-" ∧
    ∃ entry ∈ (ofNames "-" ["a-b", "A-B"]).composites,
      entry.name = "a-b" ∧ (ofNames "-" ["a-b", "A-B"]).canonical? entry.name = some "A-B" := by
  have hentry : Composite.ofName "-" "a-b" ∈ (ofNames "-" ["a-b", "A-B"]).composites :=
    mem_composites_ofNames.2 ⟨rfl, by decide +kernel, by decide +kernel⟩
  refine ⟨Text.isLower_hyphen, _, hentry, rfl, ?_⟩
  rw [canonical?_ofNames_eq]
  decide +kernel

end Catalog

end ComponentMarkup
