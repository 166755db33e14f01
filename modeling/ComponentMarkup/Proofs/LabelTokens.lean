/-
  Class tokens that are made of labels.

  * `AreRuns`: the maximal runs of kept characters of a text, in order; `areRuns_iff`: they are what
    `runsWhere` finds.
  * `Joins`: words joined by a separator, from which they can be told again: the separator stands
    between two words and nowhere else.
  * `lowercase_slug`: the token of a label is in small letters, whatever gap is put between its
    words, since only letters are lowered.
  * `slug_joins`: a token joins the runs of letters and numbers of the lowered label, and is its own
    token. A class joiner without letters, numbers and characters of the separator has no character
    in common with the token of a component.
-/
import ComponentMarkup.ClassName
import ComponentMarkup.Proofs.JoinedWords
import ComponentMarkup.Proofs.LoweredText

namespace ComponentMarkup

namespace Text

/-! ## Runs -/

/-- The maximal runs of kept characters, in the order of the text. -/
inductive AreRuns (keep : Char → Bool) : List Char → List (List Char) → Prop
  | nil : AreRuns keep [] []
  /-- A character that is not kept is in no run. -/
  | gap {c : Char} {cs : List Char} {runs : List (List Char)} (hc : keep c = false)
      (h : AreRuns keep cs runs) : AreRuns keep (c :: cs) runs
  /-- A run ends only where a character is not kept. -/
  | run {run cs : List Char} {runs : List (List Char)} (hne : run ≠ [])
      (hkeep : ∀ c ∈ run, keep c = true) (hend : ∀ c ∈ cs.head?, keep c = false)
      (h : AreRuns keep cs runs) : AreRuns keep (run ++ cs) (run :: runs)

variable {keep : Char → Bool} {c : Char} {cs run sep : List Char} {runs : List (List Char)}

theorem runsWhere_append_cons (hc : keep c = false) (before after : List Char) :
    runsWhere keep (before ++ c :: after) = runsWhere keep before ++ runsWhere keep after := by
  rw [runsWhere, List.splitOnP_append_cons before after (by rw [hc]; rfl), List.filter_append]
  rfl

theorem runsWhere_cons (hc : keep c = false) (cs : List Char) :
    runsWhere keep (c :: cs) = runsWhere keep cs :=
  runsWhere_append_cons hc [] cs

theorem runsWhere_of_forall (hne : run ≠ []) (hkeep : ∀ c ∈ run, keep c = true) :
    runsWhere keep run = [run] := by
  have hrun : ∀ c ∈ run, (!keep c) = false := fun c hc => by rw [hkeep c hc]; rfl
  rw [runsWhere, List.splitOnP_eq_singleton hrun]
  simp [hne]

theorem areRuns_runsWhere (keep : Char → Bool) (cs : List Char) :
    AreRuns keep cs (runsWhere keep cs) := by
  match cs with
  | [] => exact .nil
  | c :: cs =>
    cases hc : keep c with
    | false =>
      rw [runsWhere_cons hc]
      exact .gap hc (areRuns_runsWhere keep cs)
    | true =>
      -- the run that begins here goes as far as `takeWhile`
      have hne : c :: cs.takeWhile keep ≠ [] := List.cons_ne_nil _ _
      have hkeep : ∀ d ∈ c :: cs.takeWhile keep, keep d = true :=
        List.forall_mem_cons.2 ⟨hc, List.all_eq_true.1 List.all_takeWhile⟩
      have hsplit : c :: cs = (c :: cs.takeWhile keep) ++ cs.dropWhile keep := by
        rw [List.cons_append, List.takeWhile_append_dropWhile]
      cases hrest : cs.dropWhile keep with
      | nil =>
        rw [hsplit, hrest, List.append_nil, runsWhere_of_forall hne hkeep]
        simpa using AreRuns.run hne hkeep (by simp) AreRuns.nil
      | cons d rest =>
        have hd : keep d = false := by
          have := List.head?_dropWhile_not keep cs
          rw [hrest] at this
          simpa using this
        have hshorter : rest.length < cs.length := by
          have := (List.dropWhile_suffix keep (l := cs)).length_le
          rw [hrest] at this
          exact this
        rw [hsplit, hrest, runsWhere_append_cons hd, runsWhere_of_forall hne hkeep]
        exact .run hne hkeep (by simp [hd]) (.gap hd (areRuns_runsWhere keep rest))
termination_by cs.length

/-- **The maximal runs of a text** are the ones that are found. -/
theorem areRuns_iff : AreRuns keep cs runs ↔ runsWhere keep cs = runs := by
  constructor
  · intro h
    induction h with
    | nil => rfl
    | gap hc _ ih => rw [runsWhere_cons hc, ih]
    | @run run cs runs hne hkeep hend _ ih =>
      cases cs with
      | nil =>
        rw [List.append_nil, runsWhere_of_forall hne hkeep, ← ih]
        rfl
      | cons c cs =>
        have hc : keep c = false := hend c rfl
        rw [runsWhere_append_cons hc, runsWhere_of_forall hne hkeep, ← runsWhere_cons hc, ih]
        rfl
  · rintro rfl
    exact areRuns_runsWhere keep cs

theorem AreRuns.of_mem (h : AreRuns keep cs runs) (hrun : run ∈ runs) :
    run ≠ [] ∧ ∀ c ∈ run, c ∈ cs ∧ keep c = true := by
  induction h with
  | nil => cases hrun
  | gap _ _ ih =>
    obtain ⟨hne, hmem⟩ := ih hrun
    exact ⟨hne, fun c hc => ⟨List.mem_cons_of_mem _ (hmem c hc).1, (hmem c hc).2⟩⟩
  | run hne hkeep _ _ ih =>
    rcases List.mem_cons.1 hrun with rfl | hrun
    · exact ⟨hne, fun c hc => ⟨List.mem_append_left _ hc, hkeep c hc⟩⟩
    · obtain ⟨hne, hmem⟩ := ih hrun
      exact ⟨hne, fun c hc => ⟨List.mem_append_right _ (hmem c hc).1, (hmem c hc).2⟩⟩

theorem AreRuns.gaps (hgap : ∀ c ∈ sep, keep c = false) (h : AreRuns keep cs runs) :
    AreRuns keep (sep ++ cs) runs := by
  induction sep with
  | nil => exact h
  | cons c sep ih =>
    obtain ⟨hc, hgap⟩ := List.forall_mem_cons.1 hgap
    exact .gap hc (ih hgap)

/-- Runs stay the runs of the text when they are joined by a gap. -/
theorem AreRuns.intercalate (hsep : sep ≠ []) (hgap : ∀ c ∈ sep, keep c = false)
    (hruns : ∀ run ∈ runs, run ≠ [] ∧ ∀ c ∈ run, keep c = true) :
    AreRuns keep (sep.intercalate runs) runs := by
  induction runs with
  | nil => exact .nil
  | cons run runs ih =>
    obtain ⟨⟨hne, hkeep⟩, hrest⟩ := List.forall_mem_cons.1 hruns
    cases runs with
    | nil =>
      rw [List.intercalate_singleton, ← List.append_nil run]
      simpa using AreRuns.run hne hkeep (by simp) AreRuns.nil
    | cons next runs =>
      rw [List.intercalate_cons_cons, List.append_assoc]
      refine .run hne hkeep ?_ ((ih hrest).gaps hgap)
      obtain ⟨d, ds, rfl⟩ := List.exists_cons_of_ne_nil hsep
      intro c hc
      cases hc
      exact hgap d List.mem_cons_self

theorem mem_intercalate (h : c ∈ sep.intercalate runs) : c ∈ sep ∨ ∃ run ∈ runs, c ∈ run := by
  induction runs with
  | nil => cases h
  | cons run runs ih =>
    cases runs with
    | nil =>
      rw [List.intercalate_singleton] at h
      exact .inr ⟨run, List.mem_cons_self, h⟩
    | cons next runs =>
      rw [List.intercalate_cons_cons, List.mem_append, List.mem_append] at h
      rcases h with (h | h) | h
      · exact .inr ⟨run, List.mem_cons_self, h⟩
      · exact .inl h
      · refine (ih h).imp_right fun ⟨found, hmem, hc⟩ => ?_
        exact ⟨found, List.mem_cons_of_mem _ hmem, hc⟩

end Text

/-! ## Joined words -/

/-- The text joins the words by the separator, and they can be told from it: it neither begins nor
ends with the separator and does not double it, and splitting it gives the words back. -/
structure Joins (separator : String) (words : List String) (text : String) : Prop where
  eq_intercalate : text = separator.intercalate words
  not_isPrefix : ¬ separator.toList <+: text.toList
  not_isSuffix : ¬ separator.toList <:+ text.toList
  not_doubled : ¬ (separator ++ separator).toList <:+: text.toList
  eq_nil_iff : words = [] ↔ text = ""
  splitAt_eq : text ≠ "" → Text.splitAt separator text = words

namespace AreTokens

variable {joiner : String} {tokens : List String}

theorem not_isPrefix (hj : joiner ≠ "") (h : AreTokens joiner tokens) :
    ¬ joiner.toList <+: (joiner.intercalate tokens).toList := by
  rintro ⟨after, hafter⟩
  have heq : joiner.intercalate tokens = "" ++ joiner ++ String.ofList after := by
    rw [← String.toList_inj, ← hafter]
    simp
  obtain ⟨front, back, hfront, -, rfl, hempty, -⟩ := h.exists_of_intercalate_eq hj heq
  have hpart : AreTokens joiner front := h.of_subset (List.subset_append_left _ _)
  exact hfront (hpart.intercalate_eq_empty_iff.1 hempty.symm)

theorem not_isSuffix (hj : joiner ≠ "") (h : AreTokens joiner tokens) :
    ¬ joiner.toList <:+ (joiner.intercalate tokens).toList := by
  rintro ⟨before, hbefore⟩
  have heq : joiner.intercalate tokens = String.ofList before ++ joiner ++ "" := by
    rw [← String.toList_inj, ← hbefore]
    simp
  obtain ⟨front, back, -, hback, rfl, -, hempty⟩ := h.exists_of_intercalate_eq hj heq
  have hpart : AreTokens joiner back := h.of_subset (List.subset_append_right _ _)
  exact hback (hpart.intercalate_eq_empty_iff.1 hempty.symm)

theorem not_doubled (hj : joiner ≠ "") (h : AreTokens joiner tokens) :
    ¬ (joiner ++ joiner).toList <:+: (joiner.intercalate tokens).toList := by
  rintro ⟨before, after, hdoubled⟩
  have heq : joiner.intercalate tokens =
      String.ofList before ++ joiner ++ (joiner ++ String.ofList after) := by
    rw [← String.toList_inj, ← hdoubled]
    simp
  obtain ⟨front, back, -, -, rfl, -, hback⟩ := h.exists_of_intercalate_eq hj heq
  -- the second one would be at the start of the tokens behind the first one
  refine (h.of_subset (List.subset_append_right front back)).not_isPrefix hj ?_
  rw [← hback, String.toList_append]
  exact List.prefix_append _ _

theorem joins (hj : joiner ≠ "") (h : AreTokens joiner tokens) :
    Joins joiner tokens (joiner.intercalate tokens) where
  eq_intercalate := rfl
  not_isPrefix := h.not_isPrefix hj
  not_isSuffix := h.not_isSuffix hj
  not_doubled := h.not_doubled hj
  eq_nil_iff := h.intercalate_eq_empty_iff.symm
  splitAt_eq hne := h.splitAt_intercalate hj (mt h.intercalate_eq_empty_iff.2 hne)

end AreTokens

/-! ## Labels -/

namespace Naming

variable {separator label : String} {c : Char}

/-- The words of a label as texts. -/
def labelWords (label : String) : List String := (slugWords label).map String.ofList

theorem slug_literal (separator label : String) :
    slug (.literal separator) label = separator.intercalate (labelWords label) := rfl

theorem map_toList_labelWords (label : String) :
    (labelWords label).map String.toList = slugWords label :=
  Text.map_toList_ofList _

theorem areRuns_slugWords (label : String) :
    Text.AreRuns Text.isAlphanumeric (Text.lowercase label).toList (slugWords label) :=
  Text.areRuns_runsWhere _ _

theorem toList_slug (separator label : String) :
    (slug (.literal separator) label).toList = separator.toList.intercalate (slugWords label) := by
  rw [slug_literal, String.toList_intercalate, map_toList_labelWords]

theorem mem_slug (h : c ∈ (slug (.literal separator) label).toList) :
    c ∈ separator.toList ∨ c ∈ (Text.lowercase label).toList ∧ Text.isAlphanumeric c = true := by
  rw [toList_slug] at h
  refine (Text.mem_intercalate h).imp_right fun ⟨word, hword, hc⟩ => ?_
  exact ((areRuns_slugWords label).of_mem hword).2 c hc

section

variable (hgap : ∀ c ∈ separator.toList, Text.isAlphanumeric c = false)
include hgap

theorem areTokens_labelWords (label : String) : AreTokens separator (labelWords label) := by
  intro word hword
  have hrun : word.toList ∈ slugWords label := by
    rw [← map_toList_labelWords]
    exact List.mem_map_of_mem hword
  obtain ⟨hne, hkeep⟩ := (areRuns_slugWords label).of_mem hrun
  refine ⟨mt String.toList_eq_nil_iff.2 hne, fun c hc hmem => ?_⟩
  exact Bool.false_ne_true ((hgap c hc).symm.trans (hkeep c hmem).2)

/-- The token of a label is in small letters. -/
theorem lowercase_slug (label : String) :
    Text.lowercase (slug (.literal separator) label) = slug (.literal separator) label := by
  refine Text.lowercase_of_isLower fun c hc => ?_
  rcases mem_slug hc with hc | ⟨hc, -⟩
  · exact Text.lowerChar_of_not_isAlphanumeric (hgap c hc)
  · exact Text.isLower_lowercase label c hc

/-- The token of a label is its own token. -/
theorem slug_slug (hsep : separator ≠ "") (label : String) :
    slug (.literal separator) (slug (.literal separator) label) =
      slug (.literal separator) label := by
  have hne : separator.toList ≠ [] := by rwa [Ne, String.toList_eq_nil_iff]
  have hruns : Text.AreRuns Text.isAlphanumeric (slug (.literal separator) label).toList
      (slugWords label) := by
    rw [toList_slug]
    refine .intercalate hne hgap fun run hrun => ?_
    obtain ⟨hne, hkeep⟩ := (areRuns_slugWords label).of_mem hrun
    exact ⟨hne, fun c hc => (hkeep c hc).2⟩
  have hwords : slugWords (slug (.literal separator) label) = slugWords label := by
    rw [slugWords, lowercase_slug hgap, Text.areRuns_iff.1 hruns]
  rw [slug_literal separator (slug _ _), labelWords, hwords, ← labelWords, slug_literal]

end

end Naming

theorem ClassConfig.exists_token_eq_slug (config : ClassConfig) (node : Node) :
    ∃ label, config.token node = Naming.slug config.tagJoiner label := by
  unfold token
  cases node.attribute? "name" with
  | none => exact ⟨node.name, rfl⟩
  | some label =>
    by_cases hempty : Naming.slug config.tagJoiner label = ""
    · exact ⟨node.name, if_pos hempty⟩
    · exact ⟨label, if_neg hempty⟩

namespace Naming

/-- **Class tokens can be taken apart.** The token of a label joins the maximal runs of letters and
numbers of the lowered label, which can be told from it, and it is its own token. So the tokens of
components hold no character of a class joiner in which there are no letters or numbers and no
characters of the separator. -/
theorem slug_joins {separator : String} (hsep : separator ≠ "")
    (hgap : ∀ c ∈ separator.toList, Text.isAlphanumeric c = false) :
    (∀ label, ∃ words,
      Text.AreRuns Text.isAlphanumeric (Text.lowercase label).toList (words.map String.toList) ∧
      Joins separator words (slug (.literal separator) label) ∧
      slug (.literal separator) (slug (.literal separator) label) =
        slug (.literal separator) label) ∧
    ∀ (config : ClassConfig) (node : Node), config.tagJoiner = .literal separator →
      (∀ c ∈ config.joiner.toList, c ∉ separator.toList ∧ Text.isAlphanumeric c = false) →
      ∀ c ∈ config.joiner.toList, c ∉ (config.token node).toList := by
  constructor
  · intro label
    refine ⟨labelWords label, ?_, ?_, slug_slug hgap hsep label⟩
    · rw [map_toList_labelWords]
      exact areRuns_slugWords label
    · exact (areTokens_labelWords hgap label).joins hsep
  · intro config node htag hjoiner c hc hmem
    obtain ⟨label, htoken⟩ := config.exists_token_eq_slug node
    rw [htoken, htag] at hmem
    obtain ⟨hfree, hother⟩ := hjoiner c hc
    rcases mem_slug hmem with hsep | ⟨-, halpha⟩
    · exact hfree hsep
    · exact Bool.false_ne_true (hother.symm.trans halpha)

/-- The dot of `İ` is a mark of its own in small letters, and ends the word. -/
theorem slug_joins_heading :
    let label := "İstanbul  -- Über Uns!"
    let node : Node := ⟨"card", .ofList [("name", label)], []⟩
    let config : ClassConfig := {}
    "-" ≠ "" ∧ (∀ c ∈ "-".toList, Text.isAlphanumeric c = false) ∧
    (∃ words, Text.AreRuns Text.isAlphanumeric (Text.lowercase label).toList
        (words.map String.toList) ∧
      words = ["i", "stanbul", "über", "uns"] ∧ Joins "-" words (slug (.literal "-") label)) ∧
    config.tagJoiner = .literal "-" ∧
    (∀ c ∈ config.joiner.toList, c ∉ "-".toList ∧ Text.isAlphanumeric c = false) ∧
    config.token node = "i-stanbul-über-uns" ∧
    ∀ c ∈ config.joiner.toList, c ∉ (config.token node).toList := by
  intro label node config
  have hsep : "-" ≠ "" := by decide
  have hgap : ∀ c ∈ "-".toList, Text.isAlphanumeric c = false := by
    rw [show "-".toList = ['-'] from rfl, List.forall_mem_singleton]
    decide +kernel
  have hjoiner : ∀ c ∈ config.joiner.toList, c ∉ "-".toList ∧ Text.isAlphanumeric c = false := by
    rw [show config.joiner.toList = ['_', '_'] by decide +kernel, List.forall_mem_cons,
      List.forall_mem_singleton, and_self]
    decide +kernel
  obtain ⟨hlabels, htokens⟩ := slug_joins hsep hgap
  obtain ⟨words, hruns, hjoins, -⟩ := hlabels label
  have hwords : words = ["i", "stanbul", "über", "uns"] := by
    rw [← hjoins.splitAt_eq (by decide +kernel)]
    decide +kernel
  exact ⟨hsep, hgap, ⟨words, hruns, hwords, hjoins⟩, rfl, hjoiner, by decide +kernel,
    htokens config node rfl hjoiner⟩

end Naming

end ComponentMarkup
