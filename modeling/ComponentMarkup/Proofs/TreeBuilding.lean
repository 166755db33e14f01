/-
  Building trees accepts exactly the well-nested token lists.

  * `collect_eq`: the attributes of a start tag and the reports on the repeated ones.
  * `foldl_process_content`: content goes into the innermost open element, child by child;
    `process_root`: where none is open, an element becomes a top-level one.
  * `Outline`: what the tokens so far say about the open elements and the top-level ones;
    `Outline.process` keeps it, as long as there is no error.
  * `buildTree_eq_ok_iff_isDocument`: the tree of a token list is the one that the grammar gives.
-/
import ComponentMarkup.Proofs.TokenGrammar

namespace ComponentMarkup.Markup

/-! ## Attributes -/

theorem collect_from (attributes : List TagAttribute) (kept : Attributes)
    (problems : List Problem) :
    let result := attributes.foldl
      (fun (kept, problems) attr =>
        if kept.contains attr.name then
          (kept, problems ++ [Problem.repeatedAttribute attr.name attr.span])
        else (kept.insert attr.name attr.value, problems))
      (kept, problems)
    result.1.entries = kept.entries ++ ((firstOnly attributes).filter
        fun attr => attr.name ∉ kept.keys).map (fun attr => (attr.name, attr.value)) ∧
      result.2 = problems ++ (repeatedOnly kept.keys attributes).map
        fun attr => .repeatedAttribute attr.name attr.span := by
  induction attributes generalizing kept problems with
  | nil => simp [firstOnly, repeatedOnly]
  | cons attr rest ih =>
    rw [List.foldl_cons]
    by_cases hm : attr.name ∈ kept.keys
    · obtain ⟨hk, hp⟩ := ih kept (problems ++ [.repeatedAttribute attr.name attr.span])
      simp only [OrderedMap.contains_iff.2 hm, if_true]
      refine ⟨?_, by rw [hp, repeatedOnly, if_pos hm]; simp⟩
      rw [hk, firstOnly, List.filter_cons_of_neg (by simpa using hm), List.filter_filter]
      congr 2
      refine List.filter_congr fun other _ => ?_
      by_cases ho : other.name = attr.name <;> simp [ho, hm]
    · obtain ⟨hk, hp⟩ := ih (kept.insert attr.name attr.value) problems
      have hc : kept.contains attr.name = false := by
        rw [← Bool.not_eq_true, OrderedMap.contains_iff]; exact hm
      simp only [hc, Bool.false_eq_true, if_false]
      rw [OrderedMap.keys_insert_of_not_mem hm] at hk hp
      refine ⟨?_, by rw [hp, repeatedOnly, if_neg hm]⟩
      rw [hk, OrderedMap.entries_insert_of_not_mem hm, firstOnly,
        List.filter_cons_of_pos (by simpa using hm), List.filter_filter]
      simp [Bool.and_comm]

theorem collect_eq (attributes : List TagAttribute) : Construction.collect attributes =
    (firstAttributes attributes, (repeatedOnly [] attributes).map
      fun attr => .repeatedAttribute attr.name attr.span) := by
  obtain ⟨hk, hp⟩ := collect_from attributes ∅ []
  refine Prod.ext (OrderedMap.eq_of_entries_eq (hk.trans ?_)) (hp.trans (List.nil_append _))
  rw [OrderedMap.keys_empty, List.filter_eq_self.2 (by simp)]
  rfl

namespace Token

theorem repeats_of_text {token : Token} {s : String} (h : token.text? = some s) :
    token.repeats = [] := by
  cases token with
  | startTag => cases h
  | _ => rfl

theorem repeats_of_not_structural {voids : VoidTags} {token : Token}
    (h : token.isStructural voids = false) : token.repeats = [] := by
  cases token with
  | startTag => cases h
  | _ => rfl

theorem flatMap_repeats_of_blank {tokens : List PlacedToken}
    (h : ∀ token ∈ tokens.map PlacedToken.token, token.IsBlank) :
    tokens.flatMap (·.token.repeats) = [] := by
  rw [List.flatMap_eq_nil_iff]
  intro placed hp
  obtain ⟨s, hs, -⟩ := h _ (List.mem_map_of_mem hp)
  exact repeats_of_text hs

theorem flatMap_repeats_filter (voids : VoidTags) (tokens : List PlacedToken) :
    (tokens.filter fun placed => placed.token.isStructural voids).flatMap (·.token.repeats) =
      tokens.flatMap (·.token.repeats) := by
  induction tokens with
  | nil => rfl
  | cons placed rest ih =>
    rw [List.filter_cons, List.flatMap_cons, ← ih]
    cases h : placed.token.isStructural voids with
    | false => rw [repeats_of_not_structural h, if_neg Bool.false_ne_true, List.nil_append]
    | true => rw [if_pos rfl, List.flatMap_cons]

theorem mem_repeats {token : Token} {problem : Problem} (h : problem ∈ token.repeats) :
    ∃ key span, problem = .repeatedAttribute key span := by
  cases token with
  | startTag name attributes selfClosing =>
    obtain ⟨attr, -, rfl⟩ := List.mem_map.1 h
    exact ⟨_, _, rfl⟩
  | _ => cases h

end Token

/-! ## Single tokens -/

namespace Construction

variable {voids : VoidTags} {placed : PlacedToken} {e : OpenElement} {outer : List OpenElement}
  {roots : List (Node × Span)} {problems : List Problem} {name tag s : String}
  {attributes : List TagAttribute} {selfClosing : Bool} {span : Span}

theorem process_of_not_structural (c : Construction)
    (h : placed.token.isStructural voids = false) : c.process voids placed = c := by
  obtain ⟨token, span⟩ := placed
  cases token with
  | endTag name => simp_all [process, endTag, Token.isStructural]
  | comment | declaration | «instruction» => rfl
  | startTag | text | rawText | cdata => cases h

theorem foldl_process_filter (tokens : List PlacedToken) (c : Construction) :
    tokens.foldl (process voids) c =
      (tokens.filter fun placed => placed.token.isStructural voids).foldl (process voids) c := by
  induction tokens generalizing c with
  | nil => rfl
  | cons placed rest ih =>
    rw [List.foldl_cons, List.filter_cons, ih]
    cases h : placed.token.isStructural voids with
    | false => rw [process_of_not_structural c h, if_neg Bool.false_ne_true]
    | true => rw [if_pos rfl, List.foldl_cons]

theorem process_text (c : Construction) (h : placed.token.text? = some s) :
    c.process voids placed = c.add (.text s) placed.span := by
  obtain ⟨token, span⟩ := placed
  cases token <;> cases h <;> rfl

theorem process_blank (h : placed.token.IsBlank) :
    process voids ⟨[], roots, problems⟩ placed = ⟨[], roots, problems⟩ := by
  obtain ⟨s, hs, hb⟩ := h
  have : Text.isVisible s = false := by
    rw [← Bool.not_eq_true, Text.isVisible_iff_trim]; simpa using hb
  simp [process_text _ hs, add, this]

theorem process_leaf (c : Construction) (h : (selfClosing || voids.has name) = true) :
    c.process voids ⟨.startTag name attributes selfClosing, span⟩ =
      { c with problems := c.problems ++ Token.repeats (.startTag name attributes selfClosing) }.add
        (.element ⟨name, firstAttributes attributes, []⟩) span := by
  simp only [process, startTag, collect_eq, h, if_true, Token.repeats]

theorem process_open (c : Construction) (h : voids.has name = false) :
    c.process voids ⟨.startTag name attributes false, span⟩ =
      ⟨⟨name, firstAttributes attributes, [], span⟩ :: c.opened, c.roots,
        c.problems ++ Token.repeats (.startTag name attributes false)⟩ := by
  simp [process, startTag, collect_eq, h, Token.repeats]

theorem process_close (h : voids.has tag = false) (hn : Text.sameName e.name tag = true) :
    process voids ⟨e :: outer, roots, problems⟩ ⟨.endTag tag, span⟩ =
      add ⟨outer, roots, problems⟩ (.element e.node) e.span := by
  simp [process, endTag, h, hn, close, closeInnermost]

end Construction

/-! ## Accepting documents -/

theorem OpenElement.foldl_add (children : List Child) (e : OpenElement) :
    (∀ t older, e.children = .text t :: older →
      (children.foldl add e).children.reverse =
        older.reverse ++ Child.joinTexts (.text t :: children)) ∧
    (Child.startsWithText e.children = false →
      (children.foldl add e).children.reverse = e.children.reverse ++ Child.joinTexts children) := by
  induction children generalizing e with
  | nil => exact ⟨fun t older h => by simp [h, Child.joinTexts], fun _ => by simp [Child.joinTexts]⟩
  | cons child rest ih =>
    refine ⟨fun t older h => ?_, fun h => ?_⟩
    · cases child with
      | text s =>
        rw [List.foldl_cons, Child.joinTexts_text_text]
        exact (ih (e.add (.text s))).1 (t ++ s) older (by simp [add, h])
      | element node =>
        rw [List.foldl_cons, (ih (e.add (.element node))).2 rfl]
        simp [add, h, Child.joinTexts]
    · cases child with
      | text s =>
        have hc : (e.add (.text s)).children = .text s :: e.children := by
          unfold add
          split
          next he => simp [he, Child.startsWithText] at h
          next => rfl
        rw [List.foldl_cons, (ih _).1 s e.children hc]
      | element node =>
        rw [List.foldl_cons, (ih (e.add (.element node))).2 rfl]
        simp [add, Child.joinTexts]

theorem OpenElement.name_add (e : OpenElement) (child : Child) : (e.add child).name = e.name := by
  unfold add; split <;> rfl

theorem OpenElement.attributes_add (e : OpenElement) (child : Child) :
    (e.add child).attributes = e.attributes := by
  unfold add; split <;> rfl

theorem OpenElement.name_foldl_add (children : List Child) (e : OpenElement) :
    (children.foldl add e).name = e.name := by
  induction children generalizing e with
  | nil => rfl
  | cons child rest ih => rw [List.foldl_cons, ih, name_add]

theorem OpenElement.attributes_foldl_add (children : List Child) (e : OpenElement) :
    (children.foldl add e).attributes = e.attributes := by
  induction children generalizing e with
  | nil => rfl
  | cons child rest ih => rw [List.foldl_cons, ih, attributes_add]

/-- An element that was opened and has got all its children. -/
theorem OpenElement.node_foldl_add (name : String) (attributes : Attributes) (span : Span)
    (children : List Child) : (children.foldl add ⟨name, attributes, [], span⟩).node =
      ⟨name, attributes, Child.joinTexts children⟩ := by
  rw [node, name_foldl_add, attributes_foldl_add, (foldl_add children _).2 rfl]
  rfl

namespace Construction

variable {voids : VoidTags} {roots : List (Node × Span)} {problems : List Problem}

/-- **Content goes into the innermost open element**, and only repeated attributes are reported. -/
theorem foldl_process_content {tokens : List Token} {children : List Child}
    (h : Content voids tokens children) (placed : List PlacedToken)
    (hp : placed.map PlacedToken.token = tokens) (e : OpenElement) (outer : List OpenElement)
    (problems : List Problem) :
    placed.foldl (process voids) ⟨e :: outer, roots, problems⟩ =
      ⟨children.foldl OpenElement.add e :: outer, roots,
        problems ++ placed.flatMap (·.token.repeats)⟩ := by
  induction h generalizing placed e outer problems with
  | nil => rw [List.map_eq_nil_iff.1 hp]; simp
  | text ht _ ih =>
    obtain ⟨⟨token, span⟩, rest, rfl, rfl, hr⟩ := List.map_eq_cons_iff.1 hp
    rw [List.foldl_cons, process_text _ ht, add, ih rest hr]
    simp [Token.repeats_of_text ht]
  | leaf hl _ ih =>
    obtain ⟨⟨token, span⟩, rest, rfl, rfl, hr⟩ := List.map_eq_cons_iff.1 hp
    rw [List.foldl_cons, process_leaf _ hl, add, ih rest hr]
    simp
  | @element name attributes body inner tag tokens children hv hn _ _ ihb ih =>
    obtain ⟨⟨token, span⟩, rest, rfl, rfl, hr⟩ := List.map_eq_cons_iff.1 hp
    obtain ⟨within, after, rfl, hw, ha⟩ := List.map_eq_append_iff.1 hr
    obtain ⟨⟨token, stop⟩, rest, rfl, rfl, hrest⟩ := List.map_eq_cons_iff.1 ha
    have hv' : voids.has tag = false := by
      rw [← hv, VoidTags.has, VoidTags.has, Text.sameName_iff.1 hn]
    rw [List.foldl_cons, process_open _ hv, List.foldl_append, ihb within hw, List.foldl_cons,
      process_close hv', OpenElement.node_foldl_add, add, ih rest hrest]
    · simp [Token.repeats]
    · rw [OpenElement.name_foldl_add]; exact hn

/-- Where no element is open, an element becomes a top-level one. -/
theorem foldl_process_root {root : Node} {placed : List PlacedToken}
    (h : Content voids (placed.map PlacedToken.token) [.element root]) :
    ∃ span, ∀ roots problems, placed.foldl (process voids) ⟨[], roots, problems⟩ =
      ⟨[], roots ++ [(root, span)], problems ++ placed.flatMap (·.token.repeats)⟩ := by
  generalize hp : placed.map PlacedToken.token = tokens at h
  cases h with
  | leaf hl hc =>
    cases hc
    obtain ⟨⟨token, span⟩, rest, rfl, rfl, hr⟩ := List.map_eq_cons_iff.1 hp
    rw [List.map_eq_nil_iff.1 hr]
    exact ⟨span, fun roots problems => by rw [List.foldl_cons, process_leaf _ hl]; simp [add]⟩
  | @element name attributes body inner tag _ _ hv hn hb hc =>
    cases hc
    obtain ⟨⟨token, span⟩, rest, rfl, rfl, hr⟩ := List.map_eq_cons_iff.1 hp
    obtain ⟨within, after, rfl, hw, ha⟩ := List.map_eq_append_iff.1 hr
    obtain ⟨⟨token, stop⟩, rest, rfl, rfl, hrest⟩ := List.map_eq_cons_iff.1 ha
    have hv' : voids.has tag = false := by
      rw [← hv, VoidTags.has, VoidTags.has, Text.sameName_iff.1 hn]
    refine ⟨(inner.foldl OpenElement.add ⟨name, firstAttributes attributes, [], span⟩).span,
      fun roots problems => ?_⟩
    rw [List.map_eq_nil_iff.1 hrest, List.foldl_cons, process_open _ hv, List.foldl_append,
      foldl_process_content hb within hw, List.foldl_cons, process_close hv',
      OpenElement.node_foldl_add]
    · simp [add, Token.repeats]
    · rw [OpenElement.name_foldl_add]; exact hn

theorem foldl_process_blank {placed : List PlacedToken}
    (h : ∀ token ∈ placed.map PlacedToken.token, token.IsBlank) :
    placed.foldl (process voids) ⟨[], roots, problems⟩ = ⟨[], roots, problems⟩ := by
  induction placed with
  | nil => rfl
  | cons p rest ih =>
    rw [List.map_cons, List.forall_mem_cons] at h
    rw [List.foldl_cons, process_blank h.1, ih h.2]

end Construction

open Construction in
/-- **Well-nested tokens give their tree**, with a report on every repeated attribute. -/
theorem buildTree_of_isDocument {voids : VoidTags} {tokens : List PlacedToken} {root : Node}
    (h : IsDocument voids (structuralTokens voids tokens) root) : buildTree voids tokens =
      .ok (root, (tokens.flatMap (·.token.repeats)).map Problem.diagnostic) := by
  obtain ⟨before, element, after, hs, hb, he, ha⟩ := h
  rw [structuralTokens, List.filter_map] at hs
  obtain ⟨front, last, hfl, hf, rfl⟩ := List.map_eq_append_iff.1 hs
  obtain ⟨first, middle, rfl, rfl, rfl⟩ := List.map_eq_append_iff.1 hf
  obtain ⟨span, hm⟩ := foldl_process_root he
  have hrun : tokens.foldl (process voids) .start =
      ⟨[], [(root, span)], tokens.flatMap (·.token.repeats)⟩ := by
    rw [foldl_process_filter, ← Token.flatMap_repeats_filter voids]
    rw [Function.comp_def] at hfl
    rw [hfl]
    simp only [List.foldl_append, List.flatMap_append]
    rw [start, foldl_process_blank hb, hm, foldl_process_blank ha,
      Token.flatMap_repeats_of_blank hb, Token.flatMap_repeats_of_blank ha]
    simp
  have herr : ((tokens.flatMap (·.token.repeats)).map Problem.diagnostic).any Diagnostic.isError =
      false := by
    simp only [List.any_map, List.any_eq_false, List.mem_flatMap]
    rintro problem ⟨p, -, hp⟩
    obtain ⟨key, place, rfl⟩ := Token.mem_repeats hp
    exact Bool.false_ne_true
  rw [buildTree, hrun]
  simp [finish, close, allProblems, herr]

/-! ## Accepting nothing else -/

/-- What the tokens so far say: which elements are open, with the children that they have got, and
which top-level elements are complete. -/
inductive Outline (voids : VoidTags) : List Token → List OpenElement → List Node → Prop
  | start : Outline voids [] [] []
  | blank {tokens roots token} : Outline voids tokens [] roots → token.IsBlank →
      Outline voids (tokens ++ [token]) [] roots
  | root {tokens roots element node} : Outline voids tokens [] roots →
      Content voids element [.element node] → Outline voids (tokens ++ element) [] (roots ++ [node])
  | opened {tokens outer roots name attributes span body inner} :
      Outline voids tokens outer roots → voids.has name = false → Content voids body inner →
      Outline voids (tokens ++ .startTag name attributes false :: body)
        (inner.foldl .add ⟨name, firstAttributes attributes, [], span⟩ :: outer) roots

/-- Content after the tokens goes into the innermost open element. -/
theorem Outline.append {voids : VoidTags} {tokens content : List Token} {e : OpenElement}
    {outer : List OpenElement} {roots : List Node} {children : List Child}
    (h : Outline voids tokens (e :: outer) roots) (hc : Content voids content children) :
    Outline voids (tokens ++ content) (children.foldl .add e :: outer) roots := by
  cases h with
  | opened h hv hb =>
    rw [← List.foldl_append, List.append_assoc, List.cons_append]
    exact .opened h hv (hb.append hc)

namespace Construction

variable {voids : VoidTags} {tokens element : List Token} {outer : List OpenElement}
  {roots : List (Node × Span)} {problems : List Problem} {node : Node} {span : Span}

/-- Nothing but warnings so far. -/
def IsClean (c : Construction) : Prop := ∀ problem ∈ c.problems, problem.diagnostic.isError = false

theorem problems_close (n : Nat) (c : Construction) : (close n c).problems = c.problems := by
  induction n generalizing c with
  | zero => rfl
  | succ n ih =>
    rw [close, ih, closeInnermost]
    split
    · rfl
    · rw [add]; split <;> rfl

theorem problems_subset_add (c : Construction) (child : Child) (span : Span) :
    c.problems ⊆ (c.add child span).problems := by
  unfold add
  split
  · exact List.Subset.refl _
  · split
    · exact List.Subset.refl _
    · split
      · exact List.subset_append_left _ _
      · exact List.Subset.refl _

theorem problems_subset_process (c : Construction) (placed : PlacedToken) :
    c.problems ⊆ (c.process voids placed).problems := by
  obtain ⟨token, span⟩ := placed
  cases token with
  | startTag name attributes selfClosing =>
    by_cases hl : (selfClosing || voids.has name) = true
    · rw [process_leaf c hl]
      exact List.Subset.trans (List.subset_append_left _ _)
        (problems_subset_add ⟨c.opened, c.roots, _⟩ _ _)
    · simp only [Bool.not_eq_true, Bool.or_eq_false_iff] at hl
      rw [hl.1, process_open c hl.2]
      exact List.subset_append_left _ _
  | endTag tag =>
    simp only [process, endTag]
    split
    · exact List.Subset.refl _
    · split
      · rw [problems_close]
        exact List.subset_append_left _ _
      · split <;> exact List.subset_append_left _ _
  | text | rawText | cdata => exact problems_subset_add _ _ _
  | comment | declaration | «instruction» => exact List.Subset.refl _

theorem problems_subset_foldl (placed : List PlacedToken) (c : Construction) :
    c.problems ⊆ (placed.foldl (process voids) c).problems := by
  induction placed generalizing c with
  | nil => exact List.Subset.refl _
  | cons p rest ih => exact List.Subset.trans (problems_subset_process c p) (ih _)

/-- An end tag that does not belong to the innermost open element is an error. -/
theorem not_isClean_endTag {e : OpenElement} {tag : String} (hv : voids.has tag = false)
    (hn : Text.sameName e.name tag = false) :
    ¬ (process voids ⟨e :: outer, roots, problems⟩ ⟨.endTag tag, span⟩).IsClean := by
  intro h
  simp only [process, endTag, hv, Bool.false_eq_true, if_false] at h
  split at h
  · have := h (.closedAround tag e.name span e.span) (by rw [problems_close]; simp [hn])
    cases this
  · have := h (.unmatched tag e.name span e.span) (by simp [report])
    cases this

theorem outline_add_element (h : Outline voids tokens outer (roots.map Prod.fst))
    (hc : Content voids element [.element node]) :
    Outline voids (tokens ++ element) (add ⟨outer, roots, problems⟩ (.element node) span).opened
      ((add ⟨outer, roots, problems⟩ (.element node) span).roots.map Prod.fst) := by
  cases outer with
  | nil => simpa [add] using .root h hc
  | cons e outer => exact h.append hc

/-- **One token keeps the outline**, unless it is an error. -/
theorem outline_process {c : Construction} {placed : PlacedToken}
    (h : Outline voids tokens c.opened (c.roots.map Prod.fst))
    (hs : placed.token.isStructural voids = true) (hclean : (c.process voids placed).IsClean) :
    Outline voids (tokens ++ [placed.token]) (c.process voids placed).opened
      ((c.process voids placed).roots.map Prod.fst) := by
  obtain ⟨opened, roots, problems⟩ := c
  cases ht : placed.token.text? with
  | some s =>
    rw [process_text _ ht] at hclean ⊢
    cases opened with
    | nil =>
      cases hb : Text.isVisible s with
      | true =>
        have := hclean (.textOutside placed.span) (by simp [add, hb, report])
        cases this
      | false =>
        have : Text.trim s = "" := by
          rw [← Decidable.not_not (p := Text.trim s = ""), ← Ne, ← Text.isVisible_iff_trim, hb]
          exact Bool.false_ne_true
        simpa [add, hb] using .blank h ⟨s, ht, this⟩
    | cons e outer => exact h.append (.single ht)
  | none =>
    obtain ⟨token, span⟩ := placed
    cases token with
    | startTag name attributes selfClosing =>
      by_cases hl : (selfClosing || voids.has name) = true
      · rw [process_leaf _ hl]
        exact outline_add_element h (.leaf hl .nil)
      · simp only [Bool.not_eq_true, Bool.or_eq_false_iff] at hl
        rw [hl.1, process_open _ hl.2]
        exact .opened h hl.2 .nil
    | endTag tag =>
      have hv : voids.has tag = false := by simpa [Token.isStructural] using hs
      cases opened with
      | nil =>
        have := hclean (.stray tag span) (by simp [process, endTag, hv, report])
        cases this
      | cons e outer =>
        cases hn : Text.sameName e.name tag with
        | false => exact absurd hclean (not_isClean_endTag hv hn)
        | true =>
          rw [process_close hv hn]
          cases h with
          | opened h hv hb =>
            rw [OpenElement.name_foldl_add] at hn
            rw [OpenElement.node_foldl_add]
            simpa using outline_add_element h (.element hv hn hb .nil)
    | text | rawText | cdata => cases ht
    | comment | declaration | «instruction» => cases hs

/-- **A run without errors has an outline.** -/
theorem outline_foldl {c : Construction} {placed : List PlacedToken}
    (h : Outline voids tokens c.opened (c.roots.map Prod.fst))
    (hs : ∀ p ∈ placed, p.token.isStructural voids = true)
    (hclean : (placed.foldl (process voids) c).IsClean) :
    Outline voids (tokens ++ placed.map PlacedToken.token) (placed.foldl (process voids) c).opened
      ((placed.foldl (process voids) c).roots.map Prod.fst) := by
  induction placed generalizing c tokens with
  | nil => simpa using h
  | cons p rest ih =>
    rw [List.forall_mem_cons] at hs
    have hfirst : (c.process voids p).IsClean := fun problem hp =>
      hclean problem (problems_subset_foldl rest _ hp)
    have := ih (outline_process h hs.1 hfirst) hs.2 hclean
    simpa using this

end Construction

theorem Outline.isDocument {voids : VoidTags} {tokens : List Token} {opened : List OpenElement}
    {roots : List Node} (h : Outline voids tokens opened roots) (ho : opened = []) :
    (roots = [] → ∀ token ∈ tokens, token.IsBlank) ∧
      ∀ root, roots = [root] → IsDocument voids tokens root := by
  induction h with
  | start => exact ⟨by simp, by simp⟩
  | @blank tokens roots token _ hb ih =>
    have hb' : ∀ t ∈ [token], t.IsBlank := by simpa using hb
    refine ⟨fun hr => List.forall_mem_append.2 ⟨(ih rfl).1 hr, hb'⟩, fun root hr => ?_⟩
    obtain ⟨before, element, after, rfl, h₁, h₂, h₃⟩ := (ih rfl).2 root hr
    exact ⟨before, element, after ++ [token], by simp, h₁, h₂, List.forall_mem_append.2 ⟨h₃, hb'⟩⟩
  | @root tokens roots element node _ hc ih =>
    refine ⟨fun hr => by simp at hr, fun root hr => ?_⟩
    obtain ⟨rfl, rfl⟩ : roots = [] ∧ node = root := by
      rw [List.append_eq_singleton_iff] at hr
      simpa using hr
    exact ⟨tokens, element, [], by simp, (ih rfl).1 rfl, hc, by simp⟩
  | opened => cases ho

open Construction in
theorem isDocument_of_buildTree {voids : VoidTags} {tokens : List PlacedToken} {root : Node}
    {warnings : List Diagnostic} (h : buildTree voids tokens = .ok (root, warnings)) :
    IsDocument voids (structuralTokens voids tokens) root := by
  rw [buildTree, foldl_process_filter] at h
  generalize hc : (tokens.filter fun placed => placed.token.isStructural voids).foldl
    (process voids) .start = c at h
  split at h
  next root' span further hroots =>
    split at h
    · cases h
    next herr =>
      cases h
      have hall : ∀ problem ∈ c.finish.allProblems, problem.diagnostic.isError = false := by
        simpa using herr
      rw [allProblems, hroots, finish, problems_close] at hall
      have hopen : c.opened = [] := by
        cases ho : c.opened with
        | nil => rfl
        | cons e outer =>
          have := hall (.unclosed e.name e.span) (by simp [ho])
          cases this
      have hfurther : further = [] := by
        cases further with
        | nil => rfl
        | cons other further =>
          have := hall (.furtherRoot other.2) (by simp)
          cases this
      have hclean : c.IsClean := fun problem hp => hall problem (by simp [hp])
      have hr : c.roots = [(root, span)] := by
        rw [finish, hopen, hfurther] at hroots
        exact hroots
      have := outline_foldl (c := .start) .start (by simp) (hc ▸ hclean)
      rw [hc, hopen, hr, List.nil_append] at this
      rw [structuralTokens, List.filter_map]
      exact (this.isDocument rfl).2 root rfl
  · cases h

/-- **Building a tree accepts exactly the well-nested token lists and gives the tree of the
grammar**, with a warning for every repeated attribute. Without any attributes the same token lists
are accepted. -/
theorem buildTree_eq_ok_iff_isDocument (voids : VoidTags) (tokens : List PlacedToken) :
    (∀ root warnings, buildTree voids tokens = .ok (root, warnings) ↔
      IsDocument voids (structuralTokens voids tokens) root ∧
        warnings = (tokens.flatMap (·.token.repeats)).map Problem.diagnostic) ∧
    ((∃ result, buildTree voids tokens = .ok result) ↔
      ∃ result, buildTree voids (tokens.map PlacedToken.bare) = .ok result) := by
  have bare := bare_structuralTokens voids tokens
  refine ⟨fun root warnings => ⟨fun h => ?_, fun ⟨h, hw⟩ => ?_⟩, ?_, ?_⟩
  · have hd := isDocument_of_buildTree h
    rw [buildTree_of_isDocument hd] at h
    cases h
    exact ⟨hd, rfl⟩
  · rw [hw]
    exact buildTree_of_isDocument h
  · rintro ⟨⟨root, warnings⟩, h⟩
    obtain ⟨root', h'⟩ := (isDocument_of_buildTree h).of_sameTags bare
    exact ⟨_, buildTree_of_isDocument h'⟩
  · rintro ⟨⟨root, warnings⟩, h⟩
    obtain ⟨root', h'⟩ := (isDocument_of_buildTree h).of_sameTags bare.symm
    exact ⟨_, buildTree_of_isDocument h'⟩

end ComponentMarkup.Markup
