/-
  What each token does to a construction.

  * `OpenElement.tag`: the tag that opened an element. The tags are all of the open elements that
    structural problems depend on.
  * `closed?`: the element that an end tag closes; `found`: the problems that a token adds.
  * `Acts`: a token opens an element, closes one with all inside it, or leaves the tags as they are.
    `acts` says that every token does one of them.
  * `tops`: the places of the top-level elements, the open one included.
  * `steps`: the tokens of a run, each with the construction that it comes to. `problems_foldl`,
    `tops_foldl`: what they add up to.
-/
import Mathlib.Data.List.TakeWhile
import ComponentMarkup.Proofs.ReportedPlaces

namespace ComponentMarkup.Markup

/-- The name and the place of the tag that opened an element. -/
def OpenElement.tag (e : OpenElement) : String × Span := (e.name, e.span)

theorem OpenElement.tag_add (e : OpenElement) (child : Child) : (e.add child).tag = e.tag :=
  Prod.ext (name_add e child) (Construction.span_add e child)

namespace Token

/-- A start tag. -/
def isStartTag : Token → Bool
  | .startTag .. => true
  | _ => false

/-- A start tag whose element is open after it. -/
def opens (voids : VoidTags) : Token → Bool
  | .startTag name _ selfClosing => !(selfClosing || voids.has name)
  | _ => false

/-- A text that is visible. -/
def isVisible (token : Token) : Bool := token.text?.any Text.isVisible

end Token

namespace Construction

variable {voids : VoidTags} {c : Construction} {placed : PlacedToken} {tag : String}
  {inside outer : List OpenElement} {e : OpenElement}

/-- The tags of the open elements, innermost first. -/
def tags (c : Construction) : List (String × Span) := c.opened.map OpenElement.tag

/-- The places of the top-level elements, the last of which may be open. -/
def tops (c : Construction) : List Span :=
  c.roots.map Prod.snd ++ (c.opened.getLast?.map (·.span)).toList

/-! ## Adding and closing -/

theorem tags_add (c : Construction) (child : Child) (span : Span) :
    (c.add child span).tags = c.tags := by
  unfold add tags
  split
  next e outer ho => rw [ho, List.map_cons, List.map_cons, OpenElement.tag_add]
  next ho =>
    split
    · rfl
    · split <;> rfl

theorem tops_add_text (c : Construction) (s : String) (span : Span) :
    (c.add (.text s) span).tops = c.tops := by
  unfold add tops
  split
  next e outer ho => cases outer <;> simp [ho, span_add]
  next => dsimp only; split <;> rfl

theorem tops_add_element (c : Construction) (node : Node) (span : Span) :
    (c.add (.element node) span).tops = c.tops ++ if c.opened.isEmpty then [span] else [] := by
  unfold add tops
  split
  next e outer ho => cases outer <;> simp [ho, span_add]
  next ho => simp [ho]

theorem problems_add_element (c : Construction) (node : Node) (span : Span) :
    (c.add (.element node) span).problems = c.problems := by
  unfold add
  split <;> rfl

theorem problems_add_text (c : Construction) (s : String) (span : Span) :
    (c.add (.text s) span).problems = c.problems ++
      if c.opened.isEmpty && Text.isVisible s then [.textOutside span] else [] := by
  unfold add
  split
  next ho => simp [ho]
  next ho =>
    dsimp only
    split <;> simp_all [report]

theorem tags_closeInnermost (c : Construction) : c.closeInnermost.tags = c.tags.drop 1 := by
  unfold closeInnermost
  split
  next ho => simp [tags, ho]
  next e outer ho =>
    rw [tags_add]
    simp [tags, ho]

theorem tops_closeInnermost (c : Construction) : c.closeInnermost.tops = c.tops := by
  unfold closeInnermost
  split
  next => rfl
  next e outer ho =>
    rw [tops_add_element]
    cases outer <;> simp [tops, ho]

theorem tags_close (n : Nat) (c : Construction) : (close n c).tags = c.tags.drop n := by
  induction n generalizing c with
  | zero => rfl
  | succ n ih => rw [close, ih, tags_closeInnermost, List.drop_drop, Nat.add_comm]

theorem tops_close (n : Nat) (c : Construction) : (close n c).tops = c.tops := by
  induction n generalizing c with
  | zero => rfl
  | succ n ih => rw [close, ih, tops_closeInnermost]

/-! ## End tags -/

/-- The element that a token closes: the innermost open one that has the name of an end tag. -/
def closed? (voids : VoidTags) (c : Construction) (placed : PlacedToken) : Option OpenElement :=
  match placed.token with
  | .endTag tag =>
    if voids.has tag then none else c.opened.find? fun e => Text.sameName e.name tag
  | _ => none

/-- The problems with an end tag. -/
def endTagProblems (opened : List OpenElement) (tag : String) (span : Span) : List Problem :=
  if opened.any fun e => Text.sameName e.name tag then
    (opened.takeWhile fun e => !Text.sameName e.name tag).map fun e =>
      .closedAround tag e.name span e.span
  else
    match opened with
    | [] => [.stray tag span]
    | e :: _ => [.unmatched tag e.name span e.span]

/-- The problems that a token adds. -/
def found (voids : VoidTags) (c : Construction) (placed : PlacedToken) : List Problem :=
  match placed.token with
  | .startTag .. => placed.token.repeats
  | .endTag tag => if voids.has tag then [] else endTagProblems c.opened tag placed.span
  | .text s | .rawText s | .cdata s =>
    if c.opened.isEmpty && Text.isVisible s then [.textOutside placed.span] else []
  | .comment _ | .declaration _ | .instruction _ => []

theorem exists_split_of_closed? (h : c.closed? voids placed = some e) :
    ∃ tag inside outer, placed.token = .endTag tag ∧ voids.has tag = false ∧
      c.opened = inside ++ e :: outer ∧ (∀ o ∈ inside, Text.sameName o.name tag = false) ∧
      Text.sameName e.name tag = true := by
  unfold closed? at h
  split at h
  next tag htoken =>
    split at h
    next => cases h
    next hv =>
      obtain ⟨hname, inside, outer, ho, hinside⟩ := List.find?_eq_some_iff_append.1 h
      exact ⟨tag, inside, outer, htoken, Bool.not_eq_true _ ▸ hv, ho,
        fun o hmem => by simpa using hinside o hmem, hname⟩
  next => cases h

theorem closed?_of_ne_endTag (h : ∀ tag, placed.token ≠ .endTag tag) :
    c.closed? voids placed = none := by
  unfold closed?
  split
  next tag htoken => exact absurd htoken (h tag)
  next => rfl

/-- The innermost open element with a name splits the open elements. -/
theorem takeWhile_dropWhile_of_split (ho : c.opened = inside ++ e :: outer)
    (hinside : ∀ o ∈ inside, Text.sameName o.name tag = false)
    (hname : Text.sameName e.name tag = true) :
    (c.opened.takeWhile fun e => !Text.sameName e.name tag) = inside ∧
      (c.opened.dropWhile fun e => !Text.sameName e.name tag) = e :: outer := by
  have hpass : ∀ o ∈ inside, (!Text.sameName o.name tag) = true := fun o hmem => by
    rw [hinside o hmem, Bool.not_false]
  rw [ho, List.takeWhile_append_of_pos hpass, List.dropWhile_append_of_pos hpass]
  simp [hname]

section
variable (htoken : placed.token = .endTag tag) (hv : voids.has tag = false)
include htoken hv

theorem closed?_endTag :
    c.closed? voids placed = c.opened.find? fun e => Text.sameName e.name tag := by
  simp [closed?, htoken, hv]

theorem unmatched_of_closed? (h : c.closed? voids placed = none) :
    ∀ o ∈ c.opened, Text.sameName o.name tag = false := by
  rw [closed?_endTag htoken hv, List.find?_eq_none] at h
  exact fun o hmem => Bool.not_eq_true _ ▸ h o hmem

section
variable (ho : c.opened = inside ++ e :: outer)
  (hinside : ∀ o ∈ inside, Text.sameName o.name tag = false)
  (hname : Text.sameName e.name tag = true)
include ho hinside hname

theorem found_of_split : c.found voids placed =
    inside.map fun o => .closedAround tag o.name placed.span o.span := by
  have hany : (c.opened.any fun e => Text.sameName e.name tag) = true :=
    List.any_eq_true.2 ⟨e, by simp [ho], hname⟩
  have hwhile := (takeWhile_dropWhile_of_split ho hinside hname).1
  simp [found, htoken, hv, endTagProblems, hany, hwhile]

/-- An end tag closes the element that it names, after those inside it. -/
theorem process_of_split : c.process voids placed =
    close (inside.length + 1) { c with problems := c.problems ++ c.found voids placed } := by
  obtain ⟨hwhile, hdrop⟩ := takeWhile_dropWhile_of_split ho hinside hname
  rw [found_of_split htoken hv ho hinside hname]
  simp [process, htoken, endTag, hv, hwhile, hdrop]

end

section
variable (hnone : ∀ o ∈ c.opened, Text.sameName o.name tag = false)
include hnone

theorem found_of_unmatched : c.found voids placed =
    match c.opened with
    | [] => [.stray tag placed.span]
    | e :: _ => [.unmatched tag e.name placed.span e.span] := by
  have hany : (c.opened.any fun e => Text.sameName e.name tag) = false :=
    List.any_eq_false.2 fun o hmem => by simp [hnone o hmem]
  simp only [found, htoken, hv, endTagProblems, hany, Bool.false_eq_true, if_false]

/-- Where no open element has the name, the end tag is a problem and nothing else. -/
theorem process_of_unmatched :
    c.process voids placed = { c with problems := c.problems ++ c.found voids placed } := by
  have hdrop : (c.opened.dropWhile fun e => !Text.sameName e.name tag) = [] :=
    List.dropWhile_eq_nil_iff.2 fun o hmem => by simp [hnone o hmem]
  rw [found_of_unmatched htoken hv hnone]
  simp only [process, htoken, endTag, hv, hdrop, Bool.false_eq_true, if_false]
  obtain ⟨opened, roots, problems⟩ := c
  cases opened <;> rfl

end

end

theorem process_void (htoken : placed.token = .endTag tag) (hv : voids.has tag = true) :
    c.process voids placed = c := by
  simp [process, htoken, endTag, hv]

theorem found_void (htoken : placed.token = .endTag tag) (hv : voids.has tag = true) :
    c.found voids placed = [] := by
  simp [found, htoken, hv]

/-! ## One token -/

theorem found_of_text {s : String} (h : placed.token.text? = some s) : c.found voids placed =
    if c.opened.isEmpty && Text.isVisible s then [.textOutside placed.span] else [] := by
  obtain ⟨token, span⟩ := placed
  cases token <;> cases h <;> rfl

/-- The problems that a token adds are about it, or about its attributes. -/
theorem forms_of_mem_found {problem : Problem} (h : problem ∈ c.found voids placed) :
    (∃ key span, problem = .repeatedAttribute key span) ∨
      (∃ tag name opened, problem = .closedAround tag name placed.span opened) ∨
      (∃ tag name opened, problem = .unmatched tag name placed.span opened) ∨
      (∃ tag, problem = .stray tag placed.span) ∨
      problem = .textOutside placed.span ∧ placed.token.isVisible = true := by
  obtain ⟨token, span⟩ := placed
  cases token with
  | startTag name attributes selfClosing =>
    have h : problem ∈ Token.repeats (.startTag name attributes selfClosing) := h
    exact .inl (Token.mem_repeats h)
  | endTag tag =>
    cases hv : voids.has tag with
    | true =>
      rw [found_void rfl hv] at h
      cases h
    | false =>
      cases hclosed : c.closed? voids ⟨.endTag tag, span⟩ with
      | some e =>
        obtain ⟨_, _, _, htoken, hv, ho, hinside, hname⟩ := exists_split_of_closed? hclosed
        rw [found_of_split htoken hv ho hinside hname] at h
        obtain ⟨o, -, rfl⟩ := List.mem_map.1 h
        exact .inr (.inl ⟨_, _, _, rfl⟩)
      | none =>
        rw [found_of_unmatched rfl hv (unmatched_of_closed? rfl hv hclosed)] at h
        split at h
        · exact .inr (.inr (.inr (.inl ⟨tag, List.mem_singleton.1 h⟩)))
        · exact .inr (.inr (.inl ⟨_, _, _, List.mem_singleton.1 h⟩))
  | text s | rawText s | cdata s =>
    dsimp only [found] at h
    split at h
    next hvisible =>
      exact .inr (.inr (.inr (.inr ⟨List.mem_singleton.1 h, (Bool.and_eq_true_iff.1 hvisible).2⟩)))
    next => cases h
  | comment | declaration | «instruction» => cases h

/-- **What a token adds to the problems**, whatever they were. -/
theorem problems_process (c : Construction) (placed : PlacedToken) :
    (c.process voids placed).problems = c.problems ++ c.found voids placed := by
  obtain ⟨token, span⟩ := placed
  cases token with
  | startTag name attributes selfClosing =>
    by_cases hl : (selfClosing || voids.has name) = true
    · rw [process_leaf c hl, problems_add_element]
      rfl
    · simp only [Bool.not_eq_true, Bool.or_eq_false_iff] at hl
      rw [hl.1, process_open c hl.2]
      rfl
  | endTag tag =>
    cases hv : voids.has tag with
    | true => rw [process_void rfl hv, found_void rfl hv, List.append_nil]
    | false =>
      cases hclosed : c.closed? voids ⟨.endTag tag, span⟩ with
      | some e =>
        obtain ⟨_, _, _, htoken, hv, ho, hinside, hname⟩ := exists_split_of_closed? hclosed
        rw [process_of_split htoken hv ho hinside hname, problems_close]
      | none => rw [process_of_unmatched rfl hv (unmatched_of_closed? rfl hv hclosed)]
  | text s | rawText s | cdata s => exact problems_add_text c s span
  | comment | declaration | «instruction» => exact (List.append_nil _).symm

/-- **A start tag where no element is open begins a top-level element.** -/
theorem tops_process (c : Construction) (placed : PlacedToken) :
    (c.process voids placed).tops = c.tops ++
      if c.opened.isEmpty && placed.token.isStartTag then [placed.span] else [] := by
  obtain ⟨token, span⟩ := placed
  cases token with
  | startTag name attributes selfClosing =>
    by_cases hl : (selfClosing || voids.has name) = true
    · rw [process_leaf c hl, tops_add_element]
      simp [Token.isStartTag, tops]
    · simp only [Bool.not_eq_true, Bool.or_eq_false_iff] at hl
      rw [hl.1, process_open c hl.2]
      obtain ⟨opened, roots, problems⟩ := c
      cases opened <;> simp [Token.isStartTag, tops]
  | endTag tag =>
    simp only [Token.isStartTag, Bool.and_false, Bool.false_eq_true, if_false, List.append_nil]
    cases hv : voids.has tag with
    | true => rw [process_void rfl hv]
    | false =>
      cases hclosed : c.closed? voids ⟨.endTag tag, span⟩ with
      | some e =>
        obtain ⟨_, _, _, htoken, hv, ho, hinside, hname⟩ := exists_split_of_closed? hclosed
        rw [process_of_split htoken hv ho hinside hname, tops_close]
        rfl
      | none =>
        rw [process_of_unmatched rfl hv (unmatched_of_closed? rfl hv hclosed)]
        rfl
  | text s | rawText s | cdata s =>
    simp only [Token.isStartTag, Bool.and_false, Bool.false_eq_true, if_false, List.append_nil]
    exact tops_add_text c s span
  | comment | declaration | «instruction» =>
    simp only [Token.isStartTag, Bool.and_false, Bool.false_eq_true, if_false, List.append_nil]
    rfl

/-- What a token does to the open elements. -/
inductive Acts (voids : VoidTags) (c : Construction) (placed : PlacedToken) : Prop
  | opens {name : String} {attributes : List TagAttribute}
      (htoken : placed.token = .startTag name attributes false)
      (hopens : placed.token.opens voids = true)
      (htags : (c.process voids placed).tags = (name, placed.span) :: c.tags)
      (hfound : c.found voids placed = placed.token.repeats)
  | closes {tag : String} {inside outer : List OpenElement} {e : OpenElement}
      (htoken : placed.token = .endTag tag) (hname : Text.sameName e.name tag = true)
      (hclosed : c.closed? voids placed = some e) (ho : c.opened = inside ++ e :: outer)
      (htags : (c.process voids placed).tags = outer.map OpenElement.tag)
      (hfound : c.found voids placed =
        inside.map fun o => .closedAround tag o.name placed.span o.span)
  | stays (hopens : placed.token.opens voids = false) (hclosed : c.closed? voids placed = none)
      (htags : (c.process voids placed).tags = c.tags)
      (hfound : ∀ tag name span opened, .closedAround tag name span opened ∉ c.found voids placed)

/-- **A token opens an element, closes one with all inside it, or leaves the tags as they are.** -/
theorem acts (voids : VoidTags) (c : Construction) (placed : PlacedToken) :
    c.Acts voids placed := by
  obtain ⟨token, span⟩ := placed
  cases token with
  | startTag name attributes selfClosing =>
    by_cases hl : (selfClosing || voids.has name) = true
    · refine .stays ?_ (closed?_of_ne_endTag (by simp)) ?_ fun tag other stop opened hp => ?_
      · simp [Token.opens, hl]
      · rw [process_leaf c hl, tags_add]
        rfl
      · have hp : _ ∈ Token.repeats (.startTag name attributes selfClosing) := hp
        obtain ⟨_, _, h⟩ := Token.mem_repeats hp
        cases h
    · simp only [Bool.not_eq_true, Bool.or_eq_false_iff] at hl
      obtain ⟨rfl, hv⟩ := hl
      refine .opens rfl (by simp [Token.opens, hv]) ?_ rfl
      rw [process_open c hv]
      rfl
  | endTag tag =>
    cases hclosed : c.closed? voids ⟨.endTag tag, span⟩ with
    | some e =>
      obtain ⟨_, inside, outer, htoken, hv, ho, hinside, hname⟩ := exists_split_of_closed? hclosed
      refine .closes htoken hname hclosed ho ?_ (found_of_split htoken hv ho hinside hname)
      have hsplit : c.tags = (inside ++ [e]).map OpenElement.tag ++ outer.map OpenElement.tag := by
        rw [tags, ho, ← List.map_append, List.append_assoc, List.singleton_append]
      rw [process_of_split htoken hv ho hinside hname, tags_close]
      exact hsplit ▸ List.drop_left' (by simp)
    | none =>
      cases hv : voids.has tag with
      | true =>
        refine .stays rfl hclosed (by rw [process_void rfl hv]) fun _ _ _ _ hp => ?_
        rw [found_void rfl hv] at hp
        cases hp
      | false =>
        have hnone := unmatched_of_closed? rfl hv hclosed
        refine .stays rfl hclosed (by rw [process_of_unmatched rfl hv hnone]; rfl)
          fun _ _ _ _ hp => ?_
        rw [found_of_unmatched rfl hv hnone] at hp
        split at hp <;> simp at hp
  | text s | rawText s | cdata s =>
    refine .stays rfl (closed?_of_ne_endTag (by simp)) (tags_add c (.text s) span)
      fun _ _ _ _ hp => ?_
    dsimp only [found] at hp
    split at hp <;> simp at hp
  | comment | declaration | «instruction» =>
    exact .stays rfl (closed?_of_ne_endTag (by simp)) rfl (by simp [found])

/-! ## A run -/

/-- The tokens of a run, each with the construction that it comes to. -/
def steps (voids : VoidTags) : Construction → List PlacedToken → List (Construction × PlacedToken)
  | _, [] => []
  | c, placed :: rest => (c, placed) :: steps voids (c.process voids placed) rest

variable {tokens : List PlacedToken}

theorem map_snd_steps (voids : VoidTags) (c : Construction) (tokens : List PlacedToken) :
    (steps voids c tokens).map Prod.snd = tokens := by
  induction tokens generalizing c with
  | nil => rfl
  | cons placed rest ih => rw [steps, List.map_cons, ih]

theorem mem_steps_iff {before : Construction} : (before, placed) ∈ steps voids c tokens ↔
    ∃ front rest, tokens = front ++ placed :: rest ∧
      front.foldl (process voids) c = before := by
  induction tokens generalizing c with
  | nil => simp [steps]
  | cons first tokens ih =>
    rw [steps, List.mem_cons, ih]
    constructor
    · rintro (h | ⟨front, rest, rfl, rfl⟩)
      · cases h
        exact ⟨[], tokens, rfl, rfl⟩
      · exact ⟨first :: front, rest, rfl, rfl⟩
    · rintro ⟨_ | ⟨other, front⟩, rest, h, rfl⟩
      · cases h
        exact .inl rfl
      · cases h
        exact .inr ⟨front, rest, rfl, rfl⟩

theorem problems_foldl (c : Construction) (tokens : List PlacedToken) :
    (tokens.foldl (process voids) c).problems =
      c.problems ++ (steps voids c tokens).flatMap fun step => step.1.found voids step.2 := by
  induction tokens generalizing c with
  | nil => exact (List.append_nil _).symm
  | cons placed rest ih =>
    rw [List.foldl_cons, ih, problems_process, steps, List.flatMap_cons, List.append_assoc]

/-- Tokens at different places are different steps. -/
theorem nodup_steps (h : (tokens.map (·.span)).Nodup) :
    ((steps voids c tokens).map (·.2.span)).Nodup := by
  have hmap := congrArg (List.map PlacedToken.span) (map_snd_steps voids c tokens)
  rw [List.map_map] at hmap
  exact hmap ▸ h

/-- The tokens of a run that come where no element is open. -/
def outside (voids : VoidTags) (c : Construction) (tokens : List PlacedToken) : List PlacedToken :=
  ((steps voids c tokens).filter (·.1.opened.isEmpty)).map Prod.snd

theorem outside_cons (c : Construction) (tokens : List PlacedToken) :
    outside voids c (placed :: tokens) = (if c.opened.isEmpty then [placed] else []) ++
      outside voids (c.process voids placed) tokens := by
  rw [outside, steps, List.filter_cons]
  split <;> rfl

/-- **The top-level elements are those whose start tags come where no element is open.** -/
theorem tops_foldl (c : Construction) (tokens : List PlacedToken) :
    (tokens.foldl (process voids) c).tops = c.tops ++
      ((outside voids c tokens).filter (·.token.isStartTag)).map (·.span) := by
  induction tokens generalizing c with
  | nil => exact (List.append_nil _).symm
  | cons placed rest ih =>
    rw [List.foldl_cons, ih, tops_process, outside_cons, List.filter_append, List.map_append,
      List.append_assoc]
    cases c.opened.isEmpty <;> cases hs : placed.token.isStartTag <;> simp [hs]

/-- The open elements come from start tags of the run. -/
theorem forall_mem_tags_foldl {P : String × Span → Prop} (hc : ∀ tag ∈ c.tags, P tag)
    (h : ∀ placed ∈ tokens, ∀ name attributes, placed.token = .startTag name attributes false →
      P (name, placed.span)) : ∀ tag ∈ (tokens.foldl (process voids) c).tags, P tag := by
  induction tokens generalizing c with
  | nil => exact hc
  | cons placed rest ih =>
    rw [List.forall_mem_cons] at h
    refine ih ?_ h.2
    cases acts voids c placed with
    | opens htoken _ htags =>
      rw [htags, List.forall_mem_cons]
      exact ⟨h.1 _ _ htoken, hc⟩
    | closes _ _ _ ho htags =>
      rw [htags]
      rw [tags, ho, List.map_append, List.map_cons, List.forall_mem_append,
        List.forall_mem_cons] at hc
      exact hc.2.2
    | stays _ _ htags => rwa [htags]

end Construction

end ComponentMarkup.Markup
