/-
  The grammar of well-nested tokens.

  * `Token.isStructural`: the tokens that count; comments, declarations, processing instructions and
    the end tags of void elements do not.
  * `Content`: tokens between the tags of an element, with the children that they stand for, text
    by text. `IsDocument`: one element with nothing but blank text around it.
  * `firstAttributes`: the attributes of a start tag, of repeated ones the first;
    `Token.repeats`: the reports on the others.

  Which attributes the tags have does not matter for being well nested (`IsDocument.of_sameTags`).
-/
import ComponentMarkup.Markup.Document
import ComponentMarkup.Proofs.NormalForm

namespace ComponentMarkup.Markup

/-! ## Tokens -/

namespace Token

/-- The text that a token adds to the element around it. -/
def text? : Token → Option String
  | .text s | .rawText s | .cdata s => some s
  | _ => none

/-- Whether a token counts for the structure of a document. -/
def isStructural (voids : VoidTags) : Token → Bool
  | .comment _ | .declaration _ | .instruction _ => false
  | .endTag name => !voids.has name
  | _ => true

/-- A text of which nothing is left when it is trimmed. -/
def IsBlank (token : Token) : Prop := ∃ s, token.text? = some s ∧ Text.trim s = ""

/-- The token without its attributes. -/
def bare : Token → Token
  | .startTag name _ selfClosing => .startTag name [] selfClosing
  | token => token

end Token

/-- The token, without its attributes, at its place. -/
def PlacedToken.bare (placed : PlacedToken) : PlacedToken := ⟨placed.token.bare, placed.span⟩

/-- The tokens that count, without their places. -/
def structuralTokens (voids : VoidTags) (tokens : List PlacedToken) : List Token :=
  (tokens.map PlacedToken.token).filter (Token.isStructural voids)

theorem bare_structuralTokens (voids : VoidTags) (tokens : List PlacedToken) :
    (structuralTokens voids (tokens.map PlacedToken.bare)).map Token.bare =
      (structuralTokens voids tokens).map Token.bare := by
  have structural : ∀ t : Token, t.bare.isStructural voids = t.isStructural voids := by
    intro t; cases t <;> rfl
  have twice : ∀ t : Token, t.bare.bare = t.bare := by
    intro t; cases t <;> rfl
  simp only [structuralTokens, List.filter_map, List.map_map, Function.comp_def, PlacedToken.bare,
    structural, twice]

/-! ## Attributes -/

/-- The attributes that have no namesake before them. -/
def firstOnly : List TagAttribute → List TagAttribute
  | [] => []
  | attr :: rest => attr :: (firstOnly rest).filter fun other => other.name ≠ attr.name

/-- The attributes that have a namesake before them or among `seen`. -/
def repeatedOnly (seen : List String) : List TagAttribute → List TagAttribute
  | [] => []
  | attr :: rest =>
    if attr.name ∈ seen then attr :: repeatedOnly seen rest
    else repeatedOnly (seen ++ [attr.name]) rest

theorem nodup_firstOnly (attributes : List TagAttribute) :
    ((firstOnly attributes).map TagAttribute.name).Nodup := by
  induction attributes with
  | nil => simp [firstOnly]
  | cons attr rest ih =>
    rw [firstOnly, List.map_cons, List.nodup_cons]
    refine ⟨?_, ih.sublist (List.filter_sublist.map _)⟩
    simp

/-- The attributes in order, each with its first value. -/
def firstAttributes (attributes : List TagAttribute) : Attributes where
  entries := (firstOnly attributes).map fun attr => (attr.name, attr.value)
  nodup := by simpa [Function.comp_def] using nodup_firstOnly attributes

/-- The reports on the repeated attributes of a token. -/
def Token.repeats : Token → List Problem
  | .startTag _ attributes _ =>
    (repeatedOnly [] attributes).map fun attr => .repeatedAttribute attr.name attr.span
  | _ => []

/-! ## The grammar -/

/-- Tokens that stand for a list of children: texts, and elements with their content. A start tag
that is void or closes itself is an element of its own; any other one goes up to an end tag of its
name, in any case. Inside an element adjacent texts are one. -/
inductive Content (voids : VoidTags) : List Token → List Child → Prop
  | nil : Content voids [] []
  | text {token s tokens children} : token.text? = some s → Content voids tokens children →
      Content voids (token :: tokens) (.text s :: children)
  | leaf {name attributes selfClosing tokens children} :
      (selfClosing || voids.has name) = true → Content voids tokens children →
      Content voids (.startTag name attributes selfClosing :: tokens)
        (.element ⟨name, firstAttributes attributes, []⟩ :: children)
  | element {name attributes body inner tag tokens children} :
      voids.has name = false → Text.sameName name tag = true → Content voids body inner →
      Content voids tokens children →
      Content voids (.startTag name attributes false :: (body ++ .endTag tag :: tokens))
        (.element ⟨name, firstAttributes attributes, Child.joinTexts inner⟩ :: children)

/-- A document: one element, and blank texts before and after it. -/
def IsDocument (voids : VoidTags) (tokens : List Token) (root : Node) : Prop :=
  ∃ before element after, tokens = before ++ element ++ after ∧
    (∀ token ∈ before, token.IsBlank) ∧ Content voids element [.element root] ∧
    ∀ token ∈ after, token.IsBlank

variable {voids : VoidTags} {tokens tokens' : List Token} {children children' : List Child}

theorem Content.append (h : Content voids tokens children) (h' : Content voids tokens' children') :
    Content voids (tokens ++ tokens') (children ++ children') := by
  induction h with
  | nil => exact h'
  | text ht _ ih => exact .text ht ih
  | leaf hl _ ih => exact .leaf hl ih
  | element hv hn hb _ _ ih => simpa using .element hv hn hb ih

theorem Content.single {token : Token} {s : String} (h : token.text? = some s) :
    Content voids [token] [.text s] :=
  .text h .nil

/-- Whether tokens are content does not depend on attributes, and neither do the texts. -/
theorem Content.of_sameTags (h : Content voids tokens children)
    (hs : tokens'.map Token.bare = tokens.map Token.bare) :
    ∃ children', Content voids tokens' children' ∧
      children'.map Child.text? = children.map Child.text? := by
  have tag : ∀ {t : Token} {name selfClosing}, t.bare = .startTag name [] selfClosing →
      ∃ attributes, t = .startTag name attributes selfClosing := by
    intro t name selfClosing h
    cases t <;> cases h
    exact ⟨_, rfl⟩
  have other : ∀ {t u : Token}, t.bare = u → (∀ name attributes selfClosing,
      u ≠ .startTag name attributes selfClosing) → t = u := by
    intro t u h hu
    cases t with
    | startTag => exact absurd h.symm (hu _ _ _)
    | _ => exact h
  induction h generalizing tokens' with
  | nil =>
    obtain rfl := List.map_eq_nil_iff.1 hs
    exact ⟨[], .nil, rfl⟩
  | @text token s tokens children ht _ ih =>
    obtain ⟨t, rest, rfl, he, hr⟩ := List.map_eq_cons_iff.1 hs
    obtain ⟨children', hc, hm⟩ := ih hr
    have hb : token.bare = token := by
      cases token with
      | startTag => cases ht
      | _ => rfl
    have := other (he.trans hb) (by rintro _ _ _ rfl; cases ht)
    exact ⟨_, .text (this ▸ ht) hc, by simp [Child.text?, hm]⟩
  | leaf hl _ ih =>
    obtain ⟨t, rest, rfl, he, hr⟩ := List.map_eq_cons_iff.1 hs
    obtain ⟨children', hc, hm⟩ := ih hr
    obtain ⟨attributes, rfl⟩ := tag he
    exact ⟨_, .leaf hl hc, by simp [Child.text?, hm]⟩
  | element hv hn _ _ ihb ih =>
    obtain ⟨t, rest, rfl, he, hr⟩ := List.map_eq_cons_iff.1 hs
    rw [List.map_append] at hr
    obtain ⟨body, after, rfl, hbody, hafter⟩ := List.map_eq_append_iff.1 hr
    obtain ⟨e, tokens', rfl, hend, hrest⟩ := List.map_eq_cons_iff.1 hafter
    obtain ⟨attributes, rfl⟩ := tag he
    obtain rfl := other hend (by rintro _ _ _ ⟨⟩)
    obtain ⟨inner, hinner, -⟩ := ihb hbody
    obtain ⟨children', hc, hm⟩ := ih hrest
    exact ⟨_, .element hv hn hinner hc, by simp [Child.text?, hm]⟩

/-- **Attributes do not decide whether tokens make a document.** -/
theorem IsDocument.of_sameTags {root : Node} (h : IsDocument voids tokens root)
    (hs : tokens'.map Token.bare = tokens.map Token.bare) :
    ∃ root', IsDocument voids tokens' root' := by
  have blank : ∀ {some others : List Token}, others.map Token.bare = some.map Token.bare →
      (∀ token ∈ some, token.IsBlank) → ∀ token ∈ others, token.IsBlank := by
    intro some others he hb token ht
    obtain ⟨t, hm, htt⟩ := List.mem_map.1 (he ▸ List.mem_map_of_mem ht)
    obtain ⟨s, hts, hblank⟩ := hb t hm
    refine ⟨s, ?_, hblank⟩
    cases t <;> cases token <;> simp_all [Token.bare, Token.text?]
  obtain ⟨before, element, after, rfl, hb, he, ha⟩ := h
  rw [List.map_append, List.map_append] at hs
  obtain ⟨front, after', rfl, hf, hafter⟩ := List.map_eq_append_iff.1 hs
  obtain ⟨before', element', rfl, hbefore, helement⟩ := List.map_eq_append_iff.1 hf
  obtain ⟨children', hc, hm⟩ := he.of_sameTags helement
  obtain ⟨child, rfl, hchild⟩ := List.map_eq_singleton_iff.1 hm
  cases child with
  | text => cases hchild
  | element root' =>
    exact ⟨root', before', element', after', rfl, blank hbefore hb, hc, blank hafter ha⟩

end ComponentMarkup.Markup
