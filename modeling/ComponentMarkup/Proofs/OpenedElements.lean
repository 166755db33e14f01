/-
  The elements that a source opens.

  * `Node.openings`: the elements of a tree with their attributes, in the order of their start tags.
    Empty and split texts do not change them (`Node.openings_normalize`).
  * `IsDocument.openings_eq`: a document has those that its tokens open.
  * `Spells.openings_eq`: what spells children opens theirs, and then those of what follows.
-/
import Mathlib.Data.List.Basic
import ComponentMarkup.Proofs.Spelling
import ComponentMarkup.Proofs.ParsedTree

namespace ComponentMarkup

open Markup (VoidTags)

/-! ## The elements of a tree -/

mutual

/-- The element and those in it, with their attributes, in the order of their start tags. -/
def Node.openings : Node → List (String × Attributes)
  | ⟨name, attributes, children⟩ => (name, attributes) :: Child.openings children

/-- The elements among the children and in them. -/
def Child.openings : List Child → List (String × Attributes)
  | [] => []
  | .text _ :: rest => Child.openings rest
  | .element node :: rest => node.openings ++ Child.openings rest

end

theorem Node.openings_eq (node : Node) :
    node.openings = (node.name, node.attributes) :: Child.openings node.children := by
  cases node
  rw [openings]

theorem Child.openings_joinTexts (children : List Child) :
    openings (joinTexts children) = openings children := by
  induction children with
  | nil => rfl
  | cons child rest ih =>
    cases child with
    | element node => rw [joinTexts, openings, openings, ih]
    | text s =>
      rw [joinTexts]
      split
      next t more he => rw [openings, openings, ← ih, he, openings]
      next => rw [openings, openings, ih]

/-- Texts are no elements. -/
theorem Child.openings_normalizeAll (children : List Child) :
    openings (normalizeAll children) = openings children := by
  induction children using Child.inductionOn with
  | nil => rfl
  | text s rest ih =>
    rw [normalizeAll]
    split
    · rw [openings, ih]
    · rw [openings, openings, ih]
  | element node rest ih ih' =>
    rw [normalizeAll, openings, openings, ih', Node.openings_eq, node.openings_eq,
      Node.normalize_eq, openings_joinTexts, ih]

theorem Node.openings_normalize (node : Node) : node.normalize.openings = node.openings := by
  rw [openings_eq, node.openings_eq, normalize_eq, Child.openings_joinTexts,
    Child.openings_normalizeAll]

namespace Markup

/-- The element that a token opens. -/
def Token.opening? : Token → Option (String × Attributes)
  | .startTag name attributes _ => some (name, firstAttributes attributes)
  | _ => none

/-- The elements that tokens open. -/
def openings (tokens : List Token) : List (String × Attributes) := tokens.filterMap Token.opening?

section
variable {voids : VoidTags} {tokens more : List Token} {children : List Child} {root : Node}
  {token : Token} {name : String} {attributes : List TagAttribute} {selfClosing : Bool}
  {a b : Cursor}

theorem openings_startTag_cons : openings (.startTag name attributes selfClosing :: tokens) =
    (name, firstAttributes attributes) :: openings tokens := rfl

theorem openings_cons_of_none (h : token.opening? = none) :
    openings (token :: tokens) = openings tokens :=
  List.filterMap_cons_none h

theorem openings_append : openings (tokens ++ more) = openings tokens ++ openings more :=
  List.filterMap_append

theorem Token.opening?_eq_none {s : String} (h : token.text? = some s) : token.opening? = none := by
  cases token with
  | startTag => cases h
  | _ => rfl

theorem Content.openings_eq (h : Content voids tokens children) :
    openings tokens = Child.openings children := by
  induction h with
  | nil => rfl
  | text ht _ ih => rw [openings_cons_of_none (Token.opening?_eq_none ht), Child.openings, ih]
  | leaf _ _ ih =>
    rw [openings_startTag_cons, Child.openings, Node.openings, Child.openings, ih]
    rfl
  | element _ _ _ _ ih ih' =>
    rw [openings_startTag_cons, openings_append, openings_cons_of_none rfl, Child.openings,
      Node.openings, Child.openings_joinTexts, ih, ih']
    rfl

/-- Every start tag counts. -/
theorem openings_structuralTokens (voids : VoidTags) (tokens : List PlacedToken) :
    openings (structuralTokens voids tokens) = openings (tokens.map PlacedToken.token) := by
  rw [openings, structuralTokens, List.filterMap_filter]
  refine List.filterMap_congr fun token _ => ?_
  cases token <;> simp [Token.isStructural, Token.opening?]

/-- **A document has the elements that its tokens open.** -/
theorem IsDocument.openings_eq (h : IsDocument voids tokens root) :
    openings tokens = root.openings := by
  have blank : ∀ {tokens : List Token}, (∀ token ∈ tokens, token.IsBlank) → openings tokens = [] := by
    intro tokens hblank
    refine List.filterMap_eq_nil_iff.2 fun token hm => ?_
    obtain ⟨s, hs, -⟩ := hblank token hm
    exact Token.opening?_eq_none hs
  obtain ⟨before, element, after, rfl, hbefore, hcontent, hafter⟩ := h
  rw [openings_append, openings_append, blank hbefore, blank hafter, hcontent.openings_eq, List.nil_append,
    List.append_nil, Child.openings, Child.openings, List.append_nil]

/-- What spells children opens the elements among them, and then those of what follows. -/
theorem Spells.openings_eq {placed : List PlacedToken} (h : Spells voids children a b)
    (hscan : scan a = placed.map .ok) : ∃ rest : List PlacedToken, scan b = rest.map .ok ∧
      openings (placed.map PlacedToken.token) =
        Child.openings children ++ openings (rest.map PlacedToken.token) := by
  obtain ⟨tokens, htokens, hcontent⟩ := h
  obtain ⟨front, rest, rfl, hfront, hrest⟩ := List.map_eq_append_iff.1 (hscan.symm.trans htokens)
  obtain rfl : front = tokens := (List.map_inj_right fun _ _ => Except.ok.inj).1 hfront
  refine ⟨rest, hrest.symm, ?_⟩
  rw [List.map_append, openings_append, ← openings_structuralTokens voids, hcontent.openings_eq]

end

end Markup

end ComponentMarkup
