/-
  Trees that can be written.

  * `isLegalName`, `isLegalKey`: the names of elements and attributes that reading accepts.
  * `isRawContent`: the children that an element with a raw body can have.
  * `Node.isLegal`: legal names everywhere, void elements without children, raw bodies without their
    end tag. `Node.isLegal_iff` says it for one element and its children.
  * `Node.isCanonical`: legal and normal. Normalizing a legal tree makes it canonical
    (`Node.isLegal_normalize`).
-/
import ComponentMarkup.Markup.Document
import ComponentMarkup.Proofs.NormalForm

namespace ComponentMarkup

open Markup (VoidTags isKeyChar isNameChar isNameStart isRawName)

/-! ## Names -/

/-- A name of an element: a letter, `_` or `:`, and then name characters. -/
def isLegalName (name : String) : Bool :=
  name.toList.head?.any isNameStart && name.toList.all isNameChar

/-- A name of an attribute. -/
def isLegalKey (key : String) : Bool :=
  !key.toList.isEmpty && key.toList.all isKeyChar

/-! ## Raw bodies -/

/-- A text without the beginning of the end tag of an element, in any case. -/
def isRawBody (name body : String) : Bool :=
  !Text.occursIn (['<', '/'] ++ (Text.asciiLower name).toList) (Text.asciiLower body).toList

/-- The children of an element with a raw body: none, or that body. -/
def isRawContent (name : String) : List Child → Bool
  | [] => true
  | [.text body] => isRawBody name body
  | _ => false

/-! ## Legal trees -/

mutual

/-- A tree that can be written and read: the names are legal, void elements have no children, and
raw bodies do not hold their end tag. -/
def Node.isLegal (voids : VoidTags) : Node → Bool
  | ⟨name, attributes, children⟩ =>
    isLegalName name && attributes.keys.all isLegalKey && (!voids.has name || children.isEmpty) &&
      (!isRawName name || isRawContent name children) && Child.areLegal voids children

/-- Children of which all elements are legal trees. -/
def Child.areLegal (voids : VoidTags) : List Child → Bool
  | [] => true
  | .text _ :: rest => Child.areLegal voids rest
  | .element node :: rest => node.isLegal voids && Child.areLegal voids rest

end

/-- A legal tree without empty and without adjacent texts. -/
def Node.isCanonical (voids : VoidTags) (node : Node) : Bool :=
  node.isLegal voids && node.isNormal

variable {voids : VoidTags} {children : List Child}

theorem Node.isLegal_iff {node : Node} : node.isLegal voids = true ↔
    isLegalName node.name = true ∧ (∀ key ∈ node.attributes.keys, isLegalKey key = true) ∧
      (voids.has node.name = true → node.children = []) ∧
      (isRawName node.name = true → isRawContent node.name node.children = true) ∧
      Child.areLegal voids node.children = true := by
  cases node
  simp only [isLegal, Bool.and_eq_true, Bool.or_eq_true, Bool.not_eq_true', List.all_eq_true,
    List.isEmpty_iff, ← Bool.not_eq_true, and_assoc, Decidable.imp_iff_not_or]

theorem Child.areLegal_iff : areLegal voids children = true ↔
    ∀ node, .element node ∈ children → node.isLegal voids = true := by
  induction children with
  | nil => simp [areLegal]
  | cons child rest ih =>
    cases child with
    | text => simpa [areLegal] using ih
    | element node => simp [areLegal, ih]

theorem Child.areLegal_append {others : List Child} : areLegal voids (children ++ others) = true ↔
    areLegal voids children = true ∧ areLegal voids others = true := by
  simp only [areLegal_iff, List.mem_append]
  exact ⟨fun h => ⟨fun n hn => h n (.inl hn), fun n hn => h n (.inr hn)⟩,
    fun h n hn => hn.elim (h.1 n) (h.2 n)⟩

theorem Child.areLegal_joinTexts : areLegal voids (joinTexts children) = areLegal voids children := by
  induction children with
  | nil => rfl
  | cons child rest ih =>
    cases child with
    | element node => rw [joinTexts, areLegal, areLegal, ih]
    | text s =>
      rw [areLegal, ← ih, joinTexts]
      split
      next he => rw [he, areLegal, areLegal]
      next => rfl

theorem isRawContent_normalize {name : String} (h : isRawContent name children = true) :
    isRawContent name (Child.joinTexts (Child.normalizeAll children)) = true := by
  unfold isRawContent at h
  split at h
  · rfl
  next s =>
    by_cases hs : s = "" <;> simp [Child.normalizeAll, Child.joinTexts, isRawContent, hs, h]
  · cases h

theorem Child.areLegal_normalizeAll (h : areLegal voids children = true) :
    areLegal voids (normalizeAll children) = true := by
  induction children using Child.inductionOn with
  | nil => rfl
  | text s rest ih =>
    rw [normalizeAll]
    split
    · exact ih h
    · exact ih h
  | element node rest ih ih' =>
    rw [areLegal, Bool.and_eq_true, Node.isLegal_iff] at h
    obtain ⟨⟨hn, hk, hv, hr, hc⟩, hrest⟩ := h
    rw [normalizeAll, areLegal, Bool.and_eq_true, Node.isLegal_iff, Node.normalize_eq]
    refine ⟨⟨hn, hk, fun h => ?_, fun h => isRawContent_normalize (hr h), ?_⟩, ih' hrest⟩
    · rw [hv h]; rfl
    · rw [areLegal_joinTexts]; exact ih hc

/-- **Normalizing keeps a tree legal.** -/
theorem Node.isLegal_normalize {node : Node} (h : node.isLegal voids = true) :
    node.normalize.isLegal voids = true := by
  have hsingle : Child.areLegal voids [.element node] = true := by
    rw [Child.areLegal, h]
    rfl
  have := Child.areLegal_normalizeAll hsingle
  rwa [Child.normalizeAll, Child.normalizeAll, Child.areLegal, Child.areLegal, Bool.and_true] at this

end ComponentMarkup
