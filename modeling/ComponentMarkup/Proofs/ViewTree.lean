/-
  Trees with placeholders.

  * `ViewNode`: an element whose texts and attribute values are pieces, literal ones and
    placeholders. `ViewNode.fill` puts the values of a lookup in the place of the placeholders.
  * `ViewNode.isCanonical`: legal names, void elements without children, no adjacent texts, literal
    raw bodies without their end tag, and no literal in which a placeholder begins.
  * `isLegal_fill`: what a canonical tree is filled to is legal, whatever the values are.
-/
import ComponentMarkup.Proofs.LegalTree
import ComponentMarkup.Proofs.Placeholders

namespace ComponentMarkup

open Markup (VoidTags isRawName)

/-! ## Trees with placeholders -/

mutual

/-- A child of an element with placeholders. -/
inductive ViewChild where
  | element (node : ViewNode)
  | text (pieces : List Piece)

/-- An element with placeholders in its texts and attribute values. -/
structure ViewNode where
  name : String
  attributes : OrderedMap String (List Piece)
  children : List ViewChild

end

mutual

private theorem ViewNode.inductionChildren {motive : List ViewChild → Prop} (nil : motive [])
    (text : ∀ pieces rest, motive rest → motive (.text pieces :: rest))
    (element : ∀ node rest, motive node.children → motive rest → motive (.element node :: rest)) :
    ∀ node : ViewNode, motive node.children
  | ⟨_, _, children⟩ => ViewChild.inductionOn children nil text element

/-- Induction on a list of children with placeholders. -/
theorem ViewChild.inductionOn {motive : List ViewChild → Prop} (children : List ViewChild)
    (nil : motive []) (text : ∀ pieces rest, motive rest → motive (.text pieces :: rest))
    (element : ∀ node rest, motive node.children → motive rest → motive (.element node :: rest)) :
    motive children :=
  match children with
  | [] => nil
  | .text pieces :: rest => text pieces rest (ViewChild.inductionOn rest nil text element)
  | .element node :: rest =>
    element node rest (ViewNode.inductionChildren nil text element node)
      (ViewChild.inductionOn rest nil text element)

end

/-! ## Filling in values -/

/-- The map with other values for its keys. -/
def OrderedMap.mapValues {α β γ : Type} (f : β → γ) (m : OrderedMap α β) : OrderedMap α γ where
  entries := m.entries.map fun e => (e.1, f e.2)
  nodup := by simpa [Function.comp_def] using m.nodup

@[simp] theorem OrderedMap.keys_mapValues {α β γ : Type} (f : β → γ) (m : OrderedMap α β) :
    (m.mapValues f).keys = m.keys := by
  simp [keys, mapValues]

/-- The text of pieces with the values of a lookup; a key without a value gives nothing. -/
def Piece.filled (lookup : String → Option String) (pieces : List Piece) : String :=
  joined (fun key => (lookup key).getD "") pieces

mutual

/-- The tree with the values of a lookup in the place of its placeholders. -/
def ViewNode.fill (lookup : String → Option String) : ViewNode → Node
  | ⟨name, attributes, children⟩ =>
    ⟨name, attributes.mapValues (Piece.filled lookup), ViewChild.fillAll lookup children⟩

/-- The children with the values of a lookup in the place of their placeholders. -/
def ViewChild.fillAll (lookup : String → Option String) : List ViewChild → List Child
  | [] => []
  | .text pieces :: rest => .text (Piece.filled lookup pieces) :: ViewChild.fillAll lookup rest
  | .element node :: rest => .element (node.fill lookup) :: ViewChild.fillAll lookup rest

end

theorem ViewNode.fill_eq (lookup : String → Option String) (node : ViewNode) : node.fill lookup =
    ⟨node.name, node.attributes.mapValues (Piece.filled lookup),
      ViewChild.fillAll lookup node.children⟩ := by
  cases node
  rw [fill]

/-! ## Canonical trees -/

/-- A literal in which no placeholder begins, or a placeholder with a legal key. -/
def Piece.isLegal : Piece → Bool
  | .literal s => isBraceSafe s
  | .placeholder key => Template.isLegalKey key

/-- A legal attribute name without opening braces. -/
def isPlainKey (key : String) : Bool :=
  isLegalKey key && !key.toList.contains '{'

namespace ViewChild

/-- Whether a text comes first. -/
def startsWithText : List ViewChild → Bool
  | .text _ :: _ => true
  | _ => false

/-- No two texts are adjacent. -/
def isJoined : List ViewChild → Bool
  | [] => true
  | .element _ :: rest => isJoined rest
  | .text _ :: rest => !startsWithText rest && isJoined rest

/-- The children of an element with a raw body: none, or that body without placeholders. -/
def isRawContent (name : String) : List ViewChild → Bool
  | [] => true
  | [.text [.literal body]] => isRawBody name body
  | _ => false

end ViewChild

mutual

/-- A tree that can be written with its placeholders and read with any values in their place. -/
def ViewNode.isCanonical (voids : VoidTags) : ViewNode → Bool
  | ⟨name, attributes, children⟩ =>
    isLegalName name && attributes.keys.all isPlainKey && attributes.values.all (·.all Piece.isLegal)
      && (!voids.has name || children.isEmpty) &&
      (!isRawName name || ViewChild.isRawContent name children) && ViewChild.isJoined children &&
      ViewChild.areCanonical voids children

/-- Children of which all pieces are legal and all elements canonical. -/
def ViewChild.areCanonical (voids : VoidTags) : List ViewChild → Bool
  | [] => true
  | .text pieces :: rest => pieces.all Piece.isLegal && ViewChild.areCanonical voids rest
  | .element node :: rest => node.isCanonical voids && ViewChild.areCanonical voids rest

end

variable {voids : VoidTags} {lookup : String → Option String} {children : List ViewChild}

theorem ViewNode.isCanonical_iff {node : ViewNode} : node.isCanonical voids = true ↔
    isLegalName node.name = true ∧ (∀ key ∈ node.attributes.keys, isPlainKey key = true) ∧
      (∀ pieces ∈ node.attributes.values, ∀ piece ∈ pieces, piece.isLegal = true) ∧
      (voids.has node.name = true → node.children = []) ∧
      (isRawName node.name = true → ViewChild.isRawContent node.name node.children = true) ∧
      ViewChild.isJoined node.children = true ∧
      ViewChild.areCanonical voids node.children = true := by
  cases node
  simp only [isCanonical, Bool.and_eq_true, Bool.or_eq_true, Bool.not_eq_true', List.all_eq_true,
    List.isEmpty_iff, ← Bool.not_eq_true, and_assoc, Decidable.imp_iff_not_or]

theorem ViewChild.areCanonical_singleton {node : ViewNode} :
    areCanonical voids [.element node] = true ↔ node.isCanonical voids = true := by
  rw [areCanonical, areCanonical, Bool.and_true]

/-! ## Filled trees -/

theorem isRawContent_fillAll {name : String} (h : ViewChild.isRawContent name children = true) :
    isRawContent name (ViewChild.fillAll lookup children) = true := by
  unfold ViewChild.isRawContent at h
  split at h
  · rfl
  next body =>
    rw [ViewChild.fillAll, ViewChild.fillAll, Piece.filled, Piece.joined_cons, Piece.joined_nil,
      String.append_empty]
    exact h
  · cases h

theorem ViewChild.areLegal_fillAll (h : areCanonical voids children = true) :
    Child.areLegal voids (fillAll lookup children) = true := by
  induction children using ViewChild.inductionOn with
  | nil => rfl
  | text pieces rest ih =>
    rw [areCanonical, Bool.and_eq_true] at h
    rw [fillAll, Child.areLegal]
    exact ih h.2
  | element node rest ih ih' =>
    rw [areCanonical, Bool.and_eq_true, ViewNode.isCanonical_iff] at h
    obtain ⟨⟨hname, hkeys, -, hvoid, hraw, -, hchildren⟩, hrest⟩ := h
    rw [fillAll, Child.areLegal, Bool.and_eq_true, Node.isLegal_iff, ViewNode.fill_eq]
    refine ⟨⟨hname, fun key hkey => ?_, fun hv => ?_, fun hr => isRawContent_fillAll (hraw hr),
      ih hchildren⟩, ih' hrest⟩
    · rw [OrderedMap.keys_mapValues] at hkey
      exact (Bool.and_eq_true_iff.1 (hkeys key hkey)).1
    · rw [hvoid hv]
      rfl

/-- **A canonical tree is legal with any values** in the place of its placeholders. -/
theorem ViewNode.isLegal_fill {node : ViewNode} (h : node.isCanonical voids = true) :
    (node.fill lookup).isLegal voids = true := by
  have : Child.areLegal voids (ViewChild.fillAll lookup [.element node]) = true :=
    ViewChild.areLegal_fillAll (ViewChild.areCanonical_singleton.2 h)
  rwa [ViewChild.fillAll, ViewChild.fillAll, Child.areLegal, Child.areLegal, Bool.and_true] at this

theorem ViewChild.isJoined_normalizeAll (h : isJoined children = true) :
    Child.isJoined (Child.normalizeAll (fillAll lookup children)) = true := by
  have starts : ∀ rest : List ViewChild, startsWithText rest = false →
      Child.startsWithText (Child.normalizeAll (fillAll lookup rest)) = false := by
    intro rest hr
    cases rest with
    | nil => rfl
    | cons child more =>
      cases child with
      | text => cases hr
      | element node => rfl
  induction children with
  | nil => rfl
  | cons child rest ih =>
    cases child with
    | element node => exact ih h
    | text pieces =>
      simp only [isJoined, Bool.and_eq_true, Bool.not_eq_true'] at h
      rw [fillAll, Child.normalizeAll]
      split
      · exact ih h.2
      · rw [Child.isJoined, starts rest h.1, ih h.2]
        rfl

end ComponentMarkup
