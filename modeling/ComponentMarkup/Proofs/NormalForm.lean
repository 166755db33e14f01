/-
  Trees in normal form.

  * `Child.joinTexts`: every run of adjacent texts made one text; `Child.isJoined`: there is none.
  * `Node.normalize`: below every element, empty texts dropped and adjacent ones joined.
  * `Node.isNormal`: no empty and no adjacent texts anywhere. Normalizing gives such a tree
    (`isNormal_normalize`) and changes none (`normalize_eq_self`).
-/
import ComponentMarkup.Tree.Basic

namespace ComponentMarkup

/-! ## Adjacent texts -/

namespace Child

/-- Every run of adjacent texts made one text. -/
def joinTexts : List Child → List Child
  | [] => []
  | .element node :: rest => .element node :: joinTexts rest
  | .text s :: rest =>
    match joinTexts rest with
    | .text t :: more => .text (s ++ t) :: more
    | joined => .text s :: joined

/-- Whether a text comes first. -/
def startsWithText : List Child → Bool
  | .text _ :: _ => true
  | _ => false

/-- No two texts are adjacent. -/
def isJoined : List Child → Bool
  | [] => true
  | .element _ :: rest => isJoined rest
  | .text _ :: rest => !startsWithText rest && isJoined rest

variable {s t : String} {node : Node} {children : List Child}

theorem joinTexts_text (h : startsWithText (joinTexts children) = false) :
    joinTexts (.text s :: children) = .text s :: joinTexts children := by
  rw [joinTexts]
  split
  next more he => simp [he, startsWithText] at h
  next => rfl

theorem joinTexts_text_text :
    joinTexts (.text s :: .text t :: children) = joinTexts (.text (s ++ t) :: children) := by
  rcases hj : joinTexts children with _ | ⟨_ | u, more⟩ <;>
    simp [joinTexts, hj, String.append_assoc]

@[simp] theorem startsWithText_joinTexts :
    startsWithText (joinTexts children) = startsWithText children := by
  cases children with
  | nil => rfl
  | cons child rest =>
    cases child with
    | element => rfl
    | text s =>
      rw [joinTexts]
      split <;> rfl

theorem isJoined_joinTexts (children : List Child) : isJoined (joinTexts children) = true := by
  induction children with
  | nil => rfl
  | cons child rest ih =>
    cases child with
    | element => exact ih
    | text s =>
      rw [joinTexts]
      split
      next t more he => rw [he] at ih; exact ih
      next joined hne =>
        have : startsWithText (joinTexts rest) = false := by
          cases hj : joinTexts rest with
          | nil => rfl
          | cons c more =>
            cases c with
            | element => rfl
            | text t => exact absurd hj (hne t more)
        simp [isJoined, this, ih]

theorem joinTexts_eq_self (h : isJoined children = true) : joinTexts children = children := by
  induction children with
  | nil => rfl
  | cons child rest ih =>
    cases child with
    | element => rw [joinTexts, ih h]
    | text s =>
      simp only [isJoined, Bool.and_eq_true, Bool.not_eq_true'] at h
      rw [joinTexts_text (by rw [startsWithText_joinTexts]; exact h.1), ih h.2]

/-- An element keeps the texts before it and after it apart. -/
theorem joinTexts_append_element (children : List Child) (node : Node) (rest : List Child) :
    joinTexts (children ++ .element node :: rest) =
      joinTexts children ++ .element node :: joinTexts rest := by
  induction children with
  | nil => rfl
  | cons child children ih =>
    cases child with
    | element => rw [List.cons_append, joinTexts, ih, joinTexts, List.cons_append]
    | text s =>
      rw [List.cons_append, joinTexts, ih, joinTexts]
      rcases joinTexts children with _ | ⟨_ | t, more⟩ <;> rfl

theorem isJoined_append_element {rest : List Child} :
    isJoined (children ++ .element node :: rest) = (isJoined children && isJoined rest) := by
  induction children with
  | nil => rfl
  | cons child children ih =>
    cases child with
    | element => exact ih
    | text s =>
      rw [List.cons_append, isJoined, isJoined, ih, Bool.and_assoc]
      congr 2
      rcases children with _ | ⟨_ | _, _⟩ <;> rfl

end Child

/-! ## Normal trees -/

mutual

/-- The tree with empty texts dropped and adjacent texts joined, below every element. -/
def Node.normalize : Node → Node
  | ⟨name, attributes, children⟩ => ⟨name, attributes, Child.joinTexts (Child.normalizeAll children)⟩

/-- The children without empty texts, the elements among them normalized. -/
def Child.normalizeAll : List Child → List Child
  | [] => []
  | .text s :: rest =>
    if s = "" then Child.normalizeAll rest else .text s :: Child.normalizeAll rest
  | .element node :: rest => .element node.normalize :: Child.normalizeAll rest

end

mutual

/-- A tree without empty and without adjacent texts. -/
def Node.isNormal : Node → Bool
  | ⟨_, _, children⟩ => Child.isJoined children && Child.areNormal children

/-- Children that are normal trees and texts that are not empty. -/
def Child.areNormal : List Child → Bool
  | [] => true
  | .text s :: rest => s != "" && Child.areNormal rest
  | .element node :: rest => node.isNormal && Child.areNormal rest

end

theorem Node.normalize_eq (node : Node) : node.normalize =
    ⟨node.name, node.attributes, Child.joinTexts (Child.normalizeAll node.children)⟩ := by
  cases node; rfl

theorem Node.isNormal_eq (node : Node) : node.isNormal =
    (Child.isJoined node.children && Child.areNormal node.children) := by
  cases node; rfl

theorem Child.normalizeAll_append (children more : List Child) :
    normalizeAll (children ++ more) = normalizeAll children ++ normalizeAll more := by
  induction children with
  | nil => rfl
  | cons child rest ih =>
    cases child with
    | element node => rw [List.cons_append, normalizeAll, normalizeAll, ih, List.cons_append]
    | text s =>
      rw [List.cons_append, normalizeAll, normalizeAll, ih]
      split <;> rfl

theorem Child.areNormal_append (children more : List Child) :
    areNormal (children ++ more) = (areNormal children && areNormal more) := by
  induction children with
  | nil => rfl
  | cons child rest ih =>
    cases child <;> rw [List.cons_append, areNormal, areNormal, ih, Bool.and_assoc]

theorem Child.areNormal_joinTexts {children : List Child} (h : areNormal children = true) :
    areNormal (joinTexts children) = true := by
  induction children with
  | nil => rfl
  | cons child rest ih =>
    cases child with
    | element node =>
      simp only [areNormal, Bool.and_eq_true] at h
      simp [joinTexts, areNormal, h.1, ih h.2]
    | text s =>
      simp only [areNormal, Bool.and_eq_true, bne_iff_ne] at h
      have := ih h.2
      rw [joinTexts]
      split
      next t more he =>
        rw [he] at this
        simp_all [areNormal]
      next => simp [areNormal, h.1, this]

theorem Child.areNormal_normalizeAll (children : List Child) :
    areNormal (normalizeAll children) = true := by
  induction children using Child.inductionOn with
  | nil => rfl
  | text s rest ih =>
    rw [normalizeAll]
    split
    · exact ih
    · simp [areNormal, *]
  | element node rest ih ih' =>
    rw [normalizeAll, areNormal, Node.normalize_eq, Node.isNormal_eq]
    simp [isJoined_joinTexts, areNormal_joinTexts ih, ih']

/-- **Normalizing gives a normal tree.** -/
theorem Node.isNormal_normalize (node : Node) : node.normalize.isNormal = true := by
  rw [normalize_eq, isNormal_eq]
  simp [Child.isJoined_joinTexts, Child.areNormal_joinTexts (Child.areNormal_normalizeAll _)]

theorem Child.normalizeAll_eq_self {children : List Child} (h : areNormal children = true) :
    normalizeAll children = children := by
  induction children using Child.inductionOn with
  | nil => rfl
  | text s rest ih =>
    simp only [areNormal, Bool.and_eq_true, bne_iff_ne] at h
    rw [normalizeAll, if_neg h.1, ih h.2]
  | element node rest ih ih' =>
    simp only [areNormal, Bool.and_eq_true, Node.isNormal_eq] at h
    cases node
    rw [normalizeAll, ih' h.2, Node.normalize_eq, ih h.1.2, joinTexts_eq_self h.1.1]

/-- **A normal tree is left as it is.** -/
theorem Node.normalize_eq_self {node : Node} (h : node.isNormal = true) :
    node.normalize = node := by
  rw [isNormal_eq, Bool.and_eq_true] at h
  cases node
  rw [normalize_eq, Child.normalizeAll_eq_self h.2, Child.joinTexts_eq_self h.1]

/-- Elements with the same normal form have it with other names and attributes, too. -/
theorem Node.normalize_congr {m n : Node} (h : m.normalize = n.normalize) (name : String)
    (attributes : Attributes) :
    Node.normalize ⟨name, attributes, m.children⟩ = Node.normalize ⟨name, attributes, n.children⟩ := by
  rw [normalize_eq m, normalize_eq n] at h
  injection h with _ _ hchildren
  rw [normalize, normalize, hchildren]

end ComponentMarkup
