/-
  Markup with every element of a block on a line of its own.

  * `Node.isBlock`: the elements whose children stand on lines of their own.
  * `Node.laidOut`: the tree with the line breaks and the indentation in it.
    `KeepsRaw.writeElement_laidOut`: to write a tree with indentation is to write this one without.
  * `Node.withoutLayout`: the tree without the texts between the children of blocks. The layout is
    nothing else (`Node.withoutLayout_laidOut`).
  * `KeepsRaw.parse_writeElement_some`: what is read from markup with indentation.
  * `KeepsRaw.writeElement_normalize_laidOut`: written with indentation, it is that markup again.
-/
import ComponentMarkup.Proofs.RoundTrip

namespace ComponentMarkup

open Markup (VoidTags isRawName)
open Markup.Writer (newLine)

variable {voids : VoidTags} {node : Node} {children : List Child} {depth : Nat}

/-! ## Blocks -/

/-- An element with element children and without visible text of its own, whose body is not raw. -/
def Node.isBlock (node : Node) : Bool :=
  !isRawName node.name && node.hasElements && !node.hasVisibleText

theorem Node.isBlock_iff : node.isBlock = true ↔
    isRawName node.name = false ∧ node.hasElements = true ∧ node.hasVisibleText = false := by
  simp only [isBlock, Bool.and_eq_true, Bool.not_eq_true', and_assoc]

theorem Node.children_ne_nil_of_isBlock (h : node.isBlock = true) : node.children ≠ [] := by
  intro hnil
  have helements := (isBlock_iff.1 h).2.1
  rw [hasElements, hnil] at helements
  cases helements

/-- Joining texts keeps what some child satisfies, if a joined text has it from one of its parts. -/
theorem any_joinTexts {p : Child → Bool}
    (happend : ∀ s t, p (.text (s ++ t)) = (p (.text s) || p (.text t))) (children : List Child) :
    (Child.joinTexts children).any p = children.any p := by
  induction children with
  | nil => rfl
  | cons child rest ih =>
    cases child with
    | element node => rw [Child.joinTexts, List.any_cons, List.any_cons, ih]
    | text s =>
      rw [List.any_cons, ← ih, Child.joinTexts]
      split
      next t more he => rw [he, List.any_cons, List.any_cons, happend, Bool.or_assoc]
      next => rw [List.any_cons]

theorem any_normalizeAll {p : Child → Bool} (hempty : p (.text "") = false)
    (helement : ∀ node : Node, p (.element node.normalize) = p (.element node))
    (children : List Child) : (Child.normalizeAll children).any p = children.any p := by
  induction children with
  | nil => rfl
  | cons child rest ih =>
    cases child with
    | element node => rw [Child.normalizeAll, List.any_cons, List.any_cons, ih, helement]
    | text s =>
      rw [Child.normalizeAll]
      split
      next hs => rw [List.any_cons, ih, hs, hempty, Bool.false_or]
      next => rw [List.any_cons, List.any_cons, ih]

/-- Normalizing keeps blocks and makes none. -/
theorem Node.isBlock_normalize (node : Node) : node.normalize.isBlock = node.isBlock := by
  have helements : node.normalize.hasElements = node.hasElements := by
    rw [hasElements, normalize_eq, any_joinTexts fun _ _ => rfl,
      any_normalizeAll rfl fun _ => rfl, hasElements]
  have htexts : node.normalize.hasVisibleText = node.hasVisibleText := by
    rw [hasVisibleText, normalize_eq, any_joinTexts Text.isVisible_append,
      any_normalizeAll rfl fun _ => rfl, hasVisibleText]
  rw [isBlock, helements, htexts, normalize_eq, isBlock]

/-! ## The layout -/

mutual

/-- The tree as it stands when its blocks are put on lines. The indentation is that of the element
itself. -/
def Node.laidOut (depth : Nat) : Node → Node
  | ⟨name, attributes, children⟩ =>
    if Node.isBlock ⟨name, attributes, children⟩ then
      ⟨name, attributes, Child.laidOut depth children⟩
    else ⟨name, attributes, children⟩

/-- The element children of a block, a new line before each of them and before the end tag. -/
def Child.laidOut (depth : Nat) : List Child → List Child
  | [] => [.text (newLine depth)]
  | .text _ :: rest => Child.laidOut depth rest
  | .element node :: rest =>
    .text (newLine (depth + 1)) :: .element (node.laidOut (depth + 1)) :: Child.laidOut depth rest

end

mutual

/-- The tree without the texts between the children of blocks. -/
def Node.withoutLayout : Node → Node
  | ⟨name, attributes, children⟩ =>
    ⟨name, attributes, Child.withoutLayout (!Node.isBlock ⟨name, attributes, children⟩) children⟩

/-- The children without layout, with or without the texts among them. -/
def Child.withoutLayout (keepsTexts : Bool) : List Child → List Child
  | [] => []
  | .text s :: rest =>
    if keepsTexts then .text s :: Child.withoutLayout keepsTexts rest
    else Child.withoutLayout keepsTexts rest
  | .element node :: rest => .element node.withoutLayout :: Child.withoutLayout keepsTexts rest

end

theorem Node.laidOut_of_isBlock (h : node.isBlock = true) (depth : Nat) :
    node.laidOut depth = { node with children := Child.laidOut depth node.children } := by
  cases node
  exact if_pos h

theorem Node.laidOut_of_not_isBlock (h : node.isBlock = false) (depth : Nat) :
    node.laidOut depth = node := by
  cases node
  exact if_neg (by rw [h]; exact Bool.false_ne_true)

theorem Node.withoutLayout_eq (node : Node) : node.withoutLayout =
    { node with children := Child.withoutLayout (!node.isBlock) node.children } := by
  cases node
  rfl

theorem Child.laidOut_ne_nil (depth : Nat) (children : List Child) :
    Child.laidOut depth children ≠ [] := by
  induction children with
  | nil => exact List.cons_ne_nil _ _
  | cons child rest ih =>
    cases child with
    | text s => exact ih
    | element node => exact List.cons_ne_nil _ _

theorem not_isVisible_newLine (depth : Nat) : Text.isVisible (newLine depth) = false := by
  rw [← Bool.not_eq_true, Text.isVisible, newLine, List.any_eq_true]
  rintro ⟨c, hc, hvisible⟩
  rw [String.toList_append, List.mem_append] at hc
  rcases hc with hc | hc
  · rw [show c = '\n' from List.mem_singleton.1 hc] at hvisible
    exact absurd hvisible (by decide)
  · rw [String.toList_ofList] at hc
    rw [List.eq_of_mem_replicate hc] at hvisible
    exact absurd hvisible (by decide)

theorem any_laidOut (depth : Nat) (children : List Child) :
    (Child.laidOut depth children).any (·.element?.isSome) = children.any (·.element?.isSome) ∧
      (Child.laidOut depth children).any (·.text?.any Text.isVisible) = false := by
  have hline : ∀ depth, (Child.text (newLine depth)).text?.any Text.isVisible = false :=
    not_isVisible_newLine
  induction children with
  | nil =>
    rw [Child.laidOut, List.any_cons, List.any_cons, hline]
    exact ⟨rfl, rfl⟩
  | cons child rest ih =>
    cases child with
    | text s => exact ih
    | element node =>
      rw [Child.laidOut, List.any_cons, List.any_cons, List.any_cons, List.any_cons, List.any_cons,
        hline, ih.2]
      exact ⟨rfl, rfl⟩

/-- What is laid out as a block is a block. -/
theorem Node.isBlock_laidOut (node : Node) (depth : Nat) :
    (node.laidOut depth).isBlock = node.isBlock := by
  cases h : node.isBlock with
  | false => rw [laidOut_of_not_isBlock h, h]
  | true =>
    obtain ⟨hraw, helements, -⟩ := isBlock_iff.1 h
    obtain ⟨hsome, hnone⟩ := any_laidOut depth node.children
    rw [laidOut_of_isBlock h, isBlock_iff]
    exact ⟨hraw, hsome.trans helements, hnone⟩

/-! ## Legal trees -/

theorem Node.isLegal_laidOut_of (hl : node.isLegal voids = true)
    (ih : ∀ depth, Child.areLegal voids (Child.laidOut depth node.children) = true) :
    (node.laidOut depth).isLegal voids = true := by
  cases h : node.isBlock with
  | false => rwa [laidOut_of_not_isBlock h]
  | true =>
    obtain ⟨hname, hkeys, hvoid, -, -⟩ := isLegal_iff.1 hl
    rw [laidOut_of_isBlock h, isLegal_iff]
    refine ⟨hname, hkeys, fun hv => ?_, fun hr => ?_, ih depth⟩
    · exact absurd (hvoid hv) (children_ne_nil_of_isBlock h)
    · exact absurd hr (by rw [(isBlock_iff.1 h).1]; exact Bool.false_ne_true)

theorem Child.areLegal_laidOut (hl : Child.areLegal voids children = true) (depth : Nat) :
    Child.areLegal voids (Child.laidOut depth children) = true := by
  induction children using Child.inductionOn generalizing depth with
  | nil => rfl
  | text s rest ih => exact ih hl depth
  | element node rest ih ih' =>
    rw [areLegal, Bool.and_eq_true] at hl
    rw [laidOut, areLegal, areLegal, Bool.and_eq_true]
    exact ⟨Node.isLegal_laidOut_of hl.1 (ih (Node.isLegal_iff.1 hl.1).2.2.2.2), ih' hl.2 depth⟩

theorem Node.isLegal_laidOut (hl : node.isLegal voids = true) (depth : Nat) :
    (node.laidOut depth).isLegal voids = true :=
  isLegal_laidOut_of hl (Child.areLegal_laidOut (isLegal_iff.1 hl).2.2.2.2)

/-! ## Layout is texts in blocks -/

theorem Child.withoutLayout_joinTexts :
    Child.withoutLayout false (Child.joinTexts children) = Child.withoutLayout false children := by
  induction children with
  | nil => rfl
  | cons child rest ih =>
    cases child with
    | element node => rw [joinTexts, withoutLayout, withoutLayout, ih]
    | text s =>
      rw [withoutLayout, ← ih, joinTexts]
      split
      next t more he =>
        rw [he]
        rfl
      next => rfl

theorem Child.withoutLayout_normalizeAll_text (s : String) (rest : List Child) :
    Child.withoutLayout false (Child.normalizeAll (.text s :: rest)) =
      Child.withoutLayout false (Child.normalizeAll rest) := by
  rw [normalizeAll]
  split <;> rfl

theorem Node.withoutLayout_laidOut_of (ih : ∀ depth,
      Child.withoutLayout false (Child.normalizeAll (Child.laidOut depth node.children)) =
        Child.withoutLayout false (Child.normalizeAll node.children)) :
    (node.laidOut depth).normalize.withoutLayout = node.normalize.withoutLayout := by
  cases h : node.isBlock with
  | false => rw [laidOut_of_not_isBlock h]
  | true =>
    have hblock := isBlock_laidOut node depth
    rw [withoutLayout_eq, withoutLayout_eq, isBlock_normalize, isBlock_normalize, hblock, h,
      laidOut_of_isBlock h, normalize_eq, normalize_eq]
    simp only [Bool.not_true, Child.withoutLayout_joinTexts, ih]

theorem Child.withoutLayout_laidOut (children : List Child) (depth : Nat) :
    Child.withoutLayout false (Child.normalizeAll (Child.laidOut depth children)) =
      Child.withoutLayout false (Child.normalizeAll children) := by
  induction children using Child.inductionOn generalizing depth with
  | nil => exact withoutLayout_normalizeAll_text ..
  | text s rest ih => rw [laidOut, ih, withoutLayout_normalizeAll_text]
  | element node rest ih ih' =>
    rw [laidOut, withoutLayout_normalizeAll_text, normalizeAll, normalizeAll, withoutLayout,
      withoutLayout, ih', Node.withoutLayout_laidOut_of ih]

/-- **The layout is texts between the children of blocks**, and nothing else. -/
theorem Node.withoutLayout_laidOut (node : Node) (depth : Nat) :
    (node.laidOut depth).normalize.withoutLayout = node.normalize.withoutLayout :=
  withoutLayout_laidOut_of (Child.withoutLayout_laidOut node.children)

/-! ## Writing with indentation -/

namespace Markup.Writer

variable {w : Writer}

theorem escapeText_newLine (depth : Nat) : escapeText (newLine depth) = newLine depth := by
  have hspaces : (List.replicate (2 * depth) ' ').flatMap textForm =
      List.replicate (2 * depth) ' ' := by
    induction 2 * depth with
    | zero => rfl
    | succ n ih => rw [List.replicate_succ, List.flatMap_cons, ih]; rfl
  have hescaped : escapeText (String.ofList (List.replicate (2 * depth) ' ')) =
      String.ofList (List.replicate (2 * depth) ' ') := by
    rw [escapeText, String.toList_ofList, hspaces]
  rw [newLine, escapeText_append, hescaped]
  rfl

theorem writeLines_joinTexts (depth : Nat) (children : List Child) :
    w.writeLines depth (Child.joinTexts children) = w.writeLines depth children := by
  induction children with
  | nil => rfl
  | cons child rest ih =>
    cases child with
    | element node => rw [Child.joinTexts, writeLines, writeLines, ih]
    | text s =>
      rw [writeLines, ← ih, Child.joinTexts]
      split
      next he => rw [he, writeLines, writeLines]
      next => rw [writeLines]

theorem writeLines_normalizeAll_text (depth : Nat) (s : String) (rest : List Child) :
    w.writeLines depth (Child.normalizeAll (.text s :: rest)) =
      w.writeLines depth (Child.normalizeAll rest) := by
  rw [Child.normalizeAll]
  split
  · rfl
  · rw [writeLines]

namespace KeepsRaw

variable (hw : w.KeepsRaw)
include hw

theorem blockDepth?_eq (indent : Option Nat) (node : Node) :
    w.blockDepth? indent node = if node.isBlock then indent else none := by
  rw [blockDepth?, hw.keepsBody_eq, Node.isBlock]

theorem writeElement_of_not_isBlock (h : node.isBlock = false) (depth : Nat) :
    w.writeElement (some depth) node = w.writeElement none node := by
  rw [writeElement_eq, writeElement_none, hw.blockDepth?_eq, h]
  rfl

/-- A block: the tags, and between them its element children on lines of their own. -/
theorem writeElement_of_isBlock (h : node.isBlock = true) (depth : Nat) :
    w.writeElement (some depth) node = writeStartTag node ++
      (w.writeLines (depth + 1) node.children ++ newLine depth ++ writeEndTag node.name) := by
  rw [writeElement_eq, List.isEmpty_eq_false_iff.2 (Node.children_ne_nil_of_isBlock h),
    Bool.and_false, if_neg Bool.false_ne_true, hw.blockDepth?_eq, h]
  rfl

theorem writeElement_laidOut_of
    (ih : ∀ depth, w.writeChildren false (Child.laidOut depth node.children) =
      w.writeLines (depth + 1) node.children ++ newLine depth) (depth : Nat) :
    w.writeElement none (node.laidOut depth) = w.writeElement (some depth) node := by
  cases h : node.isBlock with
  | false => rw [Node.laidOut_of_not_isBlock h, hw.writeElement_of_not_isBlock h]
  | true =>
    have hempty : (Child.laidOut depth node.children).isEmpty = false :=
      List.isEmpty_eq_false_iff.2 (Child.laidOut_ne_nil depth node.children)
    rw [hw.writeElement_of_isBlock h, Node.laidOut_of_isBlock h, writeElement_none, hempty,
      Bool.and_false, if_neg Bool.false_ne_true, hw.keepsBody_eq, (Node.isBlock_iff.1 h).1, ih]
    rfl

theorem writeChildren_laidOut (children : List Child) (depth : Nat) :
    w.writeChildren false (Child.laidOut depth children) =
      w.writeLines (depth + 1) children ++ newLine depth := by
  have hline : ∀ depth, writeText false (newLine depth) = newLine depth := escapeText_newLine
  induction children using Child.inductionOn generalizing depth with
  | nil =>
    rw [Child.laidOut, writeChildren, writeChildren, writeLines, hline, String.append_empty,
      String.empty_append]
  | text s rest ih => rw [Child.laidOut, writeLines, ih]
  | element node rest ih ih' =>
    rw [Child.laidOut, writeChildren, writeChildren, writeLines, hline, ih',
      hw.writeElement_laidOut_of ih, String.append_assoc, String.append_assoc]

/-- **To write a tree with indentation** is to write the tree that is laid out without any. -/
theorem writeElement_laidOut (depth : Nat) (node : Node) :
    w.writeElement none (node.laidOut depth) = w.writeElement (some depth) node :=
  hw.writeElement_laidOut_of (hw.writeChildren_laidOut node.children) depth

/-- **What is read from markup with indentation** is the tree that was written, with its layout. -/
theorem parse_writeElement_some (hl : node.isLegal w.markup.voids = true) (depth : Nat) :
    (parse w.markup.voids (w.writeElement (some depth) node)).value =
      .ok (node.laidOut depth).normalize := by
  rw [← hw.writeElement_laidOut]
  exact hw.parse_writeElement (Node.isLegal_laidOut hl depth)

theorem writeElement_normalize_laidOut_of (hl : node.isLegal w.markup.voids = true)
    (ih : ∀ depth,
      w.writeLines (depth + 1) (Child.normalizeAll (Child.laidOut depth node.children)) =
        w.writeLines (depth + 1) node.children) (depth : Nat) :
    w.writeElement (some depth) (node.laidOut depth).normalize =
      w.writeElement (some depth) node := by
  have hblock := node.isBlock_normalize
  cases h : node.isBlock with
  | false =>
    rw [h] at hblock
    rw [Node.laidOut_of_not_isBlock h, hw.writeElement_of_not_isBlock h,
      hw.writeElement_of_not_isBlock hblock, writeElement_normalize hl]
  | true =>
    have hlaid : (node.laidOut depth).normalize.isBlock = true := by
      rw [Node.isBlock_normalize, Node.isBlock_laidOut, h]
    rw [hw.writeElement_of_isBlock h, hw.writeElement_of_isBlock hlaid, Node.laidOut_of_isBlock h,
      Node.normalize_eq]
    simp only [writeLines_joinTexts, ih]
    rfl

theorem writeLines_laidOut (hl : Child.areLegal w.markup.voids children = true) (depth : Nat) :
    w.writeLines (depth + 1) (Child.normalizeAll (Child.laidOut depth children)) =
      w.writeLines (depth + 1) children := by
  induction children using Child.inductionOn generalizing depth with
  | nil =>
    rw [Child.laidOut, writeLines_normalizeAll_text]
    rfl
  | text s rest ih => rw [Child.laidOut, writeLines, ih hl]
  | element node rest ih ih' =>
    rw [Child.areLegal, Bool.and_eq_true] at hl
    have hnode := hw.writeElement_normalize_laidOut_of hl.1 fun depth =>
      ih (Node.isLegal_iff.1 hl.1).2.2.2.2 depth
    rw [Child.laidOut, writeLines_normalizeAll_text, Child.normalizeAll, writeLines, writeLines,
      ih' hl.2, hnode]

/-- **Markup with indentation stays as it is** when it is read and written in the same way. -/
theorem writeElement_normalize_laidOut (hl : node.isLegal w.markup.voids = true) (depth : Nat) :
    w.writeElement (some depth) (node.laidOut depth).normalize = w.writeElement (some depth) node :=
  hw.writeElement_normalize_laidOut_of hl
    (hw.writeLines_laidOut (Node.isLegal_iff.1 hl).2.2.2.2) depth

end KeepsRaw

end Markup.Writer

end ComponentMarkup
