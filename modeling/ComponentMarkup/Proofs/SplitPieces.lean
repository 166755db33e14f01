/-
  What a separator splits a text into.

  * `piecesOf_append_sep`: where the separator comes for the first time, there the first piece ends;
    `piecesOf_of_not_isInfix`: a text in which it does not occur is its only piece.
  * `ArePieces`: the separator does not occur in the last piece, and in a piece that it comes after
    it does not begin before the end. It may hold characters of the pieces and overlap with itself.
  * `piecesOf_eq_iff`: a text is split into the pieces that it is joined of, and no other ones.
  * `ArePieces.of_sublist`: pieces stay pieces when others are left out before the last one.
-/
import ComponentMarkup.Proofs.ReadingOn

namespace ComponentMarkup.Text

variable {sep cs before : List Char} {pieces others : List (List Char)}

/-! ## Splitting -/

theorem cut?_eq_none_iff : cut? sep cs = none ↔ ¬ sep <:+: cs := by
  rw [← occursIn_iff, occursIn, Bool.not_eq_true, Option.isSome_eq_false_iff,
    Option.isNone_iff_eq_none]

theorem piecesOf_of_not_isInfix (h : ¬ sep <:+: cs) : piecesOf sep cs = [cs] := by
  rw [piecesOf, cut?_eq_none_iff.2 h]

theorem piecesOf_append_sep (hsep : sep ≠ []) (h : ¬ sep <:+: before ++ sep.dropLast)
    (after : List Char) :
    piecesOf sep (before ++ sep ++ after) = before :: piecesOf sep after := by
  have hcut : cut? sep (before ++ sep ++ after) = some (before, after) :=
    (cut?_eq_some_iff hsep).2 ⟨rfl, h⟩
  have := List.length_pos_iff.2 hsep
  rw [piecesOf, hcut]
  exact if_pos (by simp; omega)

theorem map_toList_ofList (words : List (List Char)) :
    (words.map String.ofList).map String.toList = words := by
  rw [List.map_map]
  exact List.map_id'' (fun _ => String.toList_ofList) words

theorem map_toList_splitAt (separator s : String) :
    (splitAt separator s).map String.toList = piecesOf separator.toList s.toList :=
  map_toList_ofList _

theorem intercalate_splitAt (separator s : String) :
    separator.intercalate (splitAt separator s) = s := by
  rw [← String.toList_inj, String.toList_intercalate, map_toList_splitAt, intercalate_piecesOf]

/-! ## Pieces -/

/-- Pieces that a separator stands between, where it is found from left to right. -/
def ArePieces (sep : List Char) (pieces : List (List Char)) : Prop :=
  ∃ front last, pieces = front ++ [last] ∧
    (∀ piece ∈ front, ¬ sep <:+: piece ++ sep.dropLast) ∧ ¬ sep <:+: last

theorem ArePieces.single {piece : List Char} (hpiece : ¬ sep <:+: piece) :
    ArePieces sep [piece] :=
  ⟨[], piece, rfl, by simp, hpiece⟩

theorem ArePieces.cons {piece : List Char} (hpiece : ¬ sep <:+: piece ++ sep.dropLast)
    (h : ArePieces sep pieces) : ArePieces sep (piece :: pieces) := by
  obtain ⟨front, last, rfl, hfront, hlast⟩ := h
  exact ⟨piece :: front, last, rfl, List.forall_mem_cons.2 ⟨hpiece, hfront⟩, hlast⟩

/-- Pieces are left when some are left out, if the last one is kept. -/
theorem ArePieces.of_sublist (h : ArePieces sep pieces) (hsub : others.Sublist pieces)
    (hlast : others.getLast? = pieces.getLast?) : ArePieces sep others := by
  obtain ⟨front, last, rfl, hfront, hfree⟩ := h
  rw [List.getLast?_concat, List.getLast?_eq_some_iff] at hlast
  obtain ⟨kept, rfl⟩ := hlast
  have hkept : kept.Sublist front := (List.append_sublist_append_right [last]).1 hsub
  exact ⟨kept, last, rfl, fun piece hpiece => hfront piece (hkept.subset hpiece), hfree⟩

theorem arePieces_piecesOf (hsep : sep ≠ []) (cs : List Char) :
    ArePieces sep (piecesOf sep cs) := by
  fun_induction piecesOf sep cs with
  | case1 cs hcut => exact .single (cut?_eq_none_iff.1 hcut)
  | case2 cs before after hcut _ ih => exact ih.cons ((cut?_eq_some_iff hsep).1 hcut).2
  | case3 cs before after hcut hlength =>
    have := length_cut? hcut
    have := List.length_pos_iff.2 hsep
    omega

theorem ArePieces.piecesOf_intercalate (hsep : sep ≠ []) (h : ArePieces sep pieces) :
    piecesOf sep (sep.intercalate pieces) = pieces := by
  obtain ⟨front, last, rfl, hfront, hlast⟩ := h
  induction front with
  | nil => rw [List.nil_append, List.intercalate_singleton, piecesOf_of_not_isInfix hlast]
  | cons piece front ih =>
    obtain ⟨hpiece, hfront⟩ := List.forall_mem_cons.1 hfront
    rw [List.cons_append, List.intercalate_cons_of_ne_nil (by simp),
      piecesOf_append_sep hsep hpiece, ih hfront]

/-- **A text is split into the pieces that it is joined of.** -/
theorem piecesOf_eq_iff (hsep : sep ≠ []) :
    piecesOf sep cs = pieces ↔ sep.intercalate pieces = cs ∧ ArePieces sep pieces := by
  constructor
  · rintro rfl
    exact ⟨intercalate_piecesOf, arePieces_piecesOf hsep cs⟩
  · rintro ⟨rfl, h⟩
    exact h.piecesOf_intercalate hsep

theorem two_le_length_piecesOf (hsep : sep ≠ []) (h : sep <:+: cs) :
    2 ≤ (piecesOf sep cs).length := by
  obtain ⟨front, last, hpieces, -, hlast⟩ := arePieces_piecesOf hsep cs
  cases front with
  | nil =>
    have hjoin : sep.intercalate (piecesOf sep cs) = cs := intercalate_piecesOf
    rw [hpieces, List.nil_append, List.intercalate_singleton] at hjoin
    exact absurd (hjoin ▸ h) hlast
  | cons piece front =>
    rw [hpieces]
    simp

/-! ## Texts -/

theorem splitAt_intercalate_of_arePieces {separator : String} {parts : List String}
    (hsep : separator ≠ "") (h : ArePieces separator.toList (parts.map String.toList)) :
    splitAt separator (separator.intercalate parts) = parts := by
  have hne : separator.toList ≠ [] := by rwa [Ne, String.toList_eq_nil_iff]
  rw [splitAt, String.toList_intercalate, h.piecesOf_intercalate hne, List.map_map]
  exact List.map_id'' (fun _ => String.ofList_toList) parts

/-- The parts of a text are the parts of what is left when some are left out before the last one. -/
theorem splitAt_intercalate_of_sublist {separator s : String} {parts : List String}
    (hsep : separator ≠ "") (hsub : parts.Sublist (splitAt separator s))
    (hlast : parts.getLast? = (splitAt separator s).getLast?) :
    splitAt separator (separator.intercalate parts) = parts := by
  have hne : separator.toList ≠ [] := by rwa [Ne, String.toList_eq_nil_iff]
  refine splitAt_intercalate_of_arePieces hsep ?_
  refine (arePieces_piecesOf hne s.toList).of_sublist ?_ ?_
  · rw [← map_toList_splitAt]
    exact hsub.map String.toList
  · rw [← map_toList_splitAt, List.getLast?_map, List.getLast?_map, hlast]

end ComponentMarkup.Text
