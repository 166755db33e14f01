/-
  Escaping and decoding.

  * `Encodes`: written characters that decode to a text, whatever follows them. Escaped text and
    escaped attribute values do (`encodes_escapeText`, `encodes_escapeAttribute`), and so does one
    written form after another (`Encodes.append`).
  * `angle_not_mem_escapeText`, `quote_not_mem_escapeAttribute` and their like: the characters of
    which escaping leaves no trace.
  * `decodeReferences_escape_append`: escaped texts are read back, whatever follows them.
-/
import ComponentMarkup.Markup.Escape
import ComponentMarkup.Markup.Reference

namespace ComponentMarkup.Markup

theorem decodeReferences_nil : decodeReferences [] = [] := by
  rw [decodeReferences]

theorem decodeReferences_cons_of_ne {c : Char} {cs : List Char} (h : c ≠ '&') :
    decodeReferences (c :: cs) = c :: decodeReferences cs := by
  rw [decodeReferences, if_neg h]

theorem decodeReferences_reference {cs after : List Char} {d : Char}
    (h : takeReference? cs = some (d, after)) :
    decodeReferences ('&' :: cs) = d :: decodeReferences after := by
  rw [decodeReferences, if_pos rfl]
  split
  next h' => rw [h] at h'; cases h'; rfl
  next h' => rw [h] at h'; cases h'

theorem decodeReferences_textForm (c : Char) (rest : List Char) :
    decodeReferences (textForm c ++ rest) = c :: decodeReferences rest := by
  unfold textForm
  split
  · exact decodeReferences_reference rfl
  · exact decodeReferences_reference rfl
  · exact decodeReferences_reference rfl
  next h _ _ => exact decodeReferences_cons_of_ne h

theorem decodeReferences_attributeForm (c : Char) (rest : List Char) :
    decodeReferences (attributeForm c ++ rest) = c :: decodeReferences rest := by
  unfold attributeForm
  split
  · exact decodeReferences_reference rfl
  · exact decodeReferences_textForm c rest

theorem eq_nil_of_decodeReferences {cs : List Char} (h : decodeReferences cs = []) : cs = [] := by
  cases cs with
  | nil => rfl
  | cons c cs =>
    rw [decodeReferences] at h
    split at h
    · split at h <;> cases h
    · cases h

/-! ## Written forms of a text -/

/-- The characters `w` decode to `s`, whatever follows them. -/
def Encodes (w s : List Char) : Prop :=
  ∀ rest, decodeReferences (w ++ rest) = s ++ decodeReferences rest

theorem Encodes.decode {w s : List Char} (h : Encodes w s) : decodeReferences w = s := by
  simpa [decodeReferences_nil] using h []

theorem encodes_nil : Encodes [] [] := fun _ => rfl

theorem Encodes.append {w s w' s' : List Char} (h : Encodes w s) (h' : Encodes w' s') :
    Encodes (w ++ w') (s ++ s') := by
  intro rest
  rw [List.append_assoc, h, h', List.append_assoc]

theorem encodes_flatMap {form : Char → List Char} (h : ∀ c, Encodes (form c) [c]) (s : List Char) :
    Encodes (s.flatMap form) s := by
  induction s with
  | nil => exact encodes_nil
  | cons c cs ih => rw [List.flatMap_cons]; exact (h c).append ih

/-- Text without references is written as it is. -/
theorem encodes_of_not_mem {s : List Char} (h : '&' ∉ s) : Encodes s s := by
  intro rest
  induction s with
  | nil => rfl
  | cons c cs ih =>
    rw [List.mem_cons, not_or] at h
    rw [List.cons_append, decodeReferences_cons_of_ne (Ne.symm h.1), ih h.2, List.cons_append]

theorem encodes_escapeText (s : String) : Encodes (escapeText s).toList s.toList := by
  rw [escapeText, String.toList_ofList]
  exact encodes_flatMap decodeReferences_textForm _

theorem encodes_escapeAttribute (s : String) : Encodes (escapeAttribute s).toList s.toList := by
  rw [escapeAttribute, String.toList_ofList]
  exact encodes_flatMap decodeReferences_attributeForm _

/-! ## Characters of written forms -/

theorem angle_not_mem_textForm {d : Char} (hd : d = '<' ∨ d = '>') (c : Char) :
    d ∉ textForm c := by
  unfold textForm
  split
  · rcases hd with rfl | rfl <;> decide
  · rcases hd with rfl | rfl <;> decide
  · rcases hd with rfl | rfl <;> decide
  next hlt hgt =>
    rw [List.mem_singleton]
    rintro rfl
    rcases hd with rfl | rfl
    · exact hlt rfl
    · exact hgt rfl

theorem angle_not_mem_attributeForm {d : Char} (hd : d = '<' ∨ d = '>') (c : Char) :
    d ∉ attributeForm c := by
  unfold attributeForm
  split
  · rcases hd with rfl | rfl <;> decide
  · exact angle_not_mem_textForm hd c

theorem quote_not_mem_attributeForm (c : Char) : '"' ∉ attributeForm c := by
  unfold attributeForm
  split
  · decide
  next h =>
    unfold textForm
    split
    · decide
    · decide
    · decide
    · rw [List.mem_singleton]; exact fun he => h he.symm

theorem single_mem_attributeForm_iff (c : Char) : '\'' ∈ attributeForm c ↔ c = '\'' := by
  unfold attributeForm
  split
  · decide
  next =>
    unfold textForm
    split
    · decide
    · decide
    · decide
    · rw [List.mem_singleton, eq_comm]

theorem not_mem_flatMap {form : Char → List Char} {d : Char} (h : ∀ c, d ∉ form c)
    (s : List Char) : d ∉ s.flatMap form := by
  rw [List.mem_flatMap]
  rintro ⟨c, -, hc⟩
  exact h c hc

/-- Escaped text has no angle brackets. -/
theorem angle_not_mem_escapeText {d : Char} (hd : d = '<' ∨ d = '>') (s : String) :
    d ∉ (escapeText s).toList := by
  rw [escapeText, String.toList_ofList]
  exact not_mem_flatMap (angle_not_mem_textForm hd) _

/-- Escaped values have no angle brackets. -/
theorem angle_not_mem_escapeAttribute {d : Char} (hd : d = '<' ∨ d = '>') (s : String) :
    d ∉ (escapeAttribute s).toList := by
  rw [escapeAttribute, String.toList_ofList]
  exact not_mem_flatMap (angle_not_mem_attributeForm hd) _

/-- Escaped values have no double quotes. -/
theorem quote_not_mem_escapeAttribute (s : String) : '"' ∉ (escapeAttribute s).toList := by
  rw [escapeAttribute, String.toList_ofList]
  exact not_mem_flatMap quote_not_mem_attributeForm _

/-- Single quotes are not escaped. -/
theorem single_mem_escapeAttribute_iff (s : String) :
    '\'' ∈ (escapeAttribute s).toList ↔ '\'' ∈ s.toList := by
  rw [escapeAttribute, String.toList_ofList, List.mem_flatMap]
  simp only [single_mem_attributeForm_iff, exists_eq_right]

/-! ## Decoding what was escaped -/

/-- Written forms that decode to their texts are the same only for the same text. -/
theorem injective_of_encodes {escape : String → String}
    (h : ∀ s, Encodes (escape s).toList s.toList) : Function.Injective escape := by
  intro a b heq
  rw [← String.toList_inj, ← (h a).decode, heq, (h b).decode]

/-- **Decoding undoes escaping in front of anything.** No reference reaches from an escaped text into
what follows it, whatever that is. So a text is read back from its escaped form, which no other text
has. No angle bracket is left in it, and no double quote in an escaped value. -/
theorem decodeReferences_escape_append :
    (∀ a b : String,
      decodeReferences (escapeText a ++ b).toList = a.toList ++ decodeReferences b.toList ∧
      decodeReferences (escapeAttribute a ++ b).toList =
        a.toList ++ decodeReferences b.toList) ∧
    (∀ a : String, decodeReferences (escapeText a).toList = a.toList ∧
      decodeReferences (escapeAttribute a).toList = a.toList) ∧
    Function.Injective escapeText ∧ Function.Injective escapeAttribute ∧
    (∀ a : String, '<' ∉ (escapeText a).toList ∧ '>' ∉ (escapeText a).toList) ∧
    ∀ a : String, '<' ∉ (escapeAttribute a).toList ∧ '>' ∉ (escapeAttribute a).toList ∧
      '"' ∉ (escapeAttribute a).toList := by
  refine ⟨fun a b => ⟨?_, ?_⟩, fun a => ⟨(encodes_escapeText a).decode,
    (encodes_escapeAttribute a).decode⟩, injective_of_encodes encodes_escapeText,
    injective_of_encodes encodes_escapeAttribute, fun a => ⟨?_, ?_⟩, fun a => ⟨?_, ?_, ?_⟩⟩
  · rw [String.toList_append]
    exact encodes_escapeText a b.toList
  · rw [String.toList_append]
    exact encodes_escapeAttribute a b.toList
  · exact angle_not_mem_escapeText (.inl rfl) a
  · exact angle_not_mem_escapeText (.inr rfl) a
  · exact angle_not_mem_escapeAttribute (.inl rfl) a
  · exact angle_not_mem_escapeAttribute (.inr rfl) a
  · exact quote_not_mem_escapeAttribute a

/-- The ampersand of an escaped text does not become a reference with what follows it. -/
example : decodeReferences ((escapeText "AT&").toList ++ "lt;".toList) = "AT&lt;".toList := by
  decide +kernel

end ComponentMarkup.Markup
