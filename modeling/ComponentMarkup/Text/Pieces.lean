/-
  Searching and splitting text.

  * `cut?`: the text before and after the first occurrence of a pattern; `cut?_eq_some` says that
    nothing is lost and `length_cut?` that the rest is shorter by the pattern.
  * `piecesOf`: the pieces between the leftmost occurrences of a separator that do not overlap;
    `intercalate_piecesOf` puts them together again.
  * `runsWhere`: the maximal runs of characters of a class.
-/

namespace ComponentMarkup.Text

variable {pat cs before after : List Char}

/-! ## The first occurrence of a pattern -/

/-- The text before and after the first occurrence of `pat`, if there is one. -/
def cut? (pat : List Char) : List Char → Option (List Char × List Char)
  | [] => if pat = [] then some ([], []) else none
  | c :: cs =>
    match pat.isPrefixOf? (c :: cs) with
    | some after => some ([], after)
    | none => (cut? pat cs).map fun parts => (c :: parts.1, parts.2)

theorem isPrefixOf?_cons (p c : Char) (pat cs : List Char) :
    (p :: pat).isPrefixOf? (c :: cs) = if p == c then pat.isPrefixOf? cs else none := rfl

theorem isPrefixOf?_eq_some {pat cs after : List Char} :
    pat.isPrefixOf? cs = some after ↔ cs = pat ++ after := by
  induction pat generalizing cs with
  | nil =>
    have : ([] : List Char).isPrefixOf? cs = some cs := rfl
    rw [this, Option.some_inj, List.nil_append]
  | cons p pat ih =>
    cases cs with
    | nil =>
      have : (p :: pat).isPrefixOf? [] = none := rfl
      simp [this]
    | cons c cs =>
      by_cases h : p = c
      · subst h; simpa [isPrefixOf?_cons] using ih
      · simp [isPrefixOf?_cons, h, Ne.symm h]

theorem cut?_eq_some (h : cut? pat cs = some (before, after)) : cs = before ++ pat ++ after := by
  induction cs generalizing before with
  | nil =>
    simp only [cut?] at h
    split at h
    · cases h; simp [*]
    · cases h
  | cons c cs ih =>
    simp only [cut?] at h
    split at h
    next r hr => cases h; simpa using isPrefixOf?_eq_some.1 hr
    next =>
      obtain ⟨⟨b, a⟩, hb, he⟩ := Option.map_eq_some_iff.1 h
      cases he
      simp [ih hb]

theorem length_cut? (h : cut? pat cs = some (before, after)) :
    before.length + pat.length + after.length = cs.length := by
  rw [cut?_eq_some h]; simp [Nat.add_assoc]

/-- Whether `pat` occurs in `cs`. -/
def occursIn (pat cs : List Char) : Bool :=
  (cut? pat cs).isSome

theorem cut?_prefix (pat after : List Char) : cut? pat (pat ++ after) = some ([], after) := by
  have hp : pat.isPrefixOf? (pat ++ after) = some after := isPrefixOf?_eq_some.2 rfl
  cases hc : pat ++ after with
  | nil => simp [cut?, List.append_eq_nil_iff.1 hc]
  | cons c cs => rw [hc] at hp; simp [cut?, hp]

theorem isSome_cut? (pat before after : List Char) :
    (cut? pat (before ++ pat ++ after)).isSome = true := by
  induction before with
  | nil => rw [List.nil_append, cut?_prefix]; rfl
  | cons c cs ih =>
    rw [List.cons_append, List.cons_append, cut?]
    split
    · rfl
    · rw [Option.isSome_map]; exact ih

theorem occursIn_iff : occursIn pat cs = true ↔ pat <:+: cs := by
  constructor
  · intro h
    obtain ⟨⟨start, rest⟩, hc⟩ := Option.isSome_iff_exists.1 h
    exact ⟨start, rest, (cut?_eq_some hc).symm⟩
  · rintro ⟨start, rest, rfl⟩
    exact isSome_cut? pat start rest

/-! ## Splitting at a separator -/

/-- The pieces of `cs` between the leftmost occurrences of `sep` that do not overlap. An empty
separator splits nothing. -/
def piecesOf (sep cs : List Char) : List (List Char) :=
  match cut? sep cs with
  | none => [cs]
  | some (before, after) =>
    if after.length < cs.length then before :: piecesOf sep after else [cs]
termination_by cs.length

/-- The pieces of a text at a separator. -/
def splitAt (sep s : String) : List String :=
  (piecesOf sep.toList s.toList).map String.ofList

theorem piecesOf_ne_nil (sep cs : List Char) : piecesOf sep cs ≠ [] := by
  rw [piecesOf]
  split
  · simp
  · split <;> simp

/-- Joining the pieces by the separator gives the text back. -/
theorem intercalate_piecesOf {sep : List Char} :
    sep.intercalate (piecesOf sep cs) = cs := by
  fun_induction piecesOf sep cs with
  | case1 => simp
  | case2 cs before after h _ ih =>
    obtain ⟨p, ps, hp⟩ := List.exists_cons_of_ne_nil (piecesOf_ne_nil sep after)
    rw [hp] at ih ⊢
    rw [List.intercalate_cons_cons, ih, cut?_eq_some h]
  | case3 => simp

/-! ## Runs of a class -/

/-- The maximal runs of characters that satisfy `keep`, in order. -/
def runsWhere (keep : Char → Bool) (cs : List Char) : List (List Char) :=
  (cs.splitOnP fun c => !keep c).filter fun run => !run.isEmpty

end ComponentMarkup.Text
