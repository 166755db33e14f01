/-
  The grammar of templates, written with parser combinators.

  * `Combinators.segments`: placeholders and literal text, as long as there are any. A placeholder
    commits to its braces, and both its key and its closing braces carry a context.
  * `Combinators.Lawful.agrees_segments`: the grammar replies what `Template.scanSegments` gives, so
    it fails only where a placeholder is malformed.
-/
import ComponentMarkup.Proofs.Combinators
import ComponentMarkup.View.Template

namespace ComponentMarkup

/-! ## The grammar -/

namespace Template.Fault

open Markup (Context Cursor Failure)

/-- What a failure knows of a placeholder without a key. -/
def nameContext (start : Nat) : Context where
  code := .invalidPlaceholderName
  message := "invalid placeholder name"
  help := some "names use letters, digits, `_`, `-` and `.`"
  start := start

/-- What a failure knows of a placeholder without closing braces. -/
def closingContext (start : Nat) : Context where
  code := .unterminatedPlaceholder
  message := "unterminated placeholder"
  help := some "close the placeholder with the same number of braces"
  start := start

/-- What is told about a malformed placeholder. -/
def context : Fault → Context
  | .invalidName start _ => nameContext start
  | .unterminated start _ => closingContext start

/-- The offset where reading stopped. -/
def stop : Fault → Nat
  | .invalidName _ stop | .unterminated _ stop => stop

/-- The context is that of the placeholder, and the position is where reading stopped. -/
def Tells (fault : Fault) (context : Context) (stop : Cursor) : Prop :=
  context = fault.context ∧ stop.offset = fault.stop

/-- Of what tells of a malformed placeholder, the placeholder is what is reported. -/
theorem Tells.diagnostic {fault : Fault} {context : Context} {stop : Cursor}
    (h : fault.Tells context stop) (more : List Context) :
    (Failure.cut (context :: more)).diagnostic stop.offset = fault.diagnostic := by
  obtain ⟨rfl, hstop⟩ := h
  rw [hstop]
  cases fault <;> rfl

theorem message_ne (fault : Fault) : fault.diagnostic.message ≠ "unexpected character" := by
  cases fault with
  | invalidName => exact (by decide : "invalid placeholder name" ≠ "unexpected character")
  | unterminated => exact (by decide : "unterminated placeholder" ≠ "unexpected character")

end Template.Fault

namespace Markup.Combinators

open Template (scanPlaceholder scanSegment scanSegments)

variable (c : Combinators)

/-- A placeholder between braces. -/
def placeholder (opening closing : List Char) (make : String → Segment) : Parser Segment :=
  fun cur =>
    c.map (fun (_, key, _, _) => make (String.ofList key))
      (c.preceded (c.literal opening)
        (c.commit
          (c.pair c.spaces
            (c.pair
              (c.within (Template.Fault.nameContext cur.offset)
                (c.takeWhile 1 Template.isKeyChar))
              (c.pair c.spaces
                (c.within (Template.Fault.closingContext cur.offset) (c.literal closing)))))))
      cur

/-- Text up to the next two braces, or all that is left. -/
def literalText : Parser Segment :=
  c.map (fun s => .literal (String.ofList s))
    (c.alt [c.takeUntil 1 ['{', '{'], c.verify (fun s => !s.isEmpty) c.rest])

/-- A piece of a template. Three braces are tried before two. -/
def segment : Parser Segment :=
  c.alt [c.placeholder ['{', '{', '{'] ['}', '}', '}'] .raw,
    c.placeholder ['{', '{'] ['}', '}'] .escaped, c.literalText]

/-- The pieces of a template. -/
def segments : Parser (List Segment) := c.many c.segment

/-- The template of a source. -/
def template (source : String) : Except ParseError Template :=
  match c.segments (.ofString source) with
  | .done segments _ => .ok ⟨segments⟩
  | .failed failure stop => .error ⟨[failure.diagnostic stop.offset]⟩

/-! ## One segment -/

namespace Lawful

variable {c} (laws : c.Lawful) {cur inner : Cursor} {opening closing : List Char}
  {make : String → Segment}
include laws

theorem placeholder_none (h : cur.skip? opening = none) :
    (c.placeholder opening closing make cur).Backtracks := by
  rw [placeholder, laws.map, laws.preceded_none h]
  exact Reply.backtracks_failed ..

theorem agrees_placeholder (hopen : cur.skip? opening = some inner) :
    (c.placeholder opening closing make cur).Agrees Template.Fault.Tells
      ((scanPlaceholder closing make cur.offset inner).map some) := by
  simp only [placeholder, laws.map, laws.preceded_some hopen, laws.commit, laws.pair,
    laws.spaces_eq, laws.within, laws.takeWhile, Reply.run_one, Reply.bind_done, scanPlaceholder]
  rcases (inner.skipWhile isSpace).takeWhile Template.isKeyChar with ⟨_ | ⟨ch, key⟩, next⟩
  · exact .fault ⟨rfl, rfl⟩
  simp only [Reply.mapFailure_done, Reply.bind_done]
  cases hclose : (next.skipWhile isSpace).skip? closing with
  | none =>
    rw [laws.literal_none hclose]
    exact .fault ⟨rfl, rfl⟩
  | some after =>
    rw [laws.literal_some hclose]
    exact .done

theorem literalText_some (hne : cur.rest ≠ []) (hno : ∀ rest, cur.rest ≠ '{' :: '{' :: rest) :
    c.literalText cur = match Text.cut? ['{', '{'] cur.rest with
      | some (before, after) =>
        .done (.literal (String.ofList before)) (cur.past before (['{', '{'] ++ after))
      | none => .done (.literal (String.ofList cur.rest)) cur.finish := by
  have huntil := laws.takeUntil 1 ['{', '{'] cur
  rw [literalText, laws.map]
  rcases hcut : Text.cut? ['{', '{'] cur.rest with _ | ⟨before, after⟩
  · rw [hcut] at huntil
    have hall : c.verify (fun s => !s.isEmpty) c.rest cur = .done cur.rest cur.finish := by
      rw [laws.verify, laws.rest, Reply.bind_done, if_pos (by simpa using hne)]
    have hbefore : ∀ q ∈ [c.takeUntil 1 ['{', '{']], (q cur).Backtracks := by
      rw [List.forall_mem_singleton, huntil]
      exact Reply.backtracks_failed ..
    have hfirst : c.alt [c.takeUntil 1 ['{', '{'], c.verify (fun s => !s.isEmpty) c.rest] cur =
      .done cur.rest cur.finish := laws.alt_done [_] hbefore hall
    rw [hfirst]
    rfl
  · rw [hcut] at huntil
    have hsome : 1 ≤ before.length := by
      refine List.length_pos_iff.2 ?_
      rintro rfl
      exact hno after (by simpa using Text.cut?_eq_some hcut)
    simp only [if_pos hsome] at huntil
    have hfirst : c.alt [c.takeUntil 1 ['{', '{'], c.verify (fun s => !s.isEmpty) c.rest] cur =
      .done before (cur.past before (['{', '{'] ++ after)) :=
      laws.alt_done [] (List.forall_mem_nil _) huntil
    rw [hfirst]
    rfl

/-- **Wherever text is left, the grammar replies what scanning a segment gives.** -/
theorem agrees_segment (hne : cur.rest ≠ []) :
    (c.segment cur).Agrees Template.Fault.Tells ((scanSegment cur).map some) := by
  have found {result : Except Template.Fault (Segment × Cursor)} := Reply.map_some_ne result
  unfold scanSegment
  split
  next rest hr =>
    exact laws.agrees_alt [] (List.forall_mem_nil _)
      (laws.agrees_placeholder (Cursor.skip?_past hr)) found
  next rest hthree hr =>
    have hraw : (c.placeholder ['{', '{', '{'] ['}', '}', '}'] .raw cur).Backtracks :=
      laws.placeholder_none (Cursor.skip?_eq_none_of fun _ h => by
        cases hr.symm.trans h
        exact hthree _ rfl)
    exact laws.agrees_alt [_] (List.forall_mem_singleton.2 hraw)
      (laws.agrees_placeholder (Cursor.skip?_past hr)) found
  next hthree htwo =>
    have hraw : (c.placeholder ['{', '{', '{'] ['}', '}', '}'] .raw cur).Backtracks :=
      laws.placeholder_none (Cursor.skip?_eq_none_of hthree)
    have hescaped : (c.placeholder ['{', '{'] ['}', '}'] .escaped cur).Backtracks :=
      laws.placeholder_none (Cursor.skip?_eq_none_of htwo)
    refine laws.agrees_alt [_, _]
      (List.forall_mem_cons.2 ⟨hraw, List.forall_mem_singleton.2 hescaped⟩) ?_ found
    rw [laws.literalText_some hne htwo]
    rcases Text.cut? ['{', '{'] cur.rest with _ | ⟨before, after⟩
    · exact .done
    · exact .done

/-- At the end of the text there is no further segment. -/
theorem segment_none (hend : cur.rest = []) : (c.segment cur).Backtracks := by
  have without {pat : List Char} (hpat : pat ≠ []) : cur.skip? pat = none :=
    Cursor.skip?_eq_none_of fun rest h => by
      rw [hend] at h
      exact hpat (List.append_eq_nil_iff.1 h.symm).1
  have huntil : (c.takeUntil 1 ['{', '{'] cur).Backtracks := by
    rw [laws.takeUntil, hend]
    exact Reply.backtracks_failed ..
  have hrest : (c.verify (fun s => !s.isEmpty) c.rest cur).Backtracks := by
    rw [laws.verify, laws.rest, hend]
    exact Reply.backtracks_failed ..
  have hliteral : (c.literalText cur).Backtracks := by
    obtain ⟨contexts, stop, h⟩ := laws.alt_none _ cur
      (List.forall_mem_cons.2 ⟨huntil, List.forall_mem_singleton.2 hrest⟩)
    rw [literalText, laws.map, h]
    exact Reply.backtracks_failed ..
  refine laws.alt_none _ cur ?_
  simp only [List.forall_mem_cons]
  exact ⟨laws.placeholder_none (without (by simp)), laws.placeholder_none (without (by simp)),
    hliteral, List.forall_mem_nil _⟩

/-! ## All segments -/

/-- **The grammar replies what scanning all segments gives.** -/
theorem agrees_segments (cur : Cursor) : (c.segments cur).Agrees Template.Fault.Tells
    ((scanSegments cur).map fun segments => some (segments, cur.finish)) := by
  have further {cur next : Cursor} {segment : Segment} (hne : cur.rest ≠ [])
      (hs : scanSegment cur = .ok (segment, next)) :
      c.segments cur = (c.segments next).map (segment :: ·) ∧ next.finish = cur.finish := by
    have h := laws.agrees_segment hne
    rw [hs] at h
    obtain ⟨s, hne, hread⟩ := Template.reads_scanSegment hne hs
    exact ⟨laws.many_done _ _ _ _ (Reply.agrees_some_iff.1 h) (hread.length_lt hne),
      hread.finish_eq⟩
  fun_induction scanSegments cur with
  | case1 cur hend =>
    rw [segments, laws.many_backtrack _ _ (laws.segment_none hend)]
    have hfinish : cur.finish = cur := by
      have hread := cur.reads_finish
      rw [hend] at hread
      exact hread.eq_of_nil.symm
    rw [hfinish]
    exact .done
  | case2 cur hne fault hf =>
    have h := laws.agrees_segment hne
    rw [hf] at h
    obtain ⟨context, more, stop, h, htells⟩ := Reply.agrees_error_iff.1 h
    rw [segments, laws.many_cut _ _ _ _ h]
    exact .fault htells
  | case3 cur hne segment next hs fault hf ih =>
    rw [hf] at ih
    obtain ⟨context, more, stop, hrest, htells⟩ := Reply.agrees_error_iff.1 ih
    rw [(further hne hs).1, hrest]
    exact .fault htells
  | case4 cur hne segment next hs segments hr ih =>
    obtain ⟨hsegments, hfinish⟩ := further hne hs
    rw [hr] at ih
    rw [hsegments, Reply.agrees_some_iff.1 ih, hfinish]
    exact .done

theorem template_eq (source : String) : c.template source = Template.parse source := by
  have h := laws.agrees_segments (.ofString source)
  rw [template, Template.parse]
  generalize scanSegments (.ofString source) = scanned at h ⊢
  rcases scanned with fault | segments
  · obtain ⟨context, more, stop, h, htells⟩ := Reply.agrees_error_iff.1 h
    rw [h]
    simp only [htells.diagnostic]
  · rw [Reply.agrees_some_iff.1 h]

end Lawful

end Markup.Combinators

end ComponentMarkup
