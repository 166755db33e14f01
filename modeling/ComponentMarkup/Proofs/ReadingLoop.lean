/-
  Reading a source token by token never stands still.

  * `Lexer`: what has been read of a source, and where reading goes on. `Combinators.iterate` is one
    iteration: a token, a token with the raw body after it, or a failure and the recovery from it.
    Bodies and recoveries are slices of so many bytes, which there are between characters only.
  * `scanPieces`: what a scan reads first. `Combinators.Lawful.iterate_eq`: an iteration reads the
    same; `run_eq`: as many iterations as there are bytes read the whole source.
  * `Combinators.Progresses`: each iteration takes text, each failure knows a construct, and no
    character is unexpected. `progresses` says that this is so with all lawful combinators.
-/
import ComponentMarkup.Proofs.ReportedPlaces
import ComponentMarkup.Proofs.SegmentParser
import ComponentMarkup.Proofs.TokenParser

namespace ComponentMarkup.Markup

/-! ## The loop -/

/-- What has been read of a source, and where reading goes on. -/
structure Lexer where
  input : Cursor
  tokens : List PlacedToken
  diagnostics : List Diagnostic
deriving DecidableEq, Repr

namespace Lexer

/-- Before anything is read. -/
def start (source : String) : Lexer := ⟨.ofString source, [], []⟩

/-- The tokens, or all diagnostics if one of them is an error. -/
def result (lexer : Lexer) : Except ParseError (List PlacedToken) :=
  if lexer.diagnostics.any Diagnostic.isError then .error ⟨lexer.diagnostics⟩
  else .ok lexer.tokens

/-- The pieces that are read up to a position are added. -/
def add (lexer : Lexer) (pieces : List (Except Fault PlacedToken)) (next : Cursor) : Lexer :=
  ⟨next, lexer.tokens ++ tokensOf pieces,
    lexer.diagnostics ++ (faultsOf pieces).map Fault.diagnostic⟩

section
variable (lexer : Lexer) (next : Cursor)

@[simp] theorem input_add (pieces : List (Except Fault PlacedToken)) :
    (lexer.add pieces next).input = next := rfl

theorem add_nil : lexer.add [] lexer.input = lexer := by
  simp [add, tokensOf, faultsOf]

theorem add_token (placed : PlacedToken) : lexer.add [.ok placed] next =
    { lexer with input := next, tokens := lexer.tokens ++ [placed] } := by
  simp [add, tokensOf, faultsOf]

theorem add_fault (fault : Fault) : lexer.add [.error fault] next =
    { lexer with input := next, diagnostics := lexer.diagnostics ++ [fault.diagnostic] } := by
  simp [add, tokensOf, faultsOf]

theorem add_add (pieces more : List (Except Fault PlacedToken)) (last : Cursor) :
    (lexer.add pieces next).add more last = lexer.add (pieces ++ more) last := by
  simp [add, tokensOf, faultsOf]

end

end Lexer

/-- The number of bytes before the first occurrence of `pat`. -/
def offsetOf? (pat cs : List Char) : Option Nat :=
  (Text.cut? pat cs).map fun parts => utf8Length parts.1

/-- A diagnostic of a construct that has no end. -/
def Diagnostic.isUnterminated (d : Diagnostic) : Bool :=
  [some .unterminatedComment, some .unterminatedCData, some .unterminatedDeclaration].contains
    d.code

namespace Combinators

variable (c : Combinators)

/-- Reads the body of a raw element, up to its end tag in any case or to the end of the text. -/
def rawText (name : String) (lexer : Lexer) : Option Lexer :=
  let rest := lexer.input.rest
  let closing := ['<', '/'] ++ (Text.asciiLower name).toList
  let length := (offsetOf? closing (rest.map Char.toLower)).getD (utf8Length rest)
  if length = 0 then some lexer
  else
    (c.nextSlice length lexer.input).map fun (body, next) =>
      { lexer with
        input := next
        tokens := lexer.tokens ++ [⟨.rawText (String.ofList body),
          .between lexer.input.offset (lexer.input.offset + length)⟩] }

/-- Skips what is left, or else what comes up to the next `>`. -/
def recover (unterminated : Bool) (stop : Cursor) : Option Cursor :=
  let skip :=
    if unterminated then utf8Length stop.rest
    else ((offsetOf? ['>'] stop.rest).map (· + 1)).getD (utf8Length stop.rest)
  (c.nextSlice skip stop).map Prod.snd

/-- One iteration. There is no result where a slice ends inside a character. -/
def iterate (lexer : Lexer) : Option Lexer :=
  match c.placedToken lexer.input with
  | .done placed next =>
    let lexer := { lexer with input := next, tokens := lexer.tokens ++ [placed] }
    match placed.token with
    | .startTag name _ false => if isRawName name then c.rawText name lexer else some lexer
    | _ => some lexer
  | .failed failure stop =>
    let diagnostic := failure.diagnostic stop.offset
    (c.recover diagnostic.isUnterminated stop).map fun next =>
      { lexer with input := next, diagnostics := lexer.diagnostics ++ [diagnostic] }

/-- Iterations as long as text is left, of which there may be `n` at most. -/
def run : Nat → Lexer → Option Lexer
  | 0, lexer => if lexer.input.rest = [] then some lexer else none
  | n + 1, lexer => if lexer.input.rest = [] then some lexer else (c.iterate lexer).bind (run n)

/-- What is said of a reader that never stands still. -/
structure Progresses : Prop where
  /-- Where text is left, an iteration leads on by at least a byte, to a character boundary. -/
  advances : ∀ source (lexer : Lexer), (Cursor.ofString source).IsBefore lexer.input →
    lexer.input.rest ≠ [] → ∃ next, c.iterate lexer = some next ∧
      lexer.input.IsBefore next.input ∧ lexer.input.offset < next.input.offset ∧
      String.Pos.Raw.IsValid source ⟨next.input.offset⟩
  /-- Where text is left, a failure to read a token knows a construct. -/
  tells : ∀ cur failure stop, cur.rest ≠ [] → c.placedToken cur = .failed failure stop →
    failure.contexts ≠ []
  /-- All of a source is read in at most one iteration for each byte, with the tokens and the faults
  that scanning it gives. None of them is an unexpected character. -/
  ends : ∀ source, ∃ final, c.run source.utf8ByteSize (.start source) = some final ∧
    final.input.rest = [] ∧ final.result = tokenize source ∧
      ∀ d ∈ final.diagnostics, d.message ≠ "unexpected character"
  /-- Reading a template gives its segments, or a failure that knows a placeholder. -/
  templates : ∀ source, c.template source = Template.parse source ∧
    ∀ failure stop, c.segments (.ofString source) = .failed failure stop →
      failure.contexts ≠ [] ∧
        (failure.diagnostic stop.offset).message ≠ "unexpected character"

end Combinators

/-! ## Raw bodies and recovery -/

theorem utf8Size_toLower (ch : Char) : ch.toLower.utf8Size = ch.utf8Size := by
  rcases Text.toLower_eq_self_or ch with h | ⟨n, hn, rfl⟩
  · rw [h]
  · revert n
    decide

/-- Lowering a text moves no character, so a place in the lowered text is one in the text. -/
theorem offsetOf?_map_toLower {closing : List Char} (hne : closing ≠ []) (cs : List Char) :
    (offsetOf? closing (cs.map Char.toLower)).getD (utf8Length cs) =
      utf8Length (splitBefore closing cs).1 := by
  induction cs with
  | nil => simp [offsetOf?, Text.cut?, hne, splitBefore]
  | cons ch cs ih =>
    have hbegins : (((ch :: cs).take closing.length).map Char.toLower == closing) = true ↔
        ∃ after, closing.isPrefixOf? ((ch :: cs).map Char.toLower) = some after := by
      simp only [beq_iff_eq, List.map_take, Text.isPrefixOf?_eq_some]
      rw [eq_comm, ← List.prefix_iff_eq_take]
      exact exists_congr fun _ => eq_comm
    rw [offsetOf?, splitBefore, List.map_cons, Text.cut?, ← List.map_cons]
    cases hp : closing.isPrefixOf? ((ch :: cs).map Char.toLower) with
    | some after =>
      rw [if_pos (hbegins.2 ⟨after, hp⟩)]
      rfl
    | none =>
      have hno : ¬ (((ch :: cs).take closing.length).map Char.toLower == closing) = true := by
        rw [hbegins, hp]
        simp
      rw [offsetOf?] at ih
      simp only [if_neg hno, utf8Length, ← ih]
      cases Text.cut? closing (cs.map Char.toLower) with
      | none => rfl
      | some parts => simp [utf8Length, utf8Size_toLower]

section
variable {c : Combinators} (laws : c.Lawful) {cur next : Cursor} {fault : Fault}

theorem isUnterminated_diagnostic (fault : Fault) :
    fault.diagnostic.isUnterminated = fault.construct.swallowsRest := by
  obtain ⟨construct, start, stop⟩ := fault
  cases construct <;> rfl

include laws

namespace Combinators.Lawful

/-- The recovery from a fault goes on where the fault resumes. -/
theorem recover_eq (fault : Fault) :
    c.recover fault.construct.swallowsRest fault.stop = some fault.resume := by
  have hall := laws.nextSlice _ _ _ fault.stop.reads_finish
  rw [recover, Fault.resume]
  cases fault.construct.swallowsRest with
  | true =>
    simp only [if_true, hall]
    rfl
  | false =>
    simp only [Bool.false_eq_true, if_false, offsetOf?, Cursor.takeUntil?]
    rcases hcut : Text.cut? ['>'] fault.stop.rest with _ | ⟨before, after⟩
    · simp only [Option.map_none, Option.getD_none, hall]
      rfl
    · have hread := Cursor.reads_past (Text.cut?_eq_some hcut)
      have hslice := laws.nextSlice _ _ _ hread
      rw [utf8Length_append] at hslice
      simp only [Option.map_some, Option.getD_some]
      exact congrArg (Option.map Prod.snd) hslice

/-- A raw body is read up to its end tag. -/
theorem rawText_eq {name : String} (attributes : List TagAttribute) (hraw : isRawName name = true)
    (lexer : Lexer) : c.rawText name lexer = some
      (match scanBody? (.startTag name attributes false) lexer.input with
      | none => lexer
      | some (body, after) =>
        lexer.add [.ok ⟨.rawText (String.ofList body), lexer.input.spanTo after⟩] after) := by
  have hne : ['<', '/'] ++ (Text.asciiLower name).toList ≠ [] := by simp
  have hlength := offsetOf?_map_toLower hne lexer.input.rest
  have happend := splitBefore_append (['<', '/'] ++ (Text.asciiLower name).toList) lexer.input.rest
  rw [rawText, scanBody?]
  simp only [hraw, if_true, hlength]
  generalize splitBefore (['<', '/'] ++ (Text.asciiLower name).toList) lexer.input.rest = parts
    at happend ⊢
  rcases parts with ⟨_ | ⟨ch, body⟩, rest⟩
  · rfl
  · have hread : lexer.input.Reads (ch :: body) (lexer.input.past (ch :: body) rest) :=
      Cursor.reads_past happend.symm
    have hpos : utf8Length (ch :: body) ≠ 0 :=
      Nat.ne_of_gt (utf8Length_pos (List.cons_ne_nil ch body))
    simp only [if_neg hpos, laws.nextSlice _ _ _ hread, Option.map_some]
    rw [Lexer.add_token]
    rfl

end Combinators.Lawful

end

/-! ## One iteration -/

/-- What a scan reads first, and the position after it. -/
def scanPieces (cur : Cursor) : List (Except Fault PlacedToken) × Cursor :=
  match scanToken cur with
  | .error fault => ([.error fault], fault.resume)
  | .ok (token, next) =>
    match scanBody? token next with
    | none => ([.ok ⟨token, cur.spanTo next⟩], next)
    | some (body, after) =>
      ([.ok ⟨token, cur.spanTo next⟩, .ok ⟨.rawText (String.ofList body), next.spanTo after⟩],
        after)

section
variable {cur : Cursor}

theorem scan_eq (hne : cur.rest ≠ []) :
    scan cur = (scanPieces cur).1 ++ scan (scanPieces cur).2 := by
  unfold scanPieces
  cases ht : scanToken cur with
  | error fault => exact scan_fault hne ht
  | ok result =>
    obtain ⟨token, next⟩ := result
    cases hb : scanBody? token next with
    | none => simp only [hb]; exact scan_token hne ht hb
    | some body => simp only [hb]; exact scan_token_body hne ht hb

/-- What is read first takes text. -/
theorem reads_scanPieces (hne : cur.rest ≠ []) :
    ∃ s, s ≠ [] ∧ cur.Reads s (scanPieces cur).2 := by
  unfold scanPieces
  cases ht : scanToken cur with
  | error fault => exact reads_fault ht
  | ok result =>
    obtain ⟨token, next⟩ := result
    obtain ⟨s, hs, hread⟩ := reads_scanToken hne ht
    cases hb : scanBody? token next with
    | none => simp only [hb]; exact ⟨s, hs, hread⟩
    | some result =>
      simp only [hb]
      exact ⟨s ++ result.1, by simp [hs], hread.trans (reads_scanBody? hb)⟩

end

namespace Combinators.Lawful

variable {c : Combinators} (laws : c.Lawful) {cur : Cursor}
include laws

/-- **An iteration reads what a scan reads first.** -/
theorem iterate_eq {lexer : Lexer} (hne : lexer.input.rest ≠ []) : c.iterate lexer =
    some (lexer.add (scanPieces lexer.input).1 (scanPieces lexer.input).2) := by
  unfold iterate scanPieces
  cases ht : scanToken lexer.input with
  | error fault =>
    obtain ⟨context, more, stop, hreply, htells⟩ := laws.placedToken_error hne ht
    simp only [hreply, htells.diagnostic, isUnterminated_diagnostic]
    rw [htells.2, laws.recover_eq, Lexer.add_fault]
    rfl
  | ok result =>
    obtain ⟨token, next⟩ := result
    simp only [laws.placedToken_ok hne ht, ← Lexer.add_token]
    split
    next name attributes =>
      by_cases hraw : isRawName name = true
      · rw [if_pos hraw, laws.rawText_eq attributes hraw]
        cases hb : scanBody? (.startTag name attributes false) next with
        | none => simp only [Lexer.input_add, hb]
        | some body => simp only [Lexer.input_add, Lexer.add_add, hb, List.singleton_append]
      · have hb : scanBody? (.startTag name attributes false) next = none := by
          rw [scanBody?, if_neg hraw]
        rw [if_neg hraw, hb]
    next hother =>
      have hb : scanBody? token next = none := by
        unfold scanBody?
        split
        next name attributes => exact absurd rfl (hother name attributes)
        next => rfl
      rw [hb]

/-- **As many iterations as there are bytes read all of a source**, and what they read is what a
scan gives. -/
theorem run_eq {n : Nat} {lexer : Lexer} (hn : utf8Length lexer.input.rest ≤ n) :
    c.run n lexer = some (lexer.add (scan lexer.input) lexer.input.finish) := by
  have ended {lexer : Lexer} (hend : lexer.input.rest = []) :
      lexer = lexer.add (scan lexer.input) lexer.input.finish := by
    have hread := lexer.input.reads_finish
    rw [hend] at hread
    rw [scan_of_end hend, ← hread.eq_of_nil, Lexer.add_nil]
  induction n generalizing lexer with
  | zero =>
    have hend : lexer.input.rest = [] := Decidable.byContradiction fun hne => by
      have := utf8Length_pos hne
      omega
    rw [run, if_pos hend, ← ended hend]
  | succ n ih =>
    rw [run]
    split
    next hend => rw [← ended hend]
    next hne =>
      obtain ⟨s, hs, hread⟩ := reads_scanPieces hne
      have hlength := utf8Length_pos hs
      have hrest : utf8Length (scanPieces lexer.input).2.rest ≤ n := by
        rw [hread.1, utf8Length_append] at hn
        omega
      rw [laws.iterate_eq hne, Option.bind_some, ih hrest, Lexer.add_add, Lexer.input_add,
        ← scan_eq hne, hread.finish_eq]

end Combinators.Lawful

/-! ## Results -/

theorem Lexer.result_start_add (source : String) (next : Cursor) :
    ((start source).add (scan (.ofString source)) next).result = tokenize source := by
  simp only [result, add, start, List.nil_append, List.any_map, tokenize]
  cases faultsOf (scan (.ofString source)) with
  | nil => rfl
  | cons fault faults => rfl

theorem Fault.message_ne (fault : Fault) : fault.diagnostic.message ≠ "unexpected character" := by
  have hmessage (construct : Construct) : construct.message ≠ "unexpected character" := by
    cases construct <;> decide
  exact hmessage fault.construct

namespace Combinators

/-- **Reading never stands still and always knows what it could not read.** Whatever comes next, one
of the alternatives of the grammar has a token or commits to a construct, and both take text; so the
loop ends, each failure carries a context, and no character is reported as unexpected. -/
theorem progresses {c : Combinators} (laws : c.Lawful) : c.Progresses where
  advances source lexer hbefore hne := by
    obtain ⟨s, hs, hread⟩ := reads_scanPieces hne
    have hlength := utf8Length_pos hs
    have hoffset := hread.2
    refine ⟨_, laws.iterate_eq hne, hread.isBefore, ?_, ?_⟩
    · rw [Lexer.input_add]
      omega
    · exact (hbefore.trans hread.isBefore).isValid_offset
  tells cur failure stop hne h := by
    cases ht : scanToken cur with
    | error fault =>
      obtain ⟨context, more, stop', hreply, -⟩ := laws.placedToken_error hne ht
      rw [hreply] at h
      cases h
      exact List.cons_ne_nil context more
    | ok result =>
      rw [laws.placedToken_ok hne ht] at h
      cases h
  ends source := by
    have hn : utf8Length (Lexer.start source).input.rest ≤ source.utf8ByteSize :=
      Nat.le_of_eq (utf8Length_toList source)
    refine ⟨_, laws.run_eq hn, rfl, Lexer.result_start_add source _, fun d hd => ?_⟩
    obtain ⟨fault, -, rfl⟩ := List.mem_map.1 hd
    exact fault.message_ne
  templates source := by
    refine ⟨laws.template_eq source, fun failure stop h => ?_⟩
    have hagrees := laws.agrees_segments (.ofString source)
    rw [h] at hagrees
    cases hs : Template.scanSegments (.ofString source) with
    | ok segments =>
      rw [hs] at hagrees
      cases Reply.agrees_some_iff.1 hagrees
    | error fault =>
      rw [hs] at hagrees
      obtain ⟨context, more, stop', hreply, htells⟩ := Reply.agrees_error_iff.1 hagrees
      cases hreply
      refine ⟨List.cons_ne_nil context more, ?_⟩
      rw [htells.diagnostic]
      exact fault.message_ne

/-- A raw body that ends at a tag in other letters, an end tag without a name, an attribute that is
none and a value without its end. Where each `<` opens nothing, each byte takes an iteration. -/
theorem progresses_standard :
    let source := "é< &amp;<script>é</x</SCRIPT></ 3><b \"c\"><p a='x"
    standard.Lawful ∧ standard.Progresses ∧
      (standard.run source.utf8ByteSize (.start source)).map (fun lexer =>
        (lexer.tokens.map (·.token), lexer.diagnostics.map (·.code))) =
          some ([.text "é", .text "<", .text " &", .startTag "script" [] false, .rawText "é</x",
              .endTag "SCRIPT"],
            [some .malformedTag, some .malformedTag, some .unterminatedValue]) ∧
      (standard.run 3 (.start "<<<")).isSome = true ∧ standard.run 2 (.start "<<<") = none :=
  ⟨lawful_standard, progresses lawful_standard, by decide +kernel, by decide +kernel,
    by decide +kernel⟩

end Combinators

end ComponentMarkup.Markup
