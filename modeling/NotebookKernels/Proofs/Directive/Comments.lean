import NotebookKernels.Proofs.Directive.Locality

/- Directives that are answered with a comment.

   Two line directives are recognised but not carried out: each leaves a comment that repeats it,
   with its arguments as they stand. Python ends a comment at a line feed, which a line's arguments
   do not hold, and at a carriage return, which they may. `afterComment_comment` says what Python
   goes on with, and `placeholder_comments` where in the expanded submission. -/
namespace NotebookKernels
open Directive

namespace Python

variable {t a : Text}

/-- Does a line end at this character? A carriage return needs no line feed after it. -/
def endsLine (c : Char) : Bool := c = '\n' || c = '\r'

/-- What Python goes on with after the text of a comment. -/
def afterComment (t : Text) : Text := t.dropWhile fun c => !endsLine c

theorem afterComment_append (h : a.any endsLine = false) (t : Text) :
    afterComment (a ++ t) = afterComment t := by
  apply List.dropWhile_append_of_pos
  intro c hc
  simpa using List.any_eq_false.mp h c hc

theorem afterComment_eq_nil (h : t.any endsLine = false) : afterComment t = [] := by
  have hcut := afterComment_append h []
  rwa [List.append_nil] at hcut

/-- In a text without line feeds, a comment ends at the first carriage return. -/
theorem afterComment_of_return (hline : '\n' ∉ t) (h : '\r' ∈ t) (a : Text) :
    afterComment (t ++ a) = t.dropWhile (· ≠ '\r') ++ a := by
  induction t with
  | nil => cases h
  | cons c t ih =>
    by_cases hc : c = '\r'
    · subst hc
      rfl
    · have hfeed : c ≠ '\n' := fun heq => hline (heq ▸ List.mem_cons_self ..)
      have hends : endsLine c = false := by simp [endsLine, hc, hfeed]
      have hrest : '\r' ∈ t := (List.mem_cons.mp h).resolve_left (Ne.symm hc)
      have hkept : '\n' ∉ t := fun hmem => hline (List.mem_cons_of_mem _ hmem)
      have hgo : afterComment ([c] ++ (t ++ a)) = afterComment (t ++ a) :=
        afterComment_append (by simp [hends]) _
      rw [List.cons_append, List.dropWhile_cons_of_pos (by simpa using hc)]
      exact hgo.trans (ih hkept hrest)

end Python

namespace LineDirective
open Python

variable {d : LineDirective} {args : Text}

/-- How a comment on a directive that is not carried out ends. -/
def declined : Text := " - not implemented in this kernel".toList

/-- A directive as it is repeated in a comment, after the number sign. -/
def comment (d : LineDirective) (args : Text) : Text :=
  ' ' :: '%' :: d.name.toList ++ (if args.isEmpty then [] else ' ' :: args) ++ declined

theorem text_placeholder (d : LineDirective) (args : Text) :
    (placeholder d args).text = '#' :: comment d args := by
  have htext : (placeholder d args).text = "# ".toList ++
      (if args.isEmpty then '%' :: d.name.toList else '%' :: d.name.toList ++ ' ' :: args) ++
      declined := List.append_nil _
  rw [htext, comment]
  split
  · rw [List.append_nil]
    rfl
  · rfl

theorem any_endsLine_name (d : LineDirective) : d.name.toList.any endsLine = false := by
  cases d <;> decide

/-- A character that ends a line is in the comment only if it is in the arguments. -/
theorem mem_comment_iff {c : Char} (hc : endsLine c = true) : c ∈ comment d args ↔ c ∈ args := by
  have hname : c ∉ d.name.toList := fun h => List.any_eq_false.mp (any_endsLine_name d) c h hc
  have hplain : declined.any endsLine = false := by decide
  have hdeclined : c ∉ declined := fun h => List.any_eq_false.mp hplain c h hc
  have hsigns : c ≠ ' ' ∧ c ≠ '%' := by
    constructor <;> rintro rfl <;> exact absurd hc (by decide)
  cases args <;> simp [comment, hname, hdeclined, hsigns]

/-- The comment is all comment, or Python goes on at the first carriage return of the arguments. -/
theorem afterComment_comment (d : LineDirective) (h : '\n' ∉ args) :
    afterComment (comment d args) =
      if '\r' ∈ args then args.dropWhile (· ≠ '\r') ++ declined else [] := by
  split
  · next hreturn =>
    have hargs : args.isEmpty = false := by
      cases args with
      | nil => cases hreturn
      | cons => rfl
    have hfront : (' ' :: '%' :: d.name.toList ++ [' ']).any endsLine = false := by
      rw [List.any_append, List.any_cons, List.any_cons, any_endsLine_name]
      rfl
    have hcomment : comment d args =
        (' ' :: '%' :: d.name.toList ++ [' ']) ++ (args ++ declined) := by
      simp [comment, hargs]
    rw [hcomment, afterComment_append hfront, afterComment_of_return h hreturn]
  · next hreturn =>
    apply afterComment_eq_nil
    rw [List.any_eq_false]
    intro c hc hends
    have hmem : c ∈ args := (mem_comment_iff hends).mp hc
    have hcases : c = '\n' ∨ c = '\r' := by simpa [endsLine] using hends
    rcases hcases with rfl | rfl
    · exact h hmem
    · exact hreturn hmem

end LineDirective

namespace Submission
open Python LineDirective

variable {t l : Text} {before after : List Text} {d : LineDirective} {args : Text}

theorem code_of_lines (h : blockDirective? t = none) (ht : Text.lines t = before ++ l :: after) :
    (process t).code = Text.unlines ((before.map expandLine).flatMap (·.1) ++ (expandLine l).1 ++
      (after.map expandLine).flatMap (·.1)) :=
  congrArg code (process_of_lines h ht)

theorem expandLine_of_placeholder (hline : '\n' ∉ l) (hl : lineDirective? l = some (d, args))
    (hd : d.expand args = placeholder d args) :
    (expandLine l).1 = [Text.indentation l ++ '#' :: comment d args] := by
  have hargs : '\n' ∉ args := fun h => hline (mem_of_mem_args hl h)
  have hone : '\n' ∉ '#' :: comment d args := by
    rw [List.mem_cons, not_or, mem_comment_iff (by decide)]
    exact ⟨by decide, hargs⟩
  have htext := text_placeholder d args
  simp only [expandLine, hl, hd, htext, List.isEmpty_cons, Bool.false_eq_true, if_false]
  rw [indentBy_of_not_mem hone (List.cons_ne_nil _ _)]

/-- A submission that opens with no block directive has, in place of a line with a directive that is
not carried out, one line: the same indentation and a comment. There is no line feed in it, and a
carriage return only from the indentation or the arguments. The comment is all that Python sees of
the directive, unless its arguments hold a carriage return: from the first one on they are code. -/
theorem placeholder_comments (h : blockDirective? t = none)
    (ht : Text.lines t = before ++ l :: after) (hl : lineDirective? l = some (d, args))
    (hd : d = .store ∨ d = .recallInput) :
    (process t).code = Text.unlines ((before.map expandLine).flatMap (·.1) ++
      [Text.indentation l ++ '#' :: comment d args] ++ (after.map expandLine).flatMap (·.1)) ∧
    '\n' ∉ Text.indentation l ++ '#' :: comment d args ∧
    ('\r' ∈ Text.indentation l ++ '#' :: comment d args ↔
      '\r' ∈ Text.indentation l ∨ '\r' ∈ args) ∧
    afterComment (comment d args) =
      if '\r' ∈ args then args.dropWhile (· ≠ '\r') ++ declined else [] := by
  have hmem : l ∈ Text.lines t := ht ▸ List.mem_append_right _ (List.mem_cons_self ..)
  have hline : '\n' ∉ l := Text.not_mem_of_mem_pieces hmem
  have hargs : '\n' ∉ args := fun hfeed => hline (mem_of_mem_args hl hfeed)
  have hexpand : d.expand args = placeholder d args := by
    rcases hd with rfl | rfl <;> rfl
  refine ⟨?_, ?_, ?_, afterComment_comment d hargs⟩
  · rw [code_of_lines h ht, expandLine_of_placeholder hline hl hexpand]
  · rw [List.mem_append, List.mem_cons, mem_comment_iff (by decide)]
    rintro (hfeed | hfeed | hfeed)
    · exact hline ((List.takeWhile_sublist _).mem hfeed)
    · exact absurd hfeed (by decide)
    · exact hargs hfeed
  · rw [List.mem_append, List.mem_cons, mem_comment_iff (by decide)]
    simp

/-- A comment in a block, where Python goes on with what the user wrote after a carriage return. -/
theorem placeholder_comments_indented :
    (process "if x:\n\t%store x\rprint(1)\ny".toList).code =
      "if x:\n\t# %store x\rprint(1) - not implemented in this kernel\ny".toList ∧
    afterComment (comment .store "x\rprint(1)".toList) =
      "\rprint(1) - not implemented in this kernel".toList := by
  have ht : Text.lines "if x:\n\t%store x\rprint(1)\ny".toList =
      ["if x:".toList] ++ "\t%store x\rprint(1)".toList :: [['y']] := by
    decide
  have hl : lineDirective? "\t%store x\rprint(1)".toList =
      some (.store, "x\rprint(1)".toList) := by
    decide
  obtain ⟨code, -, -, rest⟩ := placeholder_comments (by decide) ht hl (.inl rfl)
  exact ⟨code.trans (by decide), rest.trans (by decide)⟩

/-- So what is emitted for such a line is not always one comment. -/
theorem exists_comment_with_return :
    ¬∀ (t l : Text) (before after : List Text) (d : LineDirective) (args : Text),
      blockDirective? t = none → Text.lines t = before ++ l :: after →
      lineDirective? l = some (d, args) → d = .store ∨ d = .recallInput →
      ∃ comment, (expandLine l).1 = [Text.indentation l ++ '#' :: comment] ∧
        ∀ c ∈ comment, endsLine c = false := by
  intro claim
  obtain ⟨comment, hcomment, hplain⟩ := claim "%store x\rprint(1) #".toList
    "%store x\rprint(1) #".toList [] [] .store "x\rprint(1) #".toList (by decide) (by decide)
    (by decide) (.inl rfl)
  have hcode : (expandLine "%store x\rprint(1) #".toList).1 =
      ['#' :: " %store x\rprint(1) # - not implemented in this kernel".toList] := by
    decide
  have htext : '#' :: " %store x\rprint(1) # - not implemented in this kernel".toList =
      '#' :: comment := (List.cons.inj (hcode.symm.trans hcomment)).1
  have hreturn : '\r' ∈ comment := (List.cons.inj htext).2 ▸ by decide
  exact absurd (hplain _ hreturn) (by decide)

end Submission

end NotebookKernels
