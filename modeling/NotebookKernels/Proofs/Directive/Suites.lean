import NotebookKernels.Proofs.Directive.Comments

/- Bodies that become suites.

   Two block directives put their body under a header of their own, indented as a suite. Every line of
   the suite has the margin, and without it the lines are those of the body (`lines_suite`). Only a blank
   body is replaced by `pass`, so a body of comments becomes a suite in which nothing stands to be run,
   and that is no Python: `isUsable_iff` says for which bodies the suite is one, and `suites_of_blocks`
   puts it where the two directives emit it. -/
namespace NotebookKernels
open Python Directive

namespace Python

variable {body l t : Text}

/-! ## Suites -/

/-- What moves the lines of a suite to the right. -/
def margin : Text := "    ".toList

/-- Is nothing on the line to be run, because it is blank or only a comment? -/
def isIdle (l : Text) : Bool := l.trimStart.head?.all (· = '#')

/-- These lines can be a suite for the body: one has something to be run, all have the margin, and
without it they are the body, if that is not blank. -/
structure IsUsable (body : Text) (ls : List Text) : Prop where
  runs : ∃ l ∈ ls, isIdle l = false
  indented : ∀ l ∈ ls, margin <+: l
  kept : body.allBlank = false → Text.unlines (ls.map (·.drop margin.length)) = body

/-- The lines stand under the header as its suite: the lines after them are not indented. -/
def SuiteUnder (header : Text) (ls : List Text) (source : Text) : Prop :=
  ∃ front back, Text.lines source = front ++ header :: (ls ++ back) ∧
    ∀ l ∈ back, Text.indentation l = []

/-- The lines of a suite are those of the body, behind the margin. -/
theorem lines_suite (body : Text) :
    Text.lines (suite body) =
      (if body.allBlank = true then ["pass".toList] else Text.lines body).map (margin ++ ·) := by
  rw [suite]
  split
  · exact Text.pieces_of_not_mem (by decide)
  · apply Text.pieces_join
    · exact mt List.map_eq_nil_iff.mp (Text.pieces_ne_nil '\n' body)
    · intro p hp
      obtain ⟨l, hl, rfl⟩ := List.mem_map.mp hp
      exact List.not_mem_append (by decide) (Text.not_mem_of_mem_pieces hl)

theorem isIdle_margin (l : Text) : isIdle (margin ++ l) = isIdle l := rfl

theorem margin_prefix_of_mem_suite (h : l ∈ Text.lines (suite body)) : margin <+: l := by
  rw [lines_suite] at h
  obtain ⟨k, -, rfl⟩ := List.mem_map.mp h
  exact List.prefix_append margin k

/-- Without the margin, a suite is the body again. -/
theorem unlines_drop_suite (h : body.allBlank = false) :
    Text.unlines ((Text.lines (suite body)).map (·.drop margin.length)) = body := by
  have hdrop : ∀ l : Text, (margin ++ l).drop margin.length = l := fun l => List.drop_left
  rw [lines_suite, h, List.map_map]
  exact (congrArg Text.unlines (List.map_congr_left fun l _ => hdrop l)).trans
    ((congrArg Text.unlines (List.map_id' _)).trans (Text.join_pieces '\n' body))

theorem exists_running_suite_iff (body : Text) :
    (∃ l ∈ Text.lines (suite body), isIdle l = false) ↔
      body.allBlank = true ∨ ∃ l ∈ Text.lines body, isIdle l = false := by
  rw [lines_suite]
  split
  · next hblank => exact ⟨fun _ => .inl hblank, fun _ => ⟨_, List.mem_singleton_self _, by decide⟩⟩
  · next hblank => simp [hblank, isIdle_margin]

/-- The suite of a body is usable just where the body is blank or has a line with something to run. -/
theorem isUsable_iff (body : Text) :
    IsUsable body (Text.lines (suite body)) ↔
      body.allBlank = true ∨ ∃ l ∈ Text.lines body, isIdle l = false := by
  rw [← exists_running_suite_iff]
  constructor
  · exact fun usable => usable.runs
  · exact fun runs => ⟨runs, fun _ => margin_prefix_of_mem_suite, unlines_drop_suite⟩

/-- A suite ends a line where the body does, and nowhere else. -/
theorem return_not_mem_suite (h : '\r' ∉ body) (hl : l ∈ Text.lines (suite body)) :
    l.any endsLine = false := by
  have hfeed : '\n' ∉ l := Text.not_mem_of_mem_pieces hl
  have hreturn : '\r' ∉ l := by
    rw [lines_suite] at hl
    obtain ⟨k, hk, rfl⟩ := List.mem_map.mp hl
    apply List.not_mem_append (by decide)
    split at hk
    · obtain rfl := List.mem_singleton.mp hk
      decide
    · exact fun hmem => h (Text.mem_of_mem_pieces hk hmem)
  rw [List.any_eq_false]
  intro c hc hends
  have hcases : c = '\n' ∨ c = '\r' := by simpa [endsLine] using hends
  rcases hcases with rfl | rfl
  · exact hfeed hc
  · exact hreturn hc

/-! ## Where they stand -/

/-- A line feed, the suite, and a line feed after it put the suite under the line before. -/
theorem suiteUnder_of_eq (front rest : Text) {header source : Text} (hheader : '\n' ∉ header)
    (h : source = front ++ '\n' :: (header ++ '\n' :: (suite body ++ '\n' :: rest)))
    (flush : ∀ l ∈ Text.lines rest, Text.indentation l = []) :
    SuiteUnder header (Text.lines (suite body)) source := by
  refine ⟨Text.lines front, Text.lines rest, ?_, flush⟩
  have hone : Text.lines header = [header] := Text.pieces_of_not_mem hheader
  calc Text.lines source
      = Text.lines front ++ (Text.lines header ++ (Text.lines (suite body) ++ Text.lines rest)) := by
        simp only [h, Text.lines, Text.pieces_append]
    _ = Text.lines front ++ header :: (Text.lines (suite body) ++ Text.lines rest) := by
        rw [hone, List.singleton_append]

theorem newline_not_mem_of_isIdentifier (h : isIdentifier t = true) : '\n' ∉ t := by
  cases t with
  | nil => exact List.not_mem_nil
  | cons c r =>
    obtain ⟨hfirst, hrest⟩ := Bool.and_eq_true_iff.mp h
    rw [List.mem_cons, not_or]
    constructor
    · rintro rfl
      exact absurd hfirst (by decide)
    · exact fun hmem => absurd (List.all_eq_true.mp hrest _ hmem) (by decide)

end Python

namespace BlockDirective

/-- The line under which a body is timed. -/
def timingHeader : Text := "def _gantry_timed_block():".toList

/-- The line under which a body is run with its output kept by this name. -/
def capturingHeader (name : Text) : Text := "with capture_output() as ".toList ++ name ++ [':']

/-- The name that output is kept by. -/
def captureName (args : Text) : Text := if args.isEmpty then "captured".toList else args

/-- What comes after the suite that is timed. -/
def timingTail : Snippet :=
  code ("\n\n_gantry_elapsed = timeit.timeit(_gantry_timed_block, number=" ++
    toString timeitLoops ++ ")\n") :: timingReport timeitLoops

theorem suiteUnder_timeit (args body : Text) :
    SuiteUnder timingHeader (Text.lines (suite body)) (expand .timeit args body).text := by
  have htext : (expand .timeit args body).text =
      "import timeit\n\ndef _gantry_timed_block():\n".toList ++ (suite body ++ timingTail.render) :=
    rfl
  have hhead : "import timeit\n\ndef _gantry_timed_block():\n".toList =
      "import timeit\n".toList ++ '\n' :: (timingHeader ++ ['\n']) := by
    decide
  have htail : timingTail.render = '\n' :: timingTail.render.tail := by
    decide +kernel
  have flush : (Text.lines timingTail.render.tail).all (fun l => (Text.indentation l).isEmpty) =
      true := by
    decide +kernel
  refine suiteUnder_of_eq "import timeit\n".toList timingTail.render.tail (by decide) ?_
    fun l hl => List.isEmpty_iff.mp (List.all_eq_true.mp flush l hl)
  rw [htext, hhead, ← htail]
  simp only [List.append_assoc, List.cons_append, List.nil_append]

/-- The source that runs a body with its output kept by this name. -/
def capturing (name body : Text) : Snippet :=
  [code ("from IPython.utils.capture import capture_output\n" ++ "with capture_output() as "),
    .code name, code ":\n", .code (suite body), code "\nprint(",
    .quoted ("Output captured to '".toList ++ name ++ ['\'']), code ")"]

theorem expand_capture {args : Text} (h : isIdentifier (captureName args) = true) (body : Text) :
    expand .capture args body = .emit (capturing (captureName args) body) := by
  rw [expand]
  exact if_neg (c := (!isIdentifier (captureName args)) = true) (by simp [h])

/-- What says that output was kept by the name. -/
def captureNote (name : Text) : Text :=
  "print(".toList ++ (literal ("Output captured to '".toList ++ name ++ ['\'']) ++ [')'])

theorem render_capturing (name body : Text) :
    (capturing name body).render = "from IPython.utils.capture import capture_output".toList ++
      '\n' :: (capturingHeader name ++ '\n' :: (suite body ++ '\n' :: captureNote name)) := by
  have hfirst : "from IPython.utils.capture import capture_output\n".toList =
      "from IPython.utils.capture import capture_output".toList ++ ['\n'] := by
    decide
  have hcolon : ":\n".toList = [':', '\n'] := by decide
  have hprint : "\nprint(".toList = '\n' :: "print(".toList := by decide
  have hclose : ")".toList = [')'] := by decide
  simp only [capturing, Snippet.render, List.flatMap_cons, List.flatMap_nil, Piece.render, code]
  -- not `rw`, which would go on to compare the fixed texts by evaluating them
  rewrite [String.toList_append]
  unfold capturingHeader captureNote
  simp only [hfirst, hprint, hcolon, hclose, List.append_assoc, List.cons_append, List.nil_append,
    List.append_nil]

theorem newline_not_mem_captureNote (name : Text) : '\n' ∉ captureNote name :=
  List.not_mem_append (by decide)
    (List.not_mem_append (newline_not_mem_literal _) (by decide))

theorem suiteUnder_capture {args : Text} (h : isIdentifier (captureName args) = true) (body : Text) :
    SuiteUnder (capturingHeader (captureName args)) (Text.lines (suite body))
      (expand .capture args body).text := by
  have hname : '\n' ∉ captureName args := newline_not_mem_of_isIdentifier h
  have hheader : '\n' ∉ capturingHeader (captureName args) :=
    List.not_mem_append (List.not_mem_append (by decide) hname) (by decide)
  rw [expand_capture h]
  refine suiteUnder_of_eq _ _ hheader (render_capturing _ body) ?_
  intro l hl
  rw [Text.lines, Text.pieces_of_not_mem (newline_not_mem_captureNote _)] at hl
  obtain rfl := List.mem_singleton.mp hl
  rfl

/-- A body that is timed, or run under a name, stands as the suite of its header. Every line of the
suite has the margin, and without it they are the body, if that is not blank. It can be used as a suite
just where the body is blank, and so becomes `pass`, or has a line that is neither blank nor only a
comment. Where the body has no carriage return, these lines are those that Python sees. -/
theorem suites_of_blocks (body : Text) :
    (∀ args, SuiteUnder timingHeader (Text.lines (suite body)) (expand .timeit args body).text) ∧
    (∀ args, isIdentifier (captureName args) = true →
      SuiteUnder (capturingHeader (captureName args)) (Text.lines (suite body))
        (expand .capture args body).text) ∧
    (∀ l ∈ Text.lines (suite body), margin <+: l) ∧
    (body.allBlank = false →
      Text.unlines ((Text.lines (suite body)).map (·.drop margin.length)) = body) ∧
    (IsUsable body (Text.lines (suite body)) ↔
      body.allBlank = true ∨ ∃ l ∈ Text.lines body, isIdle l = false) ∧
    ('\r' ∉ body → ∀ l ∈ Text.lines (suite body), l.any endsLine = false) :=
  ⟨fun args => suiteUnder_timeit args body, fun _ h => suiteUnder_capture h body,
    fun _ => margin_prefix_of_mem_suite, unlines_drop_suite, isUsable_iff body,
    fun h _ => return_not_mem_suite h⟩

/-- A body that ends with a comment and a line feed, run under a name. -/
theorem suites_of_blocks_commented :
    SuiteUnder "with capture_output() as out:".toList
      (Text.lines (suite "x = 1\n# done\n".toList))
      (expand .capture "out".toList "x = 1\n# done\n".toList).text ∧
    IsUsable "x = 1\n# done\n".toList (Text.lines (suite "x = 1\n# done\n".toList)) ∧
    Text.unlines ((Text.lines (suite "x = 1\n# done\n".toList)).map (·.drop margin.length)) =
      "x = 1\n# done\n".toList := by
  obtain ⟨-, captured, -, kept, usable, -⟩ := suites_of_blocks "x = 1\n# done\n".toList
  exact ⟨captured "out".toList (by decide), usable.mpr (.inr ⟨"x = 1".toList, by decide, by decide⟩),
    kept (by decide)⟩

/-- A body of comments is no blank one, and the suite that it becomes is no Python. -/
theorem exists_suite_of_comments :
    SuiteUnder timingHeader ["    # note".toList]
      (Submission.process "%%timeit\n# note".toList).code ∧
    ¬IsUsable "# note".toList ["    # note".toList] := by
  have hblock : Submission.blockDirective? "%%timeit\n# note".toList =
      some (.timeit, [], "# note".toList) := by
    decide
  have hcode : (Submission.process "%%timeit\n# note".toList).code =
      (expand .timeit [] "# note".toList).text := by
    rw [Submission.process, hblock]
  have hsuite : Text.lines (suite "# note".toList) = ["    # note".toList] := by decide
  constructor
  · rw [hcode, ← hsuite]
    exact suiteUnder_timeit [] "# note".toList
  · intro usable
    obtain ⟨l, hl, hruns⟩ := usable.runs
    obtain rfl := List.mem_singleton.mp hl
    exact absurd hruns (by decide)

end BlockDirective

end NotebookKernels
