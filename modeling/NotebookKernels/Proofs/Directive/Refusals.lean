import NotebookKernels.Proofs.Directive.Blocks

/- Refused directives, and what the user is told.

   A directive answers with code, with an error and no code, or with code and a note beside it
   (`Answers`; `answers_expand` has a case for each directive). So no code is lost without an error that
   says why, and an error comes with no code. Over a whole submission this gives the notices in the order
   of the directives (`notices_process`), each on one line of the text that is shown
   (`lines_render`); `refusals_shown` puts it together. -/
namespace NotebookKernels
open Python Directive

namespace Directive

/-! ## How a directive answers -/

/-- Does it come with an error? -/
def Expansion.isRefused (x : Expansion) : Bool := x.notice.any (·.level = .error)

/-- The ways in which a directive answers its arguments. What it says is one line if the arguments are
one. -/
inductive Answers (args : Text) : Expansion → Prop
  | emits (s : Snippet) (some : s.render ≠ []) : Answers args (.emit s)
  | refuses (message : Text) (line : '\n' ∉ args → '\n' ∉ message) : Answers args (.refuse message)
  | annotates (s : Snippet) (message : Text) (some : s.render ≠ []) (line : '\n' ∉ message) :
      Answers args (.annotate s message)

namespace Answers

variable {args : Text} {x : Expansion}

/-- There is no code just where there is an error. -/
theorem text_eq_nil_iff (h : Answers args x) : x.text = [] ↔ x.isRefused = true := by
  cases h with
  | emits s some => simp [Expansion.isRefused, Expansion.text, Expansion.emit, some]
  | refuses message line =>
    simp [Expansion.isRefused, Expansion.text, Expansion.refuse, Snippet.render]
  | annotates s message some line =>
    simp [Expansion.isRefused, Expansion.text, Expansion.annotate, some]

theorem newline_not_mem (h : Answers args x) (hargs : '\n' ∉ args) {n : Notice}
    (hn : n ∈ x.notice) : '\n' ∉ n.text := by
  cases h with
  | emits s some => cases hn
  | refuses message line =>
    cases hn
    exact line hargs
  | annotates s message some line =>
    cases hn
    exact line

/-- Code that begins with some fixed source text is not empty. -/
theorem begins (c : String) (s : Snippet) (h : c ≠ "") : Answers args (.emit (code c :: s)) := by
  apply emits
  simp [Snippet.render, Piece.render, code, h]

/-- A fixed message is one line. -/
theorem refused (message : String) (h : message.toList.all (· ≠ '\n') = true) :
    Answers args (.refuse message.toList) := by
  apply refuses
  rintro - hmem
  simpa using List.all_eq_true.mp h _ hmem

/-- A message that quotes something of the arguments is one line if they are. -/
theorem refused_for (front back : String) {target : Text}
    (hfront : front.toList.all (· ≠ '\n') = true) (hback : back.toList.all (· ≠ '\n') = true)
    (htarget : '\n' ∉ args → '\n' ∉ target) :
    Answers args (.refuse (front.toList ++ target ++ back.toList)) := by
  apply refuses
  intro hargs hmem
  rcases List.mem_append.mp hmem with hmem | hmem
  · rcases List.mem_append.mp hmem with hmem | hmem
    · simpa using List.all_eq_true.mp hfront _ hmem
    · exact htarget hargs hmem
  · simpa using List.all_eq_true.mp hback _ hmem

end Answers
end Directive

theorem LineDirective.answers_placeholder (d : LineDirective) (args : Text)
    (hname : '\n' ∉ d.name.toList) : Answers args (placeholder d args) := by
  apply Answers.annotates
  · simp [Snippet.render, Piece.render]
  · simp [hname]

theorem LineDirective.answers_expand (d : LineDirective) (args : Text) :
    Answers args (d.expand args) := by
  cases d with
  | pip | conda | matplotlib | pwd | cd | ls | who | reset | clear | history =>
    exact .begins _ _ (by decide)
  | whos =>
    apply Answers.begins
    intro hempty
    -- its last line is enough
    have hlast : whosSource.toList = [] := congrArg String.toList hempty
    unfold whosSource at hlast
    rw [String.toList_append] at hlast
    exact absurd (List.append_eq_nil_iff.mp hlast).2 (by decide)
  | timeit | time | load | run =>
    rw [expand]
    split
    · exact .refused _ (by decide)
    · exact .begins _ _ (by simp)
  | env =>
    simp only [expand, expandEnv]
    split
    · split
      · exact .refused _ (by decide)
      · exact .begins _ _ (by decide)
    · split
      · exact .begins _ _ (by simp)
      · exact .begins _ _ (by decide)
  | store | recallInput => exact answers_placeholder _ args (by decide)
  | xdel =>
    rw [expand]
    split
    · exact .refused _ (by decide)
    · split
      · exact .refused_for _ _ (by decide) (by decide) id
      · exact .begins _ _ (by decide)

theorem BlockDirective.answers_expand (d : BlockDirective) (args body : Text) :
    Answers args (d.expand args body) := by
  cases d with
  | timeit | time | bash | html | javascript | latex | markdown => exact .begins _ _ (by simp)
  | writefile =>
    rw [expand]
    split
    · exact .refused _ (by decide)
    · exact .begins _ _ (by decide)
  | capture =>
    have htarget : '\n' ∉ args → '\n' ∉ if args.isEmpty = true then "captured".toList else args := by
      intro hargs
      split
      · decide
      · exact hargs
    simp only [expand]
    generalize (if args.isEmpty = true then "captured".toList else args) = target at htarget ⊢
    split
    · exact .refused_for _ _ (by decide) (by decide) htarget
    · exact .begins _ _ (by simp)

def Invocation.args : Invocation → Text
  | line _ args => args
  | block _ args _ => args

theorem Invocation.answers (u : Invocation) : Answers u.args u.expand := by
  cases u with
  | line d args => exact d.answers_expand args
  | block d args body => exact d.answers_expand args body

/-! ## The notices of a submission -/

namespace Submission

variable {t l : Text} {d : LineDirective} {args : Text}

/-- The directives of a submission that are carried out, in the order in which they stand. -/
def invocations (t : Text) : List Invocation :=
  match blockDirective? t with
  | some (d, args, body) => [.block d args body]
  | none => (Text.lines t).filterMap fun l => (lineDirective? l).map fun r => .line r.1 r.2

/-- Each directive adds the notice it has, in its turn. -/
theorem notices_process (t : Text) :
    (process t).notices = (invocations t).filterMap (·.expand.notice) := by
  cases hblock : blockDirective? t with
  | some r =>
    simp only [process, invocations, hblock, filterMap_singleton]
    rfl
  | none =>
    have hline : ∀ l, (expandLine l).2 =
        ((lineDirective? l).map fun r => Invocation.line r.1 r.2).bind (·.expand.notice) := by
      intro l
      rw [expandLine]
      cases lineDirective? l <;> rfl
    simp only [process_of_none hblock, expandLines, invocations, hblock, List.filterMap_map,
      List.filterMap_filterMap]
    exact congrArg (List.filterMap · _) (funext hline)

/-- The arguments of a directive are one line. -/
theorem newline_not_mem_args {u : Invocation} (h : u ∈ invocations t) : '\n' ∉ u.args := by
  cases hblock : blockDirective? t with
  | some r =>
    simp only [invocations, hblock, List.mem_singleton] at h
    obtain ⟨header, hparse, hrest⟩ := Option.bind_eq_some_iff.mp hblock
    obtain ⟨e, -, he⟩ := Option.bind_eq_some_iff.mp hrest
    cases he
    rw [h]
    exact (BlockHeader.opens_of_parse? hparse).newline_not_mem_args
  | none =>
    simp only [invocations, hblock] at h
    obtain ⟨l, hl, hu⟩ := List.mem_filterMap.mp h
    obtain ⟨r, hr, rfl⟩ := Option.map_eq_some_iff.mp hu
    exact fun hc => Text.not_mem_of_mem_pieces hl (mem_of_mem_args hr hc)

/-- A notice is shown on one line. -/
theorem newline_not_mem_line {n : Notice} (h : n ∈ (process t).notices) : '\n' ∉ n.line := by
  rw [notices_process] at h
  obtain ⟨u, hu, hn⟩ := List.mem_filterMap.mp h
  have htext : '\n' ∉ n.text := u.answers.newline_not_mem (newline_not_mem_args hu) hn
  obtain ⟨level, text⟩ := n
  cases level with
  | info => exact htext
  | error =>
    have hmark : '\n' ∉ "Error: ".toList := by decide
    exact List.not_mem_append hmark htext

/-- The text of a submission's notices has a line for each, and ends after the last one. -/
theorem lines_render (t : Text) :
    Text.lines (Notices.render (process t).notices) =
      (process t).notices.map Notice.line ++ [[]] := by
  have hended : Notices.render (process t).notices =
      Text.ended ((process t).notices.map Notice.line) ++ [] := by
    rw [Notices.render, Text.ended, List.flatMap_map, List.append_nil]
  have hlines : ∀ l ∈ (process t).notices.map Notice.line, '\n' ∉ l := by
    intro l hl
    obtain ⟨n, hn, rfl⟩ := List.mem_map.mp hl
    exact newline_not_mem_line hn
  rw [hended, Text.lines_ended hlines]
  rfl

/-- A line is gone where its directive is refused; else it is replaced by the code. -/
theorem expandLine_of_some (h : lineDirective? l = some (d, args)) :
    expandLine l = (if (d.expand args).isRefused = true then []
      else [indentBy l.indentation (d.expand args).text], (d.expand args).notice) := by
  have hgone : (d.expand args).text.isEmpty = true ↔ (d.expand args).isRefused = true :=
    List.isEmpty_iff.trans (d.answers_expand args).text_eq_nil_iff
  simp only [expandLine, h, hgone]

/-- The user gets notices at once where some directive has one: then all of them. -/
theorem immediate_eq_some_iff (t : Text) (ns : Notices) :
    immediate (process t) = some ns ↔
      ns = (process t).notices ∧ ∃ u ∈ invocations t, u.expand.notice ≠ none := by
  have hnone : (process t).notices = [] ↔ ∀ u ∈ invocations t, u.expand.notice = none := by
    rw [notices_process, List.filterMap_eq_nil_iff]
  rw [immediate]
  split
  · next hempty =>
    have hsilent := hnone.mp (List.isEmpty_iff.mp hempty)
    constructor
    · rintro ⟨⟩
    · rintro ⟨-, u, hu, hnotice⟩
      exact absurd (hsilent u hu) hnotice
  · next hsome =>
    have hspoken : ∃ u ∈ invocations t, u.expand.notice ≠ none := by
      simpa using mt hnone.mpr (mt List.isEmpty_iff.mpr hsome)
    constructor
    · intro h
      exact ⟨(Option.some.inj h).symm, hspoken⟩
    · rintro ⟨rfl, -⟩
      rfl

/-- A directive emits no code just where it is refused with an error. So a block comes to nothing just
where it is refused, and so does a line with a directive, between what comes of the lines around it.
The notices are those of the directives in their order, one for each at most; the user gets them at
once where there are any, each on a line of its own that ends. -/
theorem refusals_shown :
    (∀ u : Invocation, u.expand.text = [] ↔ u.expand.isRefused = true) ∧
    (∀ t d args body, blockDirective? t = some (d, args, body) →
      process t = ⟨(d.expand args body).text, (d.expand args body).notice.toList⟩ ∧
      ((process t).code = [] ↔ Notices.hasErrors (process t).notices = true)) ∧
    (∀ t before l after d args, blockDirective? t = none →
      Text.lines t = before ++ l :: after → lineDirective? l = some (d, args) →
      process t =
        ⟨Text.unlines ((before.map expandLine).flatMap (·.1) ++
            (if (d.expand args).isRefused = true then []
              else [indentBy l.indentation (d.expand args).text]) ++
            (after.map expandLine).flatMap (·.1)),
          (before.map expandLine).filterMap (·.2) ++ (d.expand args).notice.toList ++
            (after.map expandLine).filterMap (·.2)⟩) ∧
    (∀ t, (process t).notices = (invocations t).filterMap (·.expand.notice)) ∧
    (∀ t ns, immediate (process t) = some ns ↔
      ns = (process t).notices ∧ ∃ u ∈ invocations t, u.expand.notice ≠ none) ∧
    ∀ t, Text.lines (Notices.render (process t).notices) =
      (process t).notices.map Notice.line ++ [[]] := by
  refine ⟨fun u => u.answers.text_eq_nil_iff, ?_, ?_, notices_process, immediate_eq_some_iff,
    lines_render⟩
  · intro t d args body h
    have hprocess : process t =
        ⟨(d.expand args body).text, (d.expand args body).notice.toList⟩ := by
      rw [process, h]
    have herrors : Notices.hasErrors (d.expand args body).notice.toList =
        (d.expand args body).isRefused := by
      rw [Expansion.isRefused]
      cases (d.expand args body).notice <;> simp [Notices.hasErrors]
    refine ⟨hprocess, ?_⟩
    rw [hprocess, herrors]
    exact (d.answers_expand args body).text_eq_nil_iff
  · intro t before l after d args h ht hl
    rw [process_of_lines h ht, expandLine_of_some hl]

/-- A refused directive, one with a note, and one that says nothing. -/
theorem refusals_shown_mixed :
    process "%timeit\n %store y\n%pwd".toList =
      ⟨" # %store y - not implemented in this kernel\nimport os\nprint(os.getcwd())".toList,
        [⟨.error, "%timeit requires a statement".toList⟩,
          ⟨.info, "%store is not implemented in this kernel".toList⟩]⟩ ∧
    Text.lines (Notices.render (process "%timeit\n %store y\n%pwd".toList).notices) =
      ["Error: %timeit requires a statement".toList,
        "%store is not implemented in this kernel".toList, []] ∧
    (process "%%capture a b\nx".toList).code = [] := by
  obtain ⟨-, blocks, replaced, -, -, shown⟩ := refusals_shown
  have hlines : process "%timeit\n %store y\n%pwd".toList =
      ⟨" # %store y - not implemented in this kernel\nimport os\nprint(os.getcwd())".toList,
        [⟨.error, "%timeit requires a statement".toList⟩,
          ⟨.info, "%store is not implemented in this kernel".toList⟩]⟩ := by
    rw [replaced _ [] "%timeit".toList [" %store y".toList, "%pwd".toList] .timeit []
      (by decide) (by decide) (by decide)]
    decide
  refine ⟨hlines, ?_, ?_⟩
  · rw [shown, hlines]
    decide
  · have hblock : blockDirective? "%%capture a b\nx".toList =
        some (.capture, "a b".toList, ['x']) := by
      decide
    obtain ⟨hprocess, hgone⟩ := blocks _ _ _ _ hblock
    rw [hgone, hprocess]
    decide

end Submission

end NotebookKernels
