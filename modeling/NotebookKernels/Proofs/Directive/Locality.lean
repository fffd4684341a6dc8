import NotebookKernels.Directive.Submission
import NotebookKernels.Proofs.Text.Lines
import NotebookKernels.Proofs.Directive.Scanner

/- A directive affects nothing but its own line.

   A submission is expanded line by line unless it opens with a block directive. So joined
   submissions are expanded one by one (`process_append`), a submission without directives stays as
   it is (`process_of_undirected`), and a directive that is moved right takes its code along
   (`process_indented`). The last needs that no line directive emits an empty line, which would get
   no margin: `startsLine?_expand` has a case for each directive. -/
namespace NotebookKernels
open Python Directive

/-! ## No empty lines -/

namespace Python

theorem newline_not_mem_literal (v : Text) : '\n' ∉ literal v :=
  fun h => (Scan.printable_of_mem_literal h).not_line_end (.inl rfl)

namespace Snippet

/-- What `Text.startsLine?` says of the source, whatever the values of its literals. -/
def startsLine? : Bool → Snippet → Option Bool
  | fresh, [] => some fresh
  | fresh, .code t :: s => (Text.startsLine? fresh t).bind (startsLine? · s)
  | _, .quoted _ :: s => startsLine? false s

variable {s : Snippet} {fresh : Bool} {t : Text}

theorem startsLine?_render (fresh : Bool) (s : Snippet) :
    Text.startsLine? fresh s.render = s.startsLine? fresh := by
  induction s generalizing fresh with
  | nil => rfl
  | cons p s ih =>
    have hsplit : render (p :: s) = p.render ++ render s := List.flatMap_cons
    rw [hsplit, Text.startsLine?_append]
    simp only [ih]
    cases p with
    | code t => rfl
    | quoted v =>
      have hne : literal v ≠ [] := by simp [literal]
      have hliteral : Text.startsLine? fresh (literal v) = some false :=
        Text.startsLine?_of_not_mem (newline_not_mem_literal v) hne
      rw [Piece.render, hliteral]
      rfl

theorem startsLine?_append (fresh : Bool) (s r : Snippet) :
    startsLine? fresh (s ++ r) = (startsLine? fresh s).bind (startsLine? · r) := by
  have hrender : render (s ++ r) = render s ++ render r := List.flatMap_append
  simp only [← startsLine?_render, hrender, Text.startsLine?_append]

/-- Code on one line goes on the line that it stands on. -/
theorem startsLine?_code (h : '\n' ∉ t) (ht : t ≠ []) :
    startsLine? fresh (.code t :: s) = startsLine? false s := by
  rw [startsLine?, Text.startsLine?_of_not_mem h ht, Option.bind_some]

theorem startsLine?_quotedItems (ws : List Text) :
    startsLine? false (quotedItems ws) = some false := by
  induction ws using quotedItems.induct with
  | case1 | case2 => rfl
  | case3 t ts hts ih =>
    rw [quotedItems_cons hts, startsLine?, code, startsLine?_code (by decide) (by decide), ih]

end Snippet
end Python

/-- A command emits no empty line if its list display emits none. -/
theorem startsLine?_runCommand {argv : Snippet} (h : argv.startsLine? false = some false) :
    (runCommand argv).startsLine? true = some false := by
  simp only [runCommand, code, List.cons_append, Snippet.startsLine?, Snippet.startsLine?_append,
    String.toList_append]
  repeat rw [String.toList_ofList]
  simp [Text.startsLine?, h]

theorem startsLine?_listDisplay (front : Snippet) (h : front.startsLine? false = some false)
    (ws : List Text) :
    (Snippet.listDisplay front ws).startsLine? false = some false := by
  have hclose : Snippet.startsLine? false [code "]"] = some false := by
    decide
  rw [Snippet.listDisplay, Snippet.startsLine?_append, Snippet.startsLine?_append, h,
    Option.bind_some, Snippet.startsLine?_quotedItems, Option.bind_some, hclose]

namespace LineDirective

variable {args : Text}

theorem startsLine?_placeholder (d : LineDirective) (hname : '\n' ∉ d.name.toList)
    (h : '\n' ∉ args) :
    (placeholder d args).code.startsLine? true = some false := by
  have hcode : ∃ t, (placeholder d args).code = [.code t] ∧ '\n' ∉ t ∧ t ≠ [] := by
    refine ⟨_, rfl, ?_, by simp⟩
    simp only [List.mem_append, not_or]
    refine ⟨⟨by decide, ?_⟩, by decide⟩
    split
    · simpa using hname
    · simpa using ⟨hname, h⟩
  obtain ⟨t, ht, hline, hne⟩ := hcode
  rw [ht, Snippet.startsLine?_code hline hne, Snippet.startsLine?]

/-- A line directive emits nothing, or no empty line. -/
theorem startsLine?_expand (d : LineDirective) (h : '\n' ∉ args) :
    (d.expand args).code = [] ∨ (d.expand args).code.startsLine? true = some false := by
  cases d with
  | pip =>
    right
    have hcommand := startsLine?_runCommand (startsLine?_listDisplay
      [code "[sys.executable, ", quoted "-m", code ", ", quoted "pip", code ", "] (by decide)
      args.words)
    have himport : Text.startsLine? true "import sys\n".toList = some true := by
      decide
    simp only [expand, Expansion.emit, code, Snippet.startsLine?, himport, Option.bind_some]
    exact hcommand
  | conda =>
    right
    exact startsLine?_runCommand
      (startsLine?_listDisplay [code "[", quoted "conda", code ", "] (by decide) args.words)
  | matplotlib | cd | ls | pwd | who | reset | clear | history =>
    right
    simp only [expand, Expansion.emit, code, quoted, String.toList_append, Snippet.startsLine?]
    repeat rw [String.toList_ofList]
    decide +kernel
  | whos =>
    right
    simp only [expand, Expansion.emit, code, Snippet.startsLine?]
    unfold whosSource
    simp only [String.toList_append]
    repeat rw [String.toList_ofList]
    decide +kernel
  | timeit =>
    rw [expand]
    split
    · exact .inl rfl
    · right
      simp only [Expansion.emit, timingReport, code, quoted, String.toList_append, List.cons_append,
        List.nil_append, Snippet.startsLine?]
      repeat rw [String.toList_ofList]
      decide +kernel
  | load | run =>
    rw [expand]
    split
    · exact .inl rfl
    · right
      simp only [Expansion.emit, code, quoted, Snippet.startsLine?]
      repeat rw [String.toList_ofList]
      decide +kernel
  | time =>
    rw [expand]
    split
    · exact .inl rfl
    · next hargs =>
      right
      have hne : args ≠ [] := mt List.isEmpty_iff.mpr hargs
      simp only [Expansion.emit, code, quoted, String.toList_append, Snippet.startsLine?,
        Text.startsLine?_of_not_mem h hne, Option.bind_some]
      repeat rw [String.toList_ofList]
      decide +kernel
  | env =>
    simp only [expand, expandEnv]
    split
    · split
      · exact .inl rfl
      · right
        simp only [Expansion.emit, code, Snippet.startsLine?]
        repeat rw [String.toList_ofList]
        decide +kernel
    · split
      · right
        simp only [Expansion.emit, code, quoted, String.toList_append, Snippet.startsLine?]
        repeat rw [String.toList_ofList]
        decide +kernel
      · right
        simp only [Expansion.emit, code, quoted, Snippet.startsLine?]
        repeat rw [String.toList_ofList]
        decide +kernel
  | store | recallInput => exact .inr (startsLine?_placeholder _ (by decide) h)
  | xdel =>
    rw [expand]
    split
    · exact .inl rfl
    · next hargs =>
      split
      · exact .inl rfl
      · right
        have hne : args ≠ [] := mt List.isEmpty_iff.mpr hargs
        simp only [Expansion.emit, code, Snippet.startsLine?, Text.startsLine?_of_not_mem h hne,
          Option.bind_some]
        repeat rw [String.toList_ofList]
        decide +kernel

end LineDirective

namespace Submission

variable {t l a b w d : Text} {x : LineDirective} {args : Text}

/-! ## Finding directives -/

/-- What a recognised line directive looks like. -/
theorem form_of_lineDirective? (h : lineDirective? l = some (x, args)) :
    ∃ rest, l.trim = '%' :: rest ∧ rest.head? ≠ some '%' ∧ args = (Text.cutAtBlank rest).2 := by
  unfold lineDirective? at h
  split at h
  · next rest hl =>
    dsimp only at h
    split at h
    · cases h
    · next hhead =>
      obtain ⟨d, -, hd⟩ := Option.map_eq_some_iff.mp h
      obtain ⟨-, rfl⟩ := Prod.mk.inj hd
      exact ⟨rest, hl, hhead, rfl⟩
  · cases h

/-- The arguments are part of the line. -/
theorem mem_of_mem_args (h : lineDirective? l = some (x, args)) {c : Char} (hc : c ∈ args) :
    c ∈ l := by
  obtain ⟨rest, hrest, -, rfl⟩ := form_of_lineDirective? h
  have htrim : c ∈ l.trim := hrest ▸ List.mem_cons_of_mem _ (Text.mem_of_mem_cutAtBlank hc)
  exact Text.mem_of_mem_trim htrim

/-- The block directive that a line names. -/
def namedBlock? (line : Text) : Option BlockDirective :=
  (Text.stripPrefix? ['%', '%'] line.trim).bind fun h =>
    BlockDirective.ofName? (Text.cutAtBlank h).1

/-- The first line that is not blank decides whether a submission opens with a block directive. -/
theorem blockDirective?_eq_none_iff (t : Text) :
    blockDirective? t = none ↔
      ((Text.lines t).find? (fun line => !line.allBlank)).bind namedBlock? = none := by
  rw [List.find?_not_eq_head?_dropWhile]
  unfold blockDirective? BlockHeader.parse?
  cases (Text.lines t).dropWhile Text.allBlank with
  | nil => simp
  | cons header rest =>
    simp only [List.head?_cons, Option.bind_some, namedBlock?]
    cases hstrip : Text.stripPrefix? ['%', '%'] header.trim with
    | none => simp
    | some h => cases hname : BlockDirective.ofName? (Text.cutAtBlank h).1 <;> simp [hname]

/-! ## Line by line -/

/-- The submission keeps at least one line: not every line is a directive that is refused. -/
def Keeps (t : Text) : Prop :=
  ∃ l ∈ Text.lines t, ∀ r ∈ lineDirective? l, (r.1.expand r.2).text ≠ []

theorem process_of_none (h : blockDirective? t = none) : process t = expandLines t := by
  rw [process, h]

theorem filterMap_singleton {α β : Type} (f : α → Option β) (a : α) :
    [a].filterMap f = (f a).toList := by
  cases h : f a with
  | none => exact List.filterMap_cons_none h
  | some b => exact List.filterMap_cons_some h

theorem expandLine_of_none (h : lineDirective? l = none) : expandLine l = ([l], none) := by
  rw [expandLine, h]

/-- What stands in place of a line, and the notice that comes with it, depend on that line alone. -/
theorem process_of_lines {before after : List Text} (h : blockDirective? t = none)
    (ht : Text.lines t = before ++ l :: after) :
    process t =
      ⟨Text.unlines ((before.map expandLine).flatMap (·.1) ++ (expandLine l).1 ++
          (after.map expandLine).flatMap (·.1)),
        (before.map expandLine).filterMap (·.2) ++ (expandLine l).2.toList ++
          (after.map expandLine).filterMap (·.2)⟩ := by
  rw [process_of_none h, expandLines, ht, ← filterMap_singleton]
  simp only [List.map_append, List.map_cons, List.flatMap_append, List.flatMap_cons,
    List.append_assoc, ← List.filterMap_append, List.singleton_append]

theorem emits_of_keeps (h : Keeps t) : ((Text.lines t).map expandLine).flatMap (·.1) ≠ [] := by
  obtain ⟨l, hl, hkept⟩ := h
  intro hnil
  have hline := List.flatMap_eq_nil_iff.mp hnil _ (List.mem_map_of_mem hl)
  cases hd : lineDirective? l with
  | none =>
    rw [expandLine_of_none hd] at hline
    cases hline
  | some r =>
    have htext := hkept r hd
    simp [expandLine, hd, htext] at hline

theorem expandLines_append (ha : Keeps a) (hb : Keeps b) :
    expandLines (a ++ '\n' :: b) =
      ⟨(expandLines a).code ++ '\n' :: (expandLines b).code,
        (expandLines a).notices ++ (expandLines b).notices⟩ := by
  have hlines : Text.lines (a ++ '\n' :: b) = Text.lines a ++ Text.lines b := Text.pieces_append ..
  have hcode := Text.join_append '\n' (emits_of_keeps ha) (emits_of_keeps hb)
  simp only [expandLines, hlines, List.map_append, List.flatMap_append, List.filterMap_append,
    hcode]

/-- Neither opens a block, so both together open none. -/
theorem blockDirective?_append (ha : blockDirective? a = none) (hb : blockDirective? b = none) :
    blockDirective? (a ++ '\n' :: b) = none := by
  rw [blockDirective?_eq_none_iff] at *
  have hlines : Text.lines (a ++ '\n' :: b) = Text.lines a ++ Text.lines b := Text.pieces_append ..
  rw [hlines, List.find?_append]
  cases hfirst : (Text.lines a).find? (fun line => !line.allBlank) with
  | none => exact hb
  | some l => rwa [hfirst] at ha

theorem process_append (ha : blockDirective? a = none) (hb : blockDirective? b = none)
    (ka : Keeps a) (kb : Keeps b) :
    process (a ++ '\n' :: b) =
      ⟨(process a).code ++ '\n' :: (process b).code,
        (process a).notices ++ (process b).notices⟩ := by
  rw [process_of_none ha, process_of_none hb, process_of_none (blockDirective?_append ha hb),
    expandLines_append ka kb]

/-- A submission without directives stays as it is. -/
theorem process_of_undirected (h : blockDirective? t = none)
    (plain : ∀ l ∈ Text.lines t, lineDirective? l = none) : process t = ⟨t, []⟩ := by
  have kept : ∀ ls : List Text, (∀ l ∈ ls, lineDirective? l = none) →
      (ls.map expandLine).flatMap (·.1) = ls ∧ (ls.map expandLine).filterMap (·.2) = [] := by
    intro ls
    induction ls with
    | nil => exact fun _ => ⟨rfl, rfl⟩
    | cons l ls ih =>
      intro hls
      obtain ⟨hcode, hnotices⟩ := ih fun k hk => hls k (List.mem_cons_of_mem _ hk)
      have hl := expandLine_of_none (hls l (List.mem_cons_self ..))
      simp only [List.map_cons, List.flatMap_cons, List.filterMap_cons, hl, hcode, hnotices]
      exact ⟨rfl, trivial⟩
  obtain ⟨hcode, hnotices⟩ := kept _ plain
  have hlines : Text.unlines (Text.lines t) = t := Text.join_pieces '\n' t
  rw [process_of_none h, expandLines, hcode, hnotices, hlines]

/-! ## Indentation -/

theorem indentBy_nil (t : Text) : indentBy [] t = t := by
  have hline : ∀ l : Text, (if l.isEmpty then [] else [] ++ l) = l := by
    intro l
    cases l <;> rfl
  rw [indentBy, List.map_congr_left fun l _ => hline l, List.map_id']
  exact Text.join_pieces '\n' t

theorem indentBy_of_startsLine? (h : Text.startsLine? true t = some false) (w : Text) :
    indentBy w t = Text.unlines ((Text.lines t).map (w ++ ·)) := by
  rw [indentBy]
  congr 1
  apply List.map_congr_left
  intro l hl
  have hne := Text.ne_nil_of_mem_lines h l hl
  rw [if_neg (mt List.isEmpty_iff.mp hne)]

theorem indentBy_of_not_mem (h : '\n' ∉ t) (ht : t ≠ []) (w : Text) : indentBy w t = w ++ t := by
  have hlines : Text.lines t = [t] := Text.pieces_of_not_mem h
  rw [indentBy_of_startsLine? (Text.startsLine?_of_not_mem h ht), hlines]
  exact Text.join_singleton '\n' _

/-- A line directive opens no block. -/
theorem blockDirective?_of_lineDirective? (hline : '\n' ∉ l)
    (h : lineDirective? l = some (x, args)) : blockDirective? l = none := by
  obtain ⟨rest, hrest, hhead, -⟩ := form_of_lineDirective? h
  have hnamed : namedBlock? l = none := by
    rw [namedBlock?, hrest]
    cases rest with
    | nil => rfl
    | cons c rest =>
      have hc : c ≠ '%' := fun hc => hhead (congrArg some hc)
      simp [Text.stripPrefix?, Ne.symm hc]
  have hlines : Text.lines l = [l] := Text.pieces_of_not_mem hline
  rw [blockDirective?_eq_none_iff, hlines]
  cases hfirst : [l].find? (fun line => !line.allBlank) with
  | none => rfl
  | some k =>
    obtain rfl := List.mem_singleton.mp (List.mem_of_find?_eq_some hfirst)
    exact hnamed

/-- A line directive alone is expanded behind its own margin. -/
theorem process_line (hline : '\n' ∉ l) (h : lineDirective? l = some (x, args)) :
    process l =
      ⟨if (x.expand args).text.isEmpty then []
        else indentBy (Text.indentation l) (x.expand args).text,
        (x.expand args).notice.toList⟩ := by
  have hlines : Text.lines l = [l] := Text.pieces_of_not_mem hline
  have hexpand : expandLine l =
      (if (x.expand args).text.isEmpty then []
        else [indentBy (Text.indentation l) (x.expand args).text], (x.expand args).notice) := by
    rw [expandLine, h]
  have hnotices : [expandLine l].filterMap (·.2) = (x.expand args).notice.toList := by
    rw [filterMap_singleton, hexpand]
  have hcode : Text.unlines ([expandLine l].flatMap (·.1)) =
      if (x.expand args).text.isEmpty then []
      else indentBy (Text.indentation l) (x.expand args).text := by
    rw [hexpand]
    split
    · rfl
    · exact Text.join_singleton '\n' _
  rw [process_of_none (blockDirective?_of_lineDirective? hline h), expandLines, hlines,
    List.map_singleton, hcode, hnotices]

/-- The lines that a submission is expanded to; none if nothing is left of it. -/
def emitted (t : Text) : List Text :=
  if (process t).code = [] then [] else Text.lines (process t).code

theorem process_indented (hw : ∀ c ∈ w, Text.isBlank c = true ∧ c ≠ '\n') (hd : d.trim = d)
    (hline : '\n' ∉ d) (h : lineDirective? d = some (x, args)) :
    process (w ++ d) = ⟨Text.unlines ((emitted d).map (w ++ ·)), (process d).notices⟩ := by
  obtain ⟨rest, hrest, -, -⟩ := form_of_lineDirective? h
  have hd' : d = '%' :: rest := hd.symm.trans hrest
  have hnowhere : '\n' ∉ args := fun hc => hline (mem_of_mem_args h hc)
  have blank : ∀ c ∈ w, Text.isBlank c = true := fun c hc => (hw c hc).1
  have hflush : Text.indentation d = [] := by
    rw [hd']
    rfl
  have hmargin : Text.indentation (w ++ d) = w := by
    rw [Text.indentation_append blank, hflush, List.append_nil]
  have hmoved : lineDirective? (w ++ d) = some (x, args) := by
    rw [← h, lineDirective?, lineDirective?, Text.trim_append blank]
  have hmovedLine : '\n' ∉ w ++ d := by
    intro hc
    rcases List.mem_append.mp hc with hc | hc
    · exact (hw _ hc).2 rfl
    · exact hline hc
  have hplain : process d = ⟨(x.expand args).text, (x.expand args).notice.toList⟩ := by
    rw [process_line hline h, hflush, indentBy_nil]
    split
    · next hempty => rw [List.isEmpty_iff.mp hempty]
    · rfl
  rw [process_line hmovedLine hmoved, hmargin, emitted, hplain]
  rcases LineDirective.startsLine?_expand x hnowhere with hnothing | hlines
  · have hempty : (x.expand args).text = [] := congrArg Snippet.render hnothing
    rw [hempty]
    rfl
  · -- a line that is empty would stay without the margin, but none is
    have htext : Text.startsLine? true (x.expand args).text = some false :=
      (Snippet.startsLine?_render true _).trans hlines
    have hne : (x.expand args).text ≠ [] := by
      intro hempty
      rw [hempty] at htext
      cases htext
    rw [if_neg (mt List.isEmpty_iff.mp hne), if_neg hne, indentBy_of_startsLine? htext]

/-- Submissions that open with no block directive and keep a line are expanded one by one, with their
notices in order; a submission without directives stays as it is and has no notices; and a line
directive moved right by blanks has these blanks before each of its lines, and the same notices. -/
theorem directives_keep_to_their_lines :
    (∀ a b : Text, blockDirective? a = none → blockDirective? b = none → Keeps a → Keeps b →
      process (a ++ '\n' :: b) = ⟨(process a).code ++ '\n' :: (process b).code,
        (process a).notices ++ (process b).notices⟩) ∧
    (∀ t : Text, blockDirective? t = none → (∀ l ∈ Text.lines t, lineDirective? l = none) →
      process t = ⟨t, []⟩) ∧
    (∀ w d : Text, (∀ c ∈ w, Text.isBlank c = true ∧ c ≠ '\n') → d.trim = d → '\n' ∉ d →
      lineDirective? d ≠ none →
      process (w ++ d) = ⟨Text.unlines ((emitted d).map (w ++ ·)), (process d).notices⟩) := by
  refine ⟨fun a b ha hb ka kb => process_append ha hb ka kb,
    fun t h plain => process_of_undirected h plain, ?_⟩
  intro w d hw hd hline h
  obtain ⟨r, hr⟩ := Option.ne_none_iff_exists'.mp h
  exact process_indented hw hd hline hr

/-- A refused directive between lines that stay, an unknown one, and one behind blanks. -/
theorem directives_keep_to_their_lines_mixed :
    process ("%timeit\nx".toList ++ '\n' :: "%pwd".toList) =
      ⟨"x\nimport os\nprint(os.getcwd())".toList,
        [⟨.error, "%timeit requires a statement".toList⟩]⟩ ∧
    process "%%timer\n%%time".toList = ⟨"%%timer\n%%time".toList, []⟩ ∧
    process (" \t".toList ++ "%pwd".toList) =
      ⟨" \timport os\n \tprint(os.getcwd())".toList, []⟩ := by
  obtain ⟨joined, plain, indented⟩ := directives_keep_to_their_lines
  refine ⟨?_, plain _ (by decide) (by decide), ?_⟩
  · have ha : Keeps "%timeit\nx".toList := ⟨['x'], by decide, by decide⟩
    have hb : Keeps "%pwd".toList := ⟨"%pwd".toList, by decide, by decide⟩
    rw [joined _ _ (by decide) (by decide) ha hb]
    decide
  · have blanks : ∀ c ∈ " \t".toList, Text.isBlank c = true ∧ c ≠ '\n' := by
      intro c hc
      have hcases : c = ' ' ∨ c = '\t' := by simpa using hc
      rcases hcases with rfl | rfl <;> decide
    rw [indented _ _ blanks (by decide) (by decide) (by decide)]
    decide

end Submission

end NotebookKernels
