import NotebookKernels.Proofs.Text.Lines
import NotebookKernels.Script.Cell

/- What becomes of the lines of a script.

   The sections of a script are the stretches between its markers: `Divides` says so of a list of lines
   and a list of sections without going through them one by one. A cell is a section that has code,
   without the empty lines at its ends. So the code of the cells is the code of the script, and a cell's
   title is what stands on the last marker before it (`split_loses_nothing`): a section without code
   takes its marker with it, and the section after it has a marker of its own.

   The lines of a script end as those of a file do; the lines of a source are what stands between its
   line feeds. -/
namespace NotebookKernels.Cell
open Text

variable {script l : Text} {ls before own after : List Text} {ss : List Section} {s : Section}
  {title : Option Text} {n : Nat} {c : Cell}

def isMarker (l : Text) : Bool := (markerTitle? l).isSome

/-- Is the line neither blank nor a marker? -/
def isCode (l : Text) : Bool := !l.allBlank && !isMarker l

/-- The lines of the cell's source that are not blank. -/
def codeLines (c : Cell) : List Text := (lines c.source).filter fun l => !l.allBlank

/-- The text on the last marker among the lines. -/
def lastMarker? (ls : List Text) : Option Text := (ls.filterMap markerTitle?).getLast?

/-- The title of the `n`-th cell, if these lines come before it. -/
def titleAfter (before : List Text) (n : Nat) : Text :=
  match lastMarker? before with
  | some t => if t = [] then defaultTitle n else t
  | none => defaultTitle n

/-- Where a cell stands among the lines: it is all that is between two markers, or between a marker and
an end. -/
structure StandsIn (c : Cell) (ls before own after : List Text) : Prop where
  lines : ls = before ++ own ++ after
  opened : ∀ m, before.getLast? = some m → isMarker m = true
  closed : ∀ m, after.head? = some m → isMarker m = true
  unmarked : ∀ l ∈ own, isMarker l = false
  source : c.source = trimOf '\n' (unlines own)

/-! ## Sections -/

/-- The sections are the lines between the markers. The title of the first one is given. -/
inductive Divides : Option Text → List Text → List Section → Prop
  | last (title : Option Text) (own : List Text) (unmarked : ∀ l ∈ own, isMarker l = false) :
      Divides title own [⟨title, own⟩]
  | next (title : Option Text) (own : List Text) (unmarked : ∀ l ∈ own, isMarker l = false)
      (m t : Text) (marker : markerTitle? m = some t) (rest : List Text) (ss : List Section)
      (h : Divides (some t) rest ss) : Divides title (own ++ m :: rest) (⟨title, own⟩ :: ss)

/-- A line that is no marker belongs to the first section. -/
theorem Divides.cons (hl : isMarker l = false) (h : Divides title ls ss) :
    ∃ s r, ss = s :: r ∧ Divides title (l :: ls) ({ s with lines := l :: s.lines } :: r) := by
  have longer : ∀ {own : List Text}, (∀ k ∈ own, isMarker k = false) →
      ∀ k ∈ l :: own, isMarker k = false :=
    fun h k hk => (List.mem_cons.mp hk).elim (fun heq => heq ▸ hl) (h k)
  cases h with
  | last _ _ unmarked => exact ⟨_, _, rfl, .last title (l :: ls) (longer unmarked)⟩
  | next _ own unmarked m t marker rest ss h =>
    exact ⟨_, _, rfl, .next title (l :: own) (longer unmarked) m t marker rest ss h⟩

theorem divides_sections (title : Option Text) (ls : List Text) :
    Divides title ls (sections title ls) := by
  induction ls generalizing title with
  | nil => exact .last title [] (by simp)
  | cons l ls ih =>
    rw [sections]
    cases hl : markerTitle? l with
    | some t => exact .next title [] (by simp) l t hl ls _ (ih (some t))
    | none =>
      obtain ⟨s, r, hss, h⟩ := (ih title).cons (l := l) (by simp [isMarker, hl])
      rw [hss]
      exact h

/-- A line of a file is what stands between two line feeds, or the beginning of it. -/
theorem exists_line_of_mem_scriptLines (h : l ∈ scriptLines script) :
    ∃ k ∈ Text.lines script, l ⊆ k := by
  rw [scriptLines] at h
  split at h
  · cases h
  · next last before hlines =>
    have hmem : ∀ k ∈ last :: before, k ∈ Text.lines script :=
      fun k hk => List.mem_reverse.mp (hlines ▸ hk)
    have hended : l ∈ before.reverse.map dropReturn → ∃ k ∈ Text.lines script, l ⊆ k := by
      intro hl
      obtain ⟨k, hk, rfl⟩ := List.mem_map.mp hl
      refine ⟨k, hmem k (List.mem_cons_of_mem _ (List.mem_reverse.mp hk)), ?_⟩
      rw [dropReturn]
      split
      · exact List.dropLast_subset k
      · exact List.Subset.refl k
    split at h
    · exact hended h
    · rcases List.mem_append.mp h with h | h
      · exact hended h
      · obtain rfl := List.mem_singleton.mp h
        exact ⟨l, hmem l (List.mem_cons_self ..), List.Subset.refl l⟩

theorem newline_not_mem_scriptLines (h : l ∈ scriptLines script) : '\n' ∉ l := by
  obtain ⟨k, hk, hsub⟩ := exists_line_of_mem_scriptLines h
  exact fun hc => not_mem_of_mem_pieces hk (hsub hc)

/-- Where no line ends in a carriage return and the last one is not empty, a file has the lines that
stand between its line feeds. -/
theorem scriptLines_eq_lines (free : ∀ l ∈ lines script, l.getLast? ≠ some '\r') (hne : script ≠ [])
    (hlast : script.getLast? ≠ some '\n') : scriptLines script = lines script := by
  obtain ⟨front, last, hlines⟩ :=
    (List.eq_nil_or_concat' (lines script)).resolve_left (pieces_ne_nil _ _)
  have hjoin : join '\n' (front ++ [last]) = script := by
    rw [← hlines]
    exact join_pieces _ _
  have hfull : last.isEmpty = false := by
    rw [List.isEmpty_eq_false_iff]
    rintro rfl
    by_cases hfront : front = []
    · exact hne (by rw [← hjoin, hfront, List.nil_append, join_singleton])
    · rw [← hjoin, join_append _ hfront (by simp), join_singleton] at hlast
      simp at hlast
  have hended : front.map dropReturn = front := by
    refine (List.map_congr_left fun l hl => ?_).trans (List.map_id' front)
    rw [dropReturn, if_neg (free l (hlines ▸ List.mem_append_left _ hl))]
  rw [scriptLines, hlines, List.reverse_append, List.reverse_singleton, List.singleton_append]
  simp only [hfull, List.reverse_reverse, hended, Bool.false_eq_true, if_false]

/-! ## The code of a section -/

theorem isMarker_of_allBlank (h : l.allBlank = true) : isMarker l = false := by
  have hstart : l.trimStart = [] := List.dropWhile_eq_nil_iff.mpr (List.all_eq_true.mp h)
  rw [isMarker, markerTitle?, hstart]
  decide

theorem filter_isCode (unmarked : ∀ l ∈ own, isMarker l = false) :
    own.filter isCode = own.filter fun l => !l.allBlank := by
  apply List.filter_congr
  intro l hl
  rw [isCode, unmarked l hl, Bool.not_false, Bool.and_true]

/-- The source of a section has the code of its lines. -/
theorem filter_source (free : ∀ l ∈ s.lines, '\n' ∉ l) (unmarked : ∀ l ∈ s.lines, isMarker l = false) :
    (lines s.source).filter (fun l => !l.allBlank) = s.lines.filter isCode := by
  rw [filter_isCode unmarked]
  exact filter_lines_trimOf (p := fun l => !l.allBlank) rfl free

/-- A section whose source is blank has no code. -/
theorem filter_of_blank (free : ∀ l ∈ s.lines, '\n' ∉ l)
    (unmarked : ∀ l ∈ s.lines, isMarker l = false) (blank : s.source.allBlank = true) :
    s.lines.filter isCode = [] := by
  rw [← filter_source free unmarked, List.filter_eq_nil_iff]
  intro l hl
  have hall : l.allBlank = true := List.all_eq_true.mpr fun c hc =>
    List.all_eq_true.mp blank c (mem_of_mem_pieces hl hc)
  simp [hall]

/-- The source of a section has no marker. -/
theorem unmarked_source (free : ∀ l ∈ own, '\n' ∉ l) (unmarked : ∀ l ∈ own, isMarker l = false) :
    ∀ l ∈ lines (trimOf '\n' (unlines own)), isMarker l = false := by
  have hnone : own.filter isMarker = [] :=
    List.filter_eq_nil_iff.mpr fun l hl => by simp [unmarked l hl]
  rw [← filter_lines_trimOf (isMarker_of_allBlank rfl) free, List.filter_eq_nil_iff] at hnone
  exact fun l hl => Bool.eq_false_iff.mpr (hnone l hl)

/-- If no line of a section ends in a carriage return, none of its source does. -/
theorem unreturned_source (free : ∀ l ∈ own, '\n' ∉ l) (h : ∀ l ∈ own, l.getLast? ≠ some '\r') :
    ∀ l ∈ lines (trimOf '\n' (unlines own)), l.getLast? ≠ some '\r' := by
  have hnone : own.filter (fun l => decide (l.getLast? = some '\r')) = [] :=
    List.filter_eq_nil_iff.mpr fun l hl => by simpa using h l hl
  rw [← filter_lines_trimOf (by decide) free, List.filter_eq_nil_iff] at hnone
  exact fun l hl => by simpa using hnone l hl

/-! ## Cells -/

/-- The cell that a section with code becomes, if `n` cells come before it. -/
def ofSection (n : Nat) (s : Section) : Cell where
  title := match s.title with
    | some t => if t = [] then defaultTitle (n + 1) else t
    | none => defaultTitle (n + 1)
  source := s.source

theorem ofSections_cons (n : Nat) (s : Section) (ss : List Section) :
    ofSections n (s :: ss) = if s.source.allBlank then ofSections n ss
      else ofSection n s :: ofSections (n + 1) ss := by
  rw [ofSections, ofSection]
  cases s.title <;> simp

theorem title_ofSection (h : lastMarker? before = s.title) :
    (ofSection n s).title = titleAfter before (n + 1) := by
  rw [ofSection, titleAfter, h]

theorem source_of_mem (h : c ∈ ofSections n ss) : c.source.allBlank = false := by
  induction ss generalizing n with
  | nil => cases h
  | cons s ss ih =>
    rw [ofSections_cons] at h
    split at h
    · exact ih h
    · next hcode =>
      rcases List.mem_cons.mp h with rfl | h
      · exact Bool.eq_false_iff.mpr hcode
      · exact ih h

theorem codeLines_ofSection (n : Nat) (free : ∀ l ∈ own, '\n' ∉ l)
    (unmarked : ∀ l ∈ own, isMarker l = false) :
    (ofSection n ⟨title, own⟩).codeLines = own.filter isCode :=
  filter_source (s := ⟨title, own⟩) free unmarked

/-- The code of the cells is the code of the lines. -/
theorem flatMap_codeLines (h : Divides title ls ss) (free : ∀ l ∈ ls, '\n' ∉ l) (n : Nat) :
    (ofSections n ss).flatMap codeLines = ls.filter isCode := by
  induction h generalizing n with
  | last title own unmarked =>
    rw [ofSections_cons]
    split
    · next blank => exact (filter_of_blank (s := ⟨title, own⟩) free unmarked blank).symm
    · rw [ofSections, List.flatMap_singleton, codeLines_ofSection n free unmarked]
  | next title own unmarked m t marker rest ss h ih =>
    have hown : ∀ l ∈ own, '\n' ∉ l := fun l hl => free l (List.mem_append_left _ hl)
    have hrest : ∀ l ∈ rest, '\n' ∉ l :=
      fun l hl => free l (List.mem_append_right _ (List.mem_cons_of_mem _ hl))
    have hm : isCode m = false := by simp [isCode, isMarker, marker]
    rw [ofSections_cons, List.filter_append, List.filter_cons_of_neg (by simp [hm])]
    split
    · next blank =>
      rw [filter_of_blank (s := ⟨title, own⟩) hown unmarked blank]
      exact ih hrest n
    · rw [List.flatMap_cons, ih hrest (n + 1), codeLines_ofSection n hown unmarked]

/-- The cell of a section stands where the section does, with nothing skipped before it. -/
theorem standsIn_ofSection (n : Nat) (htitle : lastMarker? before = title)
    (opened : ∀ m, before.getLast? = some m → isMarker m = true)
    (unmarked : ∀ l ∈ own, isMarker l = false) (after : List Text)
    (closed : ∀ m, after.head? = some m → isMarker m = true) :
    ∃ skipped own' after', (ofSection n ⟨title, own⟩).StandsIn (before ++ (own ++ after))
        (before ++ skipped) own' after' ∧
      skipped.filter isCode = [] ∧
      (ofSection n ⟨title, own⟩).title = titleAfter (before ++ skipped) (n + 1) := by
  refine ⟨[], own, after, ?_, rfl, ?_⟩
  · rw [List.append_nil]
    exact ⟨(List.append_assoc ..).symm, opened, closed, unmarked, rfl⟩
  · rw [List.append_nil]
    exact title_ofSection (s := ⟨title, own⟩) htitle

/-- Each cell stands after the code of the cells before it, and has its title from the markers before
it. -/
theorem standsIn_of_divides (before : List Text) (h : Divides title ls ss)
    (free : ∀ l ∈ ls, '\n' ∉ l) (htitle : lastMarker? before = title)
    (opened : ∀ m, before.getLast? = some m → isMarker m = true)
    {k : Nat} (hc : (ofSections n ss)[k]? = some c) :
    ∃ skipped own after, c.StandsIn (before ++ ls) (before ++ skipped) own after ∧
      skipped.filter isCode = ((ofSections n ss).take k).flatMap codeLines ∧
      c.title = titleAfter (before ++ skipped) (n + k + 1) := by
  induction h generalizing before n k with
  | last title own unmarked =>
    rw [ofSections_cons] at hc ⊢
    split at hc
    · cases hc
    · next hcode =>
      rw [if_neg hcode]
      cases k with
      | succ k => simp [ofSections] at hc
      | zero =>
        obtain rfl := Option.some.inj hc
        have hfirst := standsIn_ofSection n htitle opened unmarked [] (by simp)
        simpa using hfirst
  | next title own unmarked m t marker rest ss h ih =>
    have hown : ∀ l ∈ own, '\n' ∉ l := fun l hl => free l (List.mem_append_left _ hl)
    have hrest : ∀ l ∈ rest, '\n' ∉ l :=
      fun l hl => free l (List.mem_append_right _ (List.mem_cons_of_mem _ hl))
    have hm : isMarker m = true := by simp [isMarker, marker]
    -- a later cell has this section and its marker before it
    have later : ∀ (n k : Nat), (ofSections n ss)[k]? = some c →
        ∃ skipped own' after, c.StandsIn (before ++ (own ++ m :: rest)) (before ++ skipped) own' after ∧
          skipped.filter isCode =
            own.filter isCode ++ ((ofSections n ss).take k).flatMap codeLines ∧
          c.title = titleAfter (before ++ skipped) (n + k + 1) := by
      intro n k hc
      obtain ⟨skipped, own', after, stands, code, htitle⟩ :=
        ih (before ++ (own ++ [m])) hrest (by simp [lastMarker?, marker])
          (by simp [← List.append_assoc, hm]) hc
      have hcode : isCode m = false := by simp [isCode, hm]
      refine ⟨own ++ m :: skipped, own', after, ?_, ?_, ?_⟩
      · simpa using stands
      · rw [List.filter_append, List.filter_cons_of_neg (by simp [hcode]), code]
      · simpa using htitle
    rw [ofSections_cons] at hc ⊢
    split at hc
    · next blank =>
      rw [if_pos blank]
      have hnone := filter_of_blank (s := ⟨title, own⟩) hown unmarked blank
      simpa only [hnone, List.nil_append] using later n k hc
    · next hcode =>
      rw [if_neg hcode]
      cases k with
      | zero =>
        obtain rfl := Option.some.inj hc
        exact standsIn_ofSection n htitle opened unmarked (m :: rest) (by simpa using hm)
      | succ k =>
        have hlater := later (n + 1) k hc
        rw [Nat.add_right_comm n 1 k, Nat.add_assoc n k 1] at hlater
        simpa only [List.take_succ_cons, List.flatMap_cons,
          codeLines_ofSection n hown unmarked] using hlater

/-- What becomes of a script: the code of its cells is its own, line by line; a source has code, no
marker, and no empty line at either end, and unless lines of the script end in a carriage return its
lines are those of a file; and each cell is what stands between two markers, called by the text on the
last marker before it or else by its place among the cells. -/
theorem split_loses_nothing (script : Text) :
    let cells := split script
    let ls := scriptLines script
    cells.flatMap codeLines = ls.filter isCode ∧
    (∀ c ∈ cells, c.source.allBlank = false ∧ (∀ l ∈ lines c.source, isMarker l = false) ∧
      c.source.head? ≠ some '\n' ∧ c.source.getLast? ≠ some '\n' ∧
      ((∀ l ∈ ls, l.getLast? ≠ some '\r') → scriptLines c.source = lines c.source)) ∧
    ∀ k c, cells[k]? = some c → ∃ before own after, c.StandsIn ls before own after ∧
      before.filter isCode = (cells.take k).flatMap codeLines ∧
      c.title = titleAfter before (k + 1) := by
  intro cells ls
  have free : ∀ l ∈ ls, '\n' ∉ l := fun l hl => newline_not_mem_scriptLines hl
  have divides := divides_sections none ls
  have places : ∀ k c, cells[k]? = some c → ∃ before own after, c.StandsIn ls before own after ∧
      before.filter isCode = (cells.take k).flatMap codeLines ∧
      c.title = titleAfter before (k + 1) := by
    intro k c hc
    obtain ⟨before, own, after, stands, code, htitle⟩ :=
      standsIn_of_divides [] divides free rfl (by simp) hc
    rw [Nat.zero_add] at htitle
    exact ⟨before, own, after, stands, code, htitle⟩
  refine ⟨flatMap_codeLines divides free 0, ?_, places⟩
  intro c hc
  obtain ⟨k, hk⟩ := List.mem_iff_getElem?.mp hc
  obtain ⟨before, own, after, stands, -, -⟩ := places k c hk
  have hsub : ∀ l ∈ own, l ∈ ls := fun l hl => by
    rw [stands.lines]
    exact List.mem_append_left _ (List.mem_append_right _ hl)
  have hown : ∀ l ∈ own, '\n' ∉ l := fun l hl => free l (hsub l hl)
  have code := source_of_mem hc
  rw [stands.source] at code ⊢
  refine ⟨code, unmarked_source hown stands.unmarked, head?_trimOf _ _, getLast?_trimOf _ _, ?_⟩
  intro unreturned
  refine scriptLines_eq_lines (unreturned_source hown fun l hl => unreturned l (hsub l hl)) ?_
    (getLast?_trimOf _ _)
  rintro heq
  rw [heq] at code
  cases code

/-- A script of five sections, two of them without code. -/
theorem split_loses_nothing_skipping :
    let script := "\r\n# %% one\n\n# %% two\r\n x\r\n\n  # %%\n \t\n# %%\n\n\ny\n z".toList
    split script = [⟨"two".toList, " x".toList⟩, ⟨"cell 2".toList, "y\n z".toList⟩] ∧
    (∃ before own after,
      StandsIn ⟨"cell 2".toList, "y\n z".toList⟩ (scriptLines script) before own after ∧
      before.filter isCode = [" x".toList] ∧ "cell 2".toList = titleAfter before 2) := by
  intro script
  have hsplit : split script =
      [⟨"two".toList, " x".toList⟩, ⟨"cell 2".toList, "y\n z".toList⟩] := by decide +kernel
  obtain ⟨-, -, places⟩ := split_loses_nothing script
  obtain ⟨before, own, after, stands, code, htitle⟩ := places 1 _ (by rw [hsplit]; rfl)
  rw [hsplit] at code
  exact ⟨hsplit, before, own, after, stands, code.trans (by decide +kernel), htitle⟩

end NotebookKernels.Cell
