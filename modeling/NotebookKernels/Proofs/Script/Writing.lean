import NotebookKernels.Proofs.Json.Numeral
import NotebookKernels.Proofs.Script.Cells

/- Cells written as a script.

   A cell is written as a marker with its title, and then its source. Any list of cells whose titles and
   sources are such as a script can give them (`IsPlain`) comes back when its script is split
   (`split_written`): no line of a source is a marker, and at the ends of titles and sources there is
   nothing to trim. The cells of a script are plain, those without a title of their own too: the title
   that they get is one that a marker could have given them (`isPlain_of_mem_split`). -/
namespace NotebookKernels.Cell
open Text

variable {script gap : Text} {ls own rest : List Text} {ss : List Section} {s : Section}
  {title : Option Text} {n : Nat} {c : Cell} {cells : List Cell}

/-- The cell as a part of a script: a marker with the title after a gap, the source, and a line feed. -/
def written (gap : Text) (c : Cell) : Text :=
  marker ++ gap ++ c.title ++ '\n' :: (c.source ++ ['\n'])

/-- The lines of the cell as a part of a script. -/
def writtenLines (gap : Text) (c : Cell) : List Text := (marker ++ gap ++ c.title) :: lines c.source

/-- The section that the cell is written as. -/
def toSection (c : Cell) : Section := ⟨some c.title, lines c.source⟩

/-- The title is a line without blanks at its ends. -/
structure IsTitle (t : Text) : Prop where
  nonempty : t ≠ []
  trimmed : t.trim = t
  unbroken : '\n' ∉ t

/-- The title and the source are such as a script can give them. -/
structure IsPlain (c : Cell) : Prop where
  title : IsTitle c.title
  code : c.source.allBlank = false
  first : c.source.head? ≠ some '\n'
  last : c.source.getLast? ≠ some '\n'
  unmarked : ∀ l ∈ lines c.source, isMarker l = false
  unreturned : ∀ l ∈ lines c.source, l.getLast? ≠ some '\r'

/-! ## The lines of a written script -/

theorem written_eq_ended (gap : Text) (c : Cell) : c.written gap = ended (c.writtenLines gap) := by
  have hsource : ended (lines c.source) = c.source ++ ['\n'] := by
    rw [ended_eq_unlines (pieces_ne_nil _ _), unlines, join_pieces]
  have hended := ended_cons (marker ++ gap ++ c.title) (lines c.source) []
  rw [List.append_nil, List.append_nil, hsource] at hended
  exact hended.symm

theorem flatMap_written (gap : Text) (cells : List Cell) :
    cells.flatMap (written gap) = ended (cells.flatMap (writtenLines gap)) := by
  rw [ended, List.flatMap_assoc]
  exact List.flatMap_congr fun c _ => written_eq_ended gap c

/-- The marker reads as the title that it was written with. -/
theorem markerTitle?_written (hgap : ∀ d ∈ gap, isBlank d = true) (h : IsTitle c.title) :
    markerTitle? (marker ++ gap ++ c.title) = some c.title := by
  have hstart : trimStart (marker ++ gap ++ c.title) = marker ++ (gap ++ c.title) := by
    rw [List.append_assoc]
    exact List.dropWhile_cons_of_neg (by decide)
  have hstrip : stripPrefix? marker (marker ++ (gap ++ c.title)) = some (gap ++ c.title) :=
    stripPrefix?_eq_some_iff.mpr rfl
  rw [markerTitle?, hstart, hstrip, Option.map_some, trim_append hgap, h.trimmed]

/-- The marker is a line of its own, and keeps its end. -/
theorem IsTitle.line (h : IsTitle c.title) (hgap : '\n' ∉ gap) :
    '\n' ∉ marker ++ gap ++ c.title ∧ (marker ++ gap ++ c.title).getLast? ≠ some '\r' := by
  constructor
  · simp only [List.mem_append, not_or]
    exact ⟨⟨by decide, hgap⟩, h.unbroken⟩
  · rw [List.getLast?_append_of_ne_nil _ h.nonempty]
    intro hlast
    have hblank := getLast?_trim c.title '\r' (by rw [h.trimmed, hlast])
    exact absurd hblank (by decide)

theorem scriptLines_written (hgap : '\n' ∉ gap) (plain : ∀ c ∈ cells, IsPlain c) :
    scriptLines (cells.flatMap (written gap)) = cells.flatMap (writtenLines gap) := by
  have hline : ∀ l ∈ cells.flatMap (writtenLines gap), '\n' ∉ l ∧ l.getLast? ≠ some '\r' := by
    intro l hl
    obtain ⟨c, hc, hl⟩ := List.mem_flatMap.mp hl
    rcases List.mem_cons.mp hl with rfl | hl
    · exact (plain c hc).title.line hgap
    · exact ⟨not_mem_of_mem_pieces hl, (plain c hc).unreturned l hl⟩
  rw [flatMap_written]
  exact scriptLines_ended (fun l hl => (hline l hl).1) fun l hl => (hline l hl).2

/-! ## The sections of a written script -/

theorem sections_of_marker {m t : Text} (h : markerTitle? m = some t) :
    sections title (m :: rest) = ⟨title, []⟩ :: sections (some t) rest := by
  rw [sections, h]

theorem sections_append (unmarked : ∀ l ∈ own, isMarker l = false)
    (h : sections title rest = s :: ss) :
    sections title (own ++ rest) = ⟨s.title, own ++ s.lines⟩ :: ss := by
  induction own with
  | nil => exact h
  | cons l own ih =>
    have hl : markerTitle? l = none := by
      simpa [isMarker] using unmarked l (List.mem_cons_self ..)
    rw [List.cons_append, sections, hl, ih fun k hk => unmarked k (List.mem_cons_of_mem _ hk)]
    rfl

/-- What is written before a written cell, and each cell, is a section of its own. -/
theorem sections_written (hgap : ∀ d ∈ gap, isBlank d = true) (plain : ∀ c ∈ cells, IsPlain c)
    (unmarked : ∀ l ∈ own, isMarker l = false) (title : Option Text) :
    sections title (own ++ cells.flatMap (writtenLines gap)) =
      ⟨title, own⟩ :: cells.map toSection := by
  induction cells generalizing title own with
  | nil =>
    have hend : sections title [] = [⟨title, []⟩] := rfl
    simpa using sections_append unmarked hend
  | cons c cells ih =>
    have hc := plain c (List.mem_cons_self ..)
    have hrest := ih (fun d hd => plain d (List.mem_cons_of_mem _ hd)) hc.unmarked (some c.title)
    have hmarker : sections title ((c :: cells).flatMap (writtenLines gap)) =
        ⟨title, []⟩ :: (c :: cells).map toSection := by
      rw [List.flatMap_cons, writtenLines, List.cons_append,
        sections_of_marker (markerTitle?_written hgap hc.title), hrest]
      rfl
    have h := sections_append unmarked hmarker
    rwa [List.append_nil] at h

theorem trimOf_of_ends {d : Char} {t : Text} (first : t.head? ≠ some d) (last : t.getLast? ≠ some d) :
    trimOf d t = t := by
  have hstart : ∀ u : Text, u.head? ≠ some d → u.dropWhile (· = d) = u := by
    intro u hu
    cases u with
    | nil => rfl
    | cons e u => exact List.dropWhile_cons_of_neg (by simpa using hu)
  rw [trimOf, hstart t first, hstart t.reverse (by rwa [List.head?_reverse]), List.reverse_reverse]

theorem IsPlain.ofSection (h : c.IsPlain) (n : Nat) : ofSection n c.toSection = c := by
  have hsource : c.toSection.source = c.source := by
    rw [Section.source, toSection, unlines, join_pieces]
    exact trimOf_of_ends h.first h.last
  have htitle : (Cell.ofSection n c.toSection).title = c.title := if_neg h.title.nonempty
  exact congrArg₂ Cell.mk htitle hsource

theorem ofSections_written (plain : ∀ c ∈ cells, IsPlain c) (n : Nat) :
    ofSections n (cells.map toSection) = cells := by
  induction cells generalizing n with
  | nil => rfl
  | cons c cells ih =>
    have hc := plain c (List.mem_cons_self ..)
    have hcell := hc.ofSection n
    have hcode : c.toSection.source.allBlank = false :=
      (congrArg (fun d : Cell => d.source.allBlank) hcell).trans hc.code
    rw [List.map_cons, ofSections_cons, hcell, if_neg (by simp [hcode]),
      ih fun d hd => plain d (List.mem_cons_of_mem _ hd)]

/-- Plain cells are what their script is split into. -/
theorem split_written (hgap : ∀ d ∈ gap, isBlank d = true ∧ d ≠ '\n')
    (plain : ∀ c ∈ cells, IsPlain c) : split (cells.flatMap (written gap)) = cells := by
  have unmarked : ∀ l ∈ ([] : List Text), isMarker l = false := by simp
  have hsections : sections none (cells.flatMap (writtenLines gap)) =
      ⟨none, []⟩ :: cells.map toSection :=
    sections_written (fun d hd => (hgap d hd).1) plain unmarked none
  rw [split, scriptLines_written (fun h => (hgap _ h).2 rfl) plain, hsections, ofSections_cons,
    if_pos (by decide), ofSections_written plain]

/-! ## The cells of a script -/

/-- A cell comes from a section that has code. -/
theorem mem_ofSections (h : c ∈ ofSections n ss) :
    ∃ s ∈ ss, ∃ k, c = ofSection k s ∧ s.source.allBlank = false := by
  induction ss generalizing n with
  | nil => cases h
  | cons s ss ih =>
    have later : ∀ {k}, c ∈ ofSections k ss →
        ∃ r ∈ s :: ss, ∃ k, c = ofSection k r ∧ r.source.allBlank = false := by
      intro k hk
      obtain ⟨r, hr, hcell⟩ := ih hk
      exact ⟨r, List.mem_cons_of_mem _ hr, hcell⟩
    rw [ofSections_cons] at h
    split at h
    · exact later h
    · next hcode =>
      rcases List.mem_cons.mp h with rfl | h
      · exact ⟨s, List.mem_cons_self .., n, rfl, Bool.eq_false_iff.mpr hcode⟩
      · exact later h

/-- A section has lines that are no markers, and its title from one that is, if not from before. -/
theorem Divides.of_mem (h : Divides title ls ss) (hs : s ∈ ss) :
    (∀ l ∈ s.lines, l ∈ ls ∧ isMarker l = false) ∧
      (s.title = title ∨ ∃ m ∈ ls, s.title = markerTitle? m) := by
  induction h with
  | last title own unmarked =>
    obtain rfl := List.mem_singleton.mp hs
    exact ⟨fun l hl => ⟨hl, unmarked l hl⟩, .inl rfl⟩
  | next title own unmarked m t marker rest ss h ih =>
    have hrest : ∀ l ∈ rest, l ∈ own ++ m :: rest :=
      fun l hl => List.mem_append_right _ (List.mem_cons_of_mem _ hl)
    rcases List.mem_cons.mp hs with rfl | hs
    · exact ⟨fun l hl => ⟨List.mem_append_left _ hl, unmarked l hl⟩, .inl rfl⟩
    · obtain ⟨hlines, htitle⟩ := ih hs
      refine ⟨fun l hl => ⟨hrest l (hlines l hl).1, (hlines l hl).2⟩, .inr ?_⟩
      rcases htitle with htitle | ⟨k, hk, htitle⟩
      · exact ⟨m, by simp, htitle.trans marker.symm⟩
      · exact ⟨k, hrest k hk, htitle⟩

theorem isTitle_defaultTitle (n : Nat) : IsTitle (defaultTitle n) := by
  obtain ⟨ds, hds, htext⟩ := Decimal.text_eq n
  have hnonempty : Decimal.text n ≠ [] := by
    rcases hds.leading with rfl | ⟨d, r, rfl⟩ <;> simp [htext]
  have key : ∀ d : Fin 10, isBlank (Decimal.digitChar d) = false ∧ Decimal.digitChar d ≠ '\n' := by
    decide
  have hdigit : ∀ d ∈ Decimal.text n, isBlank d = false ∧ d ≠ '\n' := by
    intro d hd
    rw [htext] at hd
    obtain ⟨k, hk, rfl⟩ := List.mem_map.mp hd
    exact key ⟨k, hds.below k hk⟩
  refine ⟨by simp [defaultTitle], trim_of_ends ?_ ?_, ?_⟩
  · rintro d ⟨⟩
    decide
  · intro d hd
    rw [defaultTitle, List.getLast?_append_of_ne_nil _ hnonempty] at hd
    exact (hdigit d (List.mem_of_getLast? hd)).1
  · rw [defaultTitle, List.mem_append, not_or]
    exact ⟨by decide, fun hd => (hdigit _ hd).2 rfl⟩

/-- The text on a marker is a title, if there is one. -/
theorem isTitle_of_markerTitle? {l t : Text} (free : '\n' ∉ l) (h : markerTitle? l = some t)
    (hne : t ≠ []) : IsTitle t := by
  obtain ⟨r, hstrip, rfl⟩ := Option.map_eq_some_iff.mp h
  have hl : l.trimStart = marker ++ r := stripPrefix?_eq_some_iff.mp hstrip
  refine ⟨hne, trim_trim r, fun hbreak => free ?_⟩
  have hmem : '\n' ∈ l.trimStart := hl ▸ List.mem_append_right _ (mem_of_mem_trim hbreak)
  exact (List.dropWhile_sublist _).mem hmem

theorem isTitle_ofSection (n : Nat) (h : s.title = none ∨ ∃ m, '\n' ∉ m ∧ s.title = markerTitle? m) :
    IsTitle (ofSection n s).title := by
  rw [ofSection]
  cases htitle : s.title with
  | none => exact isTitle_defaultTitle _
  | some t =>
    obtain ⟨m, hfree, hm⟩ := h.resolve_left (by simp [htitle])
    dsimp only
    split
    · exact isTitle_defaultTitle _
    · next hne => exact isTitle_of_markerTitle? hfree (hm.symm.trans htitle) hne

/-- The cells of a script none of whose lines ends in a carriage return are plain. -/
theorem isPlain_of_mem_split (free : ∀ l ∈ scriptLines script, l.getLast? ≠ some '\r')
    (h : c ∈ split script) : IsPlain c := by
  have hline : ∀ l ∈ scriptLines script, '\n' ∉ l := fun l hl => newline_not_mem_scriptLines hl
  obtain ⟨s, hs, n, rfl, hcode⟩ := mem_ofSections h
  obtain ⟨hlines, htitle⟩ := (divides_sections none (scriptLines script)).of_mem hs
  have hown : ∀ l ∈ s.lines, '\n' ∉ l := fun l hl => hline l (hlines l hl).1
  refine ⟨isTitle_ofSection n ?_, hcode, head?_trimOf _ _, getLast?_trimOf _ _,
    unmarked_source hown fun l hl => (hlines l hl).2,
    unreturned_source hown fun l hl => free l (hlines l hl).1⟩
  exact htitle.imp_right fun ⟨m, hm, heq⟩ => ⟨m, hline m hm, heq⟩

/-- Writing the cells of a script down and splitting what was written gives the same cells, whatever
blanks stand between the markers and the titles, unless the script has carriage returns. -/
theorem split_written_split (script gap : Text) (free : '\r' ∉ script)
    (hgap : ∀ d ∈ gap, isBlank d = true ∧ d ≠ '\n') :
    split ((split script).flatMap (written gap)) = split script := by
  refine split_written hgap fun c hc => isPlain_of_mem_split (fun l hl hlast => ?_) hc
  obtain ⟨k, hk, hsub⟩ := exists_line_of_mem_scriptLines hl
  exact free (mem_of_mem_pieces hk (hsub (List.mem_of_getLast? hlast)))

/-- A script with cells without titles and without code, and blanks at the ends of titles and sources. -/
theorem split_written_split_untitled :
    let script := "\n  x\n \n# %%\n\n\n  # %%  a %% b\t\n\n\ty\n\nz \n\n".toList
    split script = [⟨"cell 1".toList, "  x\n ".toList⟩, ⟨"a %% b".toList, "\ty\n\nz ".toList⟩] ∧
    (split script).flatMap (written [' ']) =
      "# %% cell 1\n  x\n \n# %% a %% b\n\ty\n\nz \n".toList ∧
    split ((split script).flatMap (written [' '])) = split script := by
  intro script
  have hsplit : split script =
      [⟨"cell 1".toList, "  x\n ".toList⟩, ⟨"a %% b".toList, "\ty\n\nz ".toList⟩] := by
    decide +kernel
  have free : '\r' ∉ script := by decide +kernel
  have hgap : ∀ d ∈ [' '], isBlank d = true ∧ d ≠ '\n' := List.forall_mem_singleton.mpr (by decide)
  refine ⟨hsplit, ?_, split_written_split script [' '] free hgap⟩
  rw [hsplit]
  decide +kernel

end NotebookKernels.Cell
