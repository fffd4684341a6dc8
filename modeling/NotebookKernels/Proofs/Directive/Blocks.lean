import NotebookKernels.Proofs.Directive.Embedding
import NotebookKernels.Proofs.Directive.Locality

/- Block directives and their bodies.

   A text opens with a block header in one way at most: blank lines, the line of the header, and the
   body, which is all that comes after that line (`Opens`, `parse?_eq_some_iff`). A known directive is
   handed its arguments and this body and nothing else. That no line directive has a part in it is said
   with other rules for them: `processBy rule` expands line directives by `rule`, and a submission that
   opens with a known block directive is the same under every rule (`bodies_verbatim`). -/
namespace NotebookKernels
open Python Directive

/-! ## Headers -/

namespace BlockHeader

/-- The line of a header: two percent signs and the name, and after a blank the arguments, with blanks
at either end. -/
def StandsOn (h : BlockHeader) (line : Text) : Prop :=
  '\n' ∉ line ∧ (∀ c ∈ h.name, Text.isBlank c = false) ∧
    (line.trim = '%' :: '%' :: h.name ∧ h.args = [] ∨
      ∃ c r, Text.isBlank c = true ∧ line.trim = '%' :: '%' :: (h.name ++ c :: r) ∧ h.args = Text.trim r)

/-- How a text opens with a header. -/
inductive Opens (h : BlockHeader) : Text → Prop
  /-- The header's line is the last one. -/
  | last (blanks : List Text) (line : Text) (blank : ∀ b ∈ blanks, b.allBlank = true ∧ '\n' ∉ b)
      (header : h.StandsOn line) (none : h.body = []) : Opens h (Text.ended blanks ++ line)
  | before (blanks : List Text) (line : Text) (blank : ∀ b ∈ blanks, b.allBlank = true ∧ '\n' ∉ b)
      (header : h.StandsOn line) : Opens h (Text.ended blanks ++ (line ++ '\n' :: h.body))

variable {h : BlockHeader} {t line : Text} {blanks rest : List Text}

/-- What is read off a line, if the lines after it are `rest`. -/
def ofLine? (line : Text) (rest : List Text) : Option BlockHeader :=
  (Text.stripPrefix? ['%', '%'] line.trim).map fun after =>
    ⟨(Text.cutAtBlank after).1, (Text.cutAtBlank after).2, Text.unlines rest⟩

theorem parse?_eq_ofLine? (h : (Text.lines t).dropWhile Text.allBlank = line :: rest) :
    parse? t = ofLine? line rest := by
  rw [parse?, h]
  rfl

theorem ofLine?_eq_some_iff (hline : '\n' ∉ line) :
    ofLine? line rest = some h ↔ h.StandsOn line ∧ h.body = Text.unlines rest := by
  constructor
  · intro hread
    obtain ⟨after, hstrip, rfl⟩ := Option.map_eq_some_iff.mp hread
    have htrim : line.trim = '%' :: '%' :: after := Text.stripPrefix?_eq_some_iff.mp hstrip
    obtain ⟨hname, hcut⟩ :=
      Text.cutAtBlank_eq_iff.mp (rfl : Text.cutAtBlank after = (_, _))
    refine ⟨⟨hline, hname, ?_⟩, rfl⟩
    rcases hcut with ⟨hall, hnone⟩ | ⟨c, r, hc, hafter, hargs⟩
    · exact .inl ⟨htrim.trans (congrArg ('%' :: '%' :: ·) hall), hnone⟩
    · exact .inr ⟨c, r, hc, htrim.trans (congrArg ('%' :: '%' :: ·) hafter), hargs⟩
  · rintro ⟨⟨-, hname, hform⟩, hbody⟩
    have hcut : ∃ after, line.trim = ['%', '%'] ++ after ∧
        Text.cutAtBlank after = (h.name, h.args) := by
      rcases hform with ⟨htrim, hargs⟩ | ⟨c, r, hc, htrim, hargs⟩
      · exact ⟨_, htrim, Text.cutAtBlank_eq_iff.mpr ⟨hname, .inl ⟨rfl, hargs⟩⟩⟩
      · exact ⟨_, htrim, Text.cutAtBlank_eq_iff.mpr ⟨hname, .inr ⟨c, r, hc, rfl, hargs⟩⟩⟩
    obtain ⟨after, htrim, hcut⟩ := hcut
    rw [ofLine?, Text.stripPrefix?_eq_some_iff.mpr htrim, Option.map_some, hcut, ← hbody]

/-- The arguments are part of the line. -/
theorem StandsOn.mem_of_mem_args (header : h.StandsOn line) {c : Char} (hc : c ∈ h.args) :
    c ∈ line := by
  rcases header.2.2 with ⟨-, hargs⟩ | ⟨b, r, -, htrim, hargs⟩
  · rw [hargs] at hc
    cases hc
  · rw [hargs] at hc
    have hrest : c ∈ h.name ++ b :: r :=
      List.mem_append_right _ (List.mem_cons_of_mem _ (Text.mem_of_mem_trim hc))
    apply Text.mem_of_mem_trim
    rw [htrim]
    exact List.mem_cons_of_mem _ (List.mem_cons_of_mem _ hrest)

theorem StandsOn.not_allBlank (header : h.StandsOn line) : line.allBlank = false := by
  have hsign : '%' ∈ line.trim := by
    rcases header.2.2 with ⟨htrim, -⟩ | ⟨c, r, -, htrim, -⟩ <;> rw [htrim] <;>
      exact List.mem_cons_self ..
  rw [Text.allBlank, List.all_eq_false]
  exact ⟨'%', Text.mem_of_mem_trim hsign, by decide⟩

theorem exists_lines_of_dropWhile (h : (Text.lines t).dropWhile Text.allBlank = line :: rest) :
    ∃ blanks : List Text, (∀ b ∈ blanks, b.allBlank = true) ∧
      Text.lines t = blanks ++ line :: rest := by
  refine ⟨(Text.lines t).takeWhile Text.allBlank, fun b hb => List.mem_takeWhile_imp hb, ?_⟩
  rw [← h, List.takeWhile_append_dropWhile]

/-- A text opens with the header that is read off it. -/
theorem opens_of_parse? (hparse : parse? t = some h) : h.Opens t := by
  cases hdrop : (Text.lines t).dropWhile Text.allBlank with
  | nil =>
    rw [parse?, hdrop] at hparse
    cases hparse
  | cons line rest =>
    obtain ⟨blanks, hblank, hlines⟩ := exists_lines_of_dropWhile hdrop
    have nowhere : ∀ l ∈ blanks ++ line :: rest, '\n' ∉ l := by
      rw [← hlines]
      exact fun l hl => Text.not_mem_of_mem_pieces hl
    have blank : ∀ b ∈ blanks, b.allBlank = true ∧ '\n' ∉ b :=
      fun b hb => ⟨hblank b hb, nowhere b (List.mem_append_left _ hb)⟩
    have hline : '\n' ∉ line := nowhere line (List.mem_append_right _ (List.mem_cons_self ..))
    rw [parse?_eq_ofLine? hdrop, ofLine?_eq_some_iff hline] at hparse
    obtain ⟨header, hbody⟩ := hparse
    have ht : t = Text.ended blanks ++ Text.unlines (line :: rest) := by
      rw [← Text.unlines_append (List.cons_ne_nil _ _), ← hlines]
      exact (Text.join_pieces '\n' t).symm
    rw [ht]
    by_cases hrest : rest = []
    · subst hrest
      have hone : Text.unlines [line] = line := Text.join_singleton '\n' line
      rw [hone]
      exact .last _ line blank header hbody
    · have hmore : Text.unlines (line :: rest) = line ++ '\n' :: h.body := by
        rw [hbody]
        exact Text.join_cons hrest line
      rw [hmore]
      exact .before _ line blank header

/-- Where the lines are blank ones, the header's and the rest, that header is read. -/
theorem parse?_of_lines (blank : ∀ b ∈ blanks, b.allBlank = true) (header : h.StandsOn line)
    (ht : Text.lines t = blanks ++ line :: rest) (hbody : h.body = Text.unlines rest) :
    parse? t = some h := by
  have hdrop : (Text.lines t).dropWhile Text.allBlank = line :: rest := by
    rw [ht, List.dropWhile_append_of_pos blank, List.dropWhile_cons_of_neg]
    rw [header.not_allBlank]
    decide
  rw [parse?_eq_ofLine? hdrop]
  exact (ofLine?_eq_some_iff header.1).mpr ⟨header, hbody⟩

theorem Opens.parse? (opens : h.Opens t) : parse? t = some h := by
  cases opens with
  | last blanks line blank header none =>
    have hlines : Text.lines (Text.ended blanks ++ line) = blanks ++ [line] := by
      rw [Text.lines_ended fun b hb => (blank b hb).2]
      exact congrArg (blanks ++ ·) (Text.pieces_of_not_mem header.1)
    exact parse?_of_lines (fun b hb => (blank b hb).1) header hlines none
  | before blanks line blank header =>
    have hline : Text.lines line = [line] := Text.pieces_of_not_mem header.1
    have hlines : Text.lines (Text.ended blanks ++ (line ++ '\n' :: h.body)) =
        blanks ++ (Text.lines line ++ Text.lines h.body) := by
      rw [Text.lines_ended fun b hb => (blank b hb).2]
      exact congrArg (blanks ++ ·) (Text.pieces_append ..)
    rw [hline] at hlines
    exact parse?_of_lines (fun b hb => (blank b hb).1) header hlines
      (Text.join_pieces '\n' h.body).symm

/-- No argument goes beyond the line of the header. -/
theorem Opens.newline_not_mem_args (opens : h.Opens t) : '\n' ∉ h.args := by
  cases opens with
  | last _ _ _ header | before _ _ _ header => exact fun hc => header.1 (header.mem_of_mem_args hc)

/-- A header is read off a text just where the text opens with it. -/
theorem parse?_eq_some_iff : parse? t = some h ↔ h.Opens t := ⟨opens_of_parse?, Opens.parse?⟩

/-- There is a header just where the first line that is not blank, trimmed, starts with two percent
signs. -/
theorem exists_parse?_iff (t : Text) :
    (∃ h, parse? t = some h) ↔
      ∃ l, (Text.lines t).find? (fun l => !l.allBlank) = some l ∧ ['%', '%'] <+: l.trim := by
  rw [List.find?_not_eq_head?_dropWhile]
  cases hdrop : (Text.lines t).dropWhile Text.allBlank with
  | nil => simp [parse?, hdrop]
  | cons line rest =>
    simp only [parse?_eq_ofLine? hdrop, ofLine?, Option.map_eq_some_iff, Text.stripPrefix?_eq_some_iff,
      List.head?_cons, Option.some.injEq]
    constructor
    · rintro ⟨h, after, htrim, -⟩
      exact ⟨line, rfl, after, htrim.symm⟩
    · rintro ⟨l, rfl, after, htrim⟩
      exact ⟨_, after, htrim.symm, rfl⟩

end BlockHeader

namespace Submission

variable {t : Text} {h : BlockHeader} {d : BlockDirective}

/-! ## Bodies -/

/-- What one line contributes, where line directives are expanded by `rule`. -/
def expandLineBy (rule : LineDirective → Text → Expansion) (line : Text) :
    List Text × Option Notice :=
  match lineDirective? line with
  | none => ([line], none)
  | some (d, args) =>
    let r := rule d args
    (if r.text.isEmpty then [] else [indentBy line.indentation r.text], r.notice)

/-- Expands every known directive of a submission, line directives by `rule`. -/
def processBy (rule : LineDirective → Text → Expansion) (t : Text) : Submission :=
  match blockDirective? t with
  | some (d, args, body) =>
    let r := d.expand args body
    ⟨r.text, r.notice.toList⟩
  | none =>
    let parts := (Text.lines t).map (expandLineBy rule)
    ⟨Text.unlines (parts.flatMap (·.1)), parts.filterMap (·.2)⟩

theorem processBy_expand (t : Text) : processBy LineDirective.expand t = process t := rfl

theorem blockDirective?_of_parse? (ht : BlockHeader.parse? t = some h)
    (hd : BlockDirective.ofName? h.name = some d) :
    blockDirective? t = some (d, h.args, h.body) := by
  simp [blockDirective?, ht, hd]

theorem processBy_of_parse? (ht : BlockHeader.parse? t = some h)
    (hd : BlockDirective.ofName? h.name = some d) (rule : LineDirective → Text → Expansion) :
    processBy rule t =
      ⟨(d.expand h.args h.body).text, (d.expand h.args h.body).notice.toList⟩ := by
  rw [processBy, blockDirective?_of_parse? ht hd]

/-- The code around the literals of a file that is written. -/
def writingFrame : List Text := (Branch.block .writefile .usual).sample.expand.code.outside

/-- The literals of a file that is written are worth its body and its name. -/
theorem scan_writefile {args : Text} (h : args ≠ []) (body : Text) :
    scan (BlockDirective.expand .writefile args body).text = some (writingFrame,
      [body, args, "w".toList, "Writing %d bytes to %s".toList, args]) := by
  have hembeds : BlockDirective.embedding? .writefile args body =
      some ⟨.usual, [body, args, "w".toList, "Writing %d bytes to %s".toList, args]⟩ := by
    rw [BlockDirective.embedding?, if_neg (mt List.isEmpty_iff.mp h)]
  have hfits := BlockDirective.fits hembeds
  rw [Expansion.text, scan_render hfits.readable, hfits.values, ← Snippet.outside_shape,
    hfits.shape, Snippet.outside_shape]
  rfl

/-- A text opens with a block header just where its first line that is not blank, trimmed, starts
with two percent signs, and then it is blank lines, the header's line and the body as it stands. If
the header names a known directive, the submission is expanded to what this directive makes of the
header's arguments and the body, under every rule for line directives; and of a file that is written,
the literals are worth the body and the name. -/
theorem bodies_verbatim :
    (∀ t, (∃ h, BlockHeader.parse? t = some h) ↔
      ∃ l, (Text.lines t).find? (fun l => !l.allBlank) = some l ∧ ['%', '%'] <+: l.trim) ∧
    (∀ t h, BlockHeader.parse? t = some h ↔ h.Opens t) ∧
    ∀ t h d, BlockHeader.parse? t = some h → BlockDirective.ofName? h.name = some d →
      process t = ⟨(d.expand h.args h.body).text, (d.expand h.args h.body).notice.toList⟩ ∧
      (∀ rule, processBy rule t = process t) ∧
      (d = .writefile → h.args ≠ [] → scan (process t).code = some (writingFrame,
        [h.body, h.args, "w".toList, "Writing %d bytes to %s".toList, h.args])) := by
  refine ⟨BlockHeader.exists_parse?_iff, fun _ _ => BlockHeader.parse?_eq_some_iff, ?_⟩
  intro t h d ht hd
  have hby := processBy_of_parse? ht hd
  have hprocess := hby LineDirective.expand
  rw [processBy_expand] at hprocess
  refine ⟨hprocess, fun rule => (hby rule).trans hprocess.symm, ?_⟩
  rintro rfl hargs
  rw [hprocess]
  exact scan_writefile hargs h.body

/-- A body with line directives, quotes and blank lines, behind a blank line. -/
def awkwardBody : Text := "%pwd\n\n'''\\\n%%time\n".toList

/-- It is written to the file as it is. -/
theorem bodies_verbatim_awkward :
    BlockHeader.parse? ("\n \t\n  %%writefile  it's.py \n".toList ++ awkwardBody) =
      some ⟨"writefile".toList, "it's.py".toList, awkwardBody⟩ ∧
    scan (process ("\n \t\n  %%writefile  it's.py \n".toList ++ awkwardBody)).code =
      some (writingFrame, [awkwardBody, "it's.py".toList, "w".toList,
        "Writing %d bytes to %s".toList, "it's.py".toList]) := by
  have header : BlockHeader.parse? ("\n \t\n  %%writefile  it's.py \n".toList ++ awkwardBody) =
      some ⟨"writefile".toList, "it's.py".toList, awkwardBody⟩ := by
    decide
  obtain ⟨-, -, verbatim⟩ := bodies_verbatim
  obtain ⟨-, -, written⟩ := verbatim _ _ .writefile header (by decide)
  exact ⟨header, written rfl (by decide)⟩

end Submission

end NotebookKernels
