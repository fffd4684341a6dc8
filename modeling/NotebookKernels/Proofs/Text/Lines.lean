import Mathlib.Data.List.DropRight
import Mathlib.Data.List.TakeWhile
import NotebookKernels.Text.Lines

/- Texts and their lines.

   Cutting at a separator is `List.splitOn`, and joining is its inverse; `ended` puts a line feed after
   every line, not only between lines. Besides that: what trimming and indentation make of blanks at the
   ends, what is cut off at a blank, and `startsLine?`, which tells in one pass from left to right that
   none of a text's lines is empty. -/
namespace NotebookKernels.Text

variable {sep c : Char} {t a b w : Text} {ps qs : List Text} {fresh : Bool}

/-! ## Pieces -/

theorem pieces_eq_splitOn (sep : Char) (t : Text) : pieces sep t = t.splitOn sep := by
  induction t with
  | nil => rfl
  | cons c r ih =>
    rw [pieces, List.splitOn_cons_eq_if_modifyHead, ih]
    by_cases hc : c = sep
    · rw [if_pos hc, if_pos (beq_iff_eq.mpr hc)]
    · rw [if_neg hc, if_neg (mt beq_iff_eq.mp hc)]
      cases hr : r.splitOn sep with
      | nil => exact absurd hr (List.splitOn_ne_nil sep r)
      | cons p ps => rfl

theorem join_pieces (sep : Char) (t : Text) : join sep (pieces sep t) = t := by
  rw [join, pieces_eq_splitOn]
  exact List.intercalate_splitOn sep

/-- Texts without the separator come apart again. -/
theorem pieces_join (hps : ps ≠ []) (h : ∀ p ∈ ps, sep ∉ p) : pieces sep (join sep ps) = ps := by
  rw [join, pieces_eq_splitOn]
  exact List.splitOn_intercalate sep h hps

theorem pieces_append (sep : Char) (a b : Text) :
    pieces sep (a ++ sep :: b) = pieces sep a ++ pieces sep b := by
  simp only [pieces_eq_splitOn]
  exact List.splitOnP_append_cons a b (beq_self_eq_true sep)

theorem pieces_ne_nil (sep : Char) (t : Text) : pieces sep t ≠ [] := by
  rw [pieces_eq_splitOn]
  exact List.splitOn_ne_nil sep t

theorem pieces_of_not_mem (h : sep ∉ t) : pieces sep t = [t] := by
  rw [pieces_eq_splitOn]
  exact List.splitOn_eq_singleton h

theorem not_mem_of_mem_pieces {p : Text} (h : p ∈ pieces sep t) : sep ∉ p := by
  induction t generalizing p with
  | nil =>
    obtain rfl := List.mem_singleton.mp h
    exact List.not_mem_nil
  | cons c r ih =>
    rw [pieces] at h
    split at h
    · rcases List.mem_cons.mp h with rfl | h
      · exact List.not_mem_nil
      · exact ih h
    · next hc =>
      split at h
      · obtain rfl := List.mem_singleton.mp h
        exact fun hsep => hc (List.mem_singleton.mp hsep).symm
      · next q qs hr =>
        rw [hr] at ih
        rcases List.mem_cons.mp h with rfl | h
        · intro hsep
          rcases List.mem_cons.mp hsep with rfl | hsep
          · exact hc rfl
          · exact ih (List.mem_cons_self ..) hsep
        · exact ih (List.mem_cons_of_mem _ h)

theorem join_cons (h : ps ≠ []) (t : Text) : join sep (t :: ps) = t ++ sep :: join sep ps := by
  unfold join
  rw [List.intercalate_cons_of_ne_nil h, List.append_assoc, List.singleton_append]

theorem join_singleton (sep : Char) (t : Text) : join sep [t] = t := List.intercalate_singleton

theorem join_append (sep : Char) (hps : ps ≠ []) (hqs : qs ≠ []) :
    join sep (ps ++ qs) = join sep ps ++ sep :: join sep qs := by
  induction ps with
  | nil => exact absurd rfl hps
  | cons p ps ih =>
    by_cases h : ps = []
    · subst h
      rw [List.singleton_append, join_cons hqs, join_singleton]
    · rw [List.cons_append, join_cons (List.append_ne_nil_of_left_ne_nil h qs), join_cons h, ih h,
        List.append_assoc, List.cons_append]

theorem mem_join {p : Text} (hp : p ∈ ps) (hc : c ∈ p) : c ∈ join sep ps := by
  induction ps with
  | nil => cases hp
  | cons q ps ih =>
    by_cases h : ps = []
    · subst h
      obtain rfl := List.mem_singleton.mp hp
      rwa [join_singleton]
    · rw [join_cons h]
      rcases List.mem_cons.mp hp with rfl | hp
      · exact List.mem_append_left _ hc
      · exact List.mem_append_right _ (List.mem_cons_of_mem _ (ih hp))

theorem mem_of_mem_pieces {p : Text} (hp : p ∈ pieces sep t) (hc : c ∈ p) : c ∈ t := by
  rw [← join_pieces sep t]
  exact mem_join hp hc

/-- The lines with a line feed after each. -/
def ended (ls : List Text) : Text := ls.flatMap (· ++ ['\n'])

theorem ended_cons (l : Text) (ls : List Text) (t : Text) :
    ended (l :: ls) ++ t = l ++ '\n' :: (ended ls ++ t) := by
  rw [ended, List.flatMap_cons, List.append_assoc, List.append_assoc, List.singleton_append]
  rfl

theorem lines_ended {ls : List Text} (h : ∀ l ∈ ls, '\n' ∉ l) (t : Text) :
    lines (ended ls ++ t) = ls ++ lines t := by
  induction ls with
  | nil => rfl
  | cons l ls ih =>
    have hl : lines l = [l] := pieces_of_not_mem (h l (List.mem_cons_self ..))
    calc lines (ended (l :: ls) ++ t)
        = lines l ++ lines (ended ls ++ t) := by
          rw [ended_cons]
          exact pieces_append ..
      _ = l :: ls ++ lines t := by
          rw [hl, ih fun k hk => h k (List.mem_cons_of_mem _ hk)]
          rfl

theorem unlines_append (h : ps ≠ []) (ls : List Text) :
    unlines (ls ++ ps) = ended ls ++ unlines ps := by
  induction ls with
  | nil => rfl
  | cons l ls ih =>
    rw [ended_cons, ← ih]
    exact join_cons (List.append_ne_nil_of_right_ne_nil ls h) l

theorem ended_eq_unlines (h : ps ≠ []) : ended ps = unlines ps ++ ['\n'] := by
  have hended : unlines (ps ++ [[]]) = ended ps ++ unlines [[]] := unlines_append (by simp) ps
  rw [unlines, unlines, join_append _ h (by simp), join_singleton, List.append_nil] at hended
  exact hended.symm

/-- A file has the lines that it was written with, if none of them ends in a carriage return. -/
theorem scriptLines_ended {ls : List Text} (h : ∀ l ∈ ls, '\n' ∉ l)
    (free : ∀ l ∈ ls, l.getLast? ≠ some '\r') : scriptLines (ended ls) = ls := by
  have hlines : lines (ended ls) = ls ++ [[]] := by
    have h := lines_ended h []
    rwa [List.append_nil] at h
  have hkept : ls.map dropReturn = ls := by
    refine (List.map_congr_left fun l hl => ?_).trans (List.map_id' ls)
    rw [dropReturn, if_neg (free l hl)]
  rw [scriptLines, hlines, List.reverse_append, List.reverse_singleton, List.singleton_append]
  simp only [List.isEmpty_nil, List.reverse_reverse, hkept, if_true]

/-! ## Blanks at the ends -/

theorem trim_append (h : ∀ c ∈ w, isBlank c = true) (t : Text) : trim (w ++ t) = trim t := by
  rw [trim, trimStart, List.dropWhile_append_of_pos h]
  rfl

theorem indentation_append (h : ∀ c ∈ w, isBlank c = true) (t : Text) :
    indentation (w ++ t) = w ++ indentation t :=
  List.takeWhile_append_of_pos h

theorem mem_of_mem_trim (h : c ∈ trim t) : c ∈ t := by
  have hstart : c ∈ trimStart t := by
    have hreverse := (List.dropWhile_sublist _).mem (List.mem_reverse.mp h)
    exact List.mem_reverse.mp hreverse
  exact (List.dropWhile_sublist _).mem hstart

theorem mem_of_mem_cutAtBlank (h : c ∈ (cutAtBlank t).2) : c ∈ t :=
  (List.dropWhile_sublist _).mem ((List.drop_sublist 1 _).mem (mem_of_mem_trim h))

theorem head?_trimStart (t : Text) : ∀ c, (trimStart t).head? = some c → isBlank c = false := by
  intro c hc
  have hfirst := List.head?_dropWhile_not isBlank t
  rw [← trimStart, hc] at hfirst
  simpa using hfirst

theorem trimStart_of_head? (h : ∀ c, t.head? = some c → isBlank c = false) : trimStart t = t := by
  cases t with
  | nil => rfl
  | cons c t => exact List.dropWhile_cons_of_neg (by simp [h c rfl])

theorem trimEnd_of_getLast? (h : ∀ c, t.getLast? = some c → isBlank c = false) : trimEnd t = t := by
  have hreverse := trimStart_of_head? (t := t.reverse) fun c hc => h c (by rwa [List.head?_reverse] at hc)
  rw [trimEnd, ← trimStart, hreverse, List.reverse_reverse]

theorem trim_of_ends (first : ∀ c, t.head? = some c → isBlank c = false)
    (last : ∀ c, t.getLast? = some c → isBlank c = false) : trim t = t := by
  rw [trim, trimStart_of_head? first, trimEnd_of_getLast? last]

theorem getLast?_trim (t : Text) : ∀ c, (trim t).getLast? = some c → isBlank c = false := by
  intro c hc
  rw [trim, trimEnd, List.getLast?_reverse] at hc
  exact head?_trimStart _ c hc

theorem head?_trim (t : Text) : ∀ c, (trim t).head? = some c → isBlank c = false := by
  intro c hc
  -- what is left of a text at its end begins as the text does
  obtain ⟨r, hr⟩ : trim t <+: trimStart t := List.rdropWhile_prefix _ _
  refine head?_trimStart t c ?_
  rw [← hr, List.head?_append, hc, Option.some_or]

theorem trim_trim (t : Text) : trim (trim t) = trim t := trim_of_ends (head?_trim t) (getLast?_trim t)

/-- Cutting at a blank gives what stands before the first one, and what stands after it without
blanks at its ends; where there is none, all and nothing. -/
theorem cutAtBlank_eq_iff :
    cutAtBlank t = (a, b) ↔ (∀ c ∈ a, isBlank c = false) ∧
      (t = a ∧ b = [] ∨ ∃ c r, isBlank c = true ∧ t = a ++ c :: r ∧ b = trim r) := by
  constructor
  · intro h
    obtain ⟨rfl, rfl⟩ := Prod.mk.inj h
    have hsplit := List.takeWhile_append_dropWhile (p := fun c => !isBlank c) (l := t)
    refine ⟨fun c hc => ?_, ?_⟩
    · simpa using List.mem_takeWhile_imp hc
    · cases hrest : t.dropWhile fun c => !isBlank c with
      | nil =>
        rw [hrest, List.append_nil] at hsplit
        exact .inl ⟨hsplit.symm, rfl⟩
      | cons c r =>
        have hc : isBlank c = true := by
          have hfirst := List.head_dropWhile_not (fun c => !isBlank c) (l := t) (by simp [hrest])
          simpa [hrest] using hfirst
        rw [hrest] at hsplit
        exact .inr ⟨c, r, hc, hsplit.symm, rfl⟩
  · rintro ⟨hfront, ⟨rfl, rfl⟩ | ⟨c, r, hc, rfl, rfl⟩⟩
    · have hall : ∀ c ∈ t, (!isBlank c) = true := fun c hc => by simp [hfront c hc]
      rw [cutAtBlank, List.takeWhile_eq_self_iff.mpr hall, List.dropWhile_eq_nil_iff.mpr hall]
      rfl
    · have hall : ∀ c ∈ a, (!isBlank c) = true := fun c hc => by simp [hfront c hc]
      rw [cutAtBlank, List.takeWhile_append_of_pos hall, List.dropWhile_append_of_pos hall,
        List.takeWhile_cons_of_neg (by simp [hc]), List.dropWhile_cons_of_neg (by simp [hc]),
        List.append_nil]
      rfl

theorem stripPrefix?_eq_some_iff : stripPrefix? a t = some b ↔ t = a ++ b := by
  rw [stripPrefix?]
  constructor
  · intro h
    split at h
    · next hprefix =>
      obtain ⟨r, rfl⟩ := List.isPrefixOf_iff_prefix.mp hprefix
      obtain rfl := Option.some.inj h
      rw [List.drop_left]
    · cases h
  · rintro rfl
    rw [if_pos (List.isPrefixOf_iff_prefix.mpr (List.prefix_append a b)), List.drop_left]

/-! ## Empty lines -/

/-- Is the last line of the text still empty, if the text comes after an empty or a started line?
Nothing, if an empty line comes to an end in it. -/
def startsLine? : Bool → Text → Option Bool
  | fresh, [] => some fresh
  | fresh, c :: t =>
    if c = '\n' then if fresh then none else startsLine? true t
    else startsLine? false t

theorem startsLine?_append (fresh : Bool) (a b : Text) :
    startsLine? fresh (a ++ b) = (startsLine? fresh a).bind (startsLine? · b) := by
  induction a generalizing fresh with
  | nil => rfl
  | cons c a ih =>
    rw [List.cons_append, startsLine?, startsLine?]
    split
    · split
      · rfl
      · exact ih true
    · exact ih false

theorem startsLine?_of_not_mem (h : '\n' ∉ t) (ht : t ≠ []) : startsLine? fresh t = some false := by
  induction t generalizing fresh with
  | nil => exact absurd rfl ht
  | cons c t ih =>
    rw [List.mem_cons, not_or] at h
    rw [startsLine?, if_neg (Ne.symm h.1)]
    by_cases hempty : t = []
    · rw [hempty, startsLine?]
    · exact ih h.2 hempty

/-- The first line may be empty only where it goes on a started one. -/
theorem lines_of_startsLine? (h : startsLine? fresh t = some false) :
    ∃ l ls, lines t = l :: ls ∧ (fresh = true → l ≠ []) ∧ ∀ k ∈ ls, k ≠ [] := by
  induction t generalizing fresh with
  | nil =>
    obtain rfl : fresh = false := Option.some.inj h
    exact ⟨[], [], rfl, by simp, by simp⟩
  | cons c t ih =>
    rw [startsLine?] at h
    split at h
    · next hc =>
      split at h
      · cases h
      · next hfresh =>
        obtain ⟨l, ls, hlines, hl, hls⟩ := ih h
        refine ⟨[], lines t, by rw [lines, pieces, if_pos hc], fun hf => absurd hf hfresh, ?_⟩
        intro k hk
        rw [hlines] at hk
        rcases List.mem_cons.mp hk with rfl | hk
        · exact hl rfl
        · exact hls k hk
    · next hc =>
      obtain ⟨l, ls, hlines, -, hls⟩ := ih h
      refine ⟨c :: l, ls, ?_, fun _ => by simp, hls⟩
      rw [lines, pieces, if_neg hc]
      unfold lines at hlines
      rw [hlines]

theorem ne_nil_of_mem_lines (h : startsLine? true t = some false) : ∀ l ∈ lines t, l ≠ [] := by
  obtain ⟨l, ls, hlines, hl, hls⟩ := lines_of_startsLine? h
  intro k hk
  rw [hlines] at hk
  rcases List.mem_cons.mp hk with rfl | hk
  · exact hl rfl
  · exact hls k hk

/-! ## Empty lines at either end -/

theorem dropWhile_join (h : ∀ p ∈ ps, sep ∉ p) :
    (join sep ps).dropWhile (· = sep) = join sep (ps.dropWhile List.isEmpty) := by
  induction ps with
  | nil => rfl
  | cons p ps ih =>
    cases p with
    | nil =>
      rw [List.dropWhile_cons_of_pos rfl, ← ih fun q hq => h q (List.mem_cons_of_mem _ hq)]
      by_cases hps : ps = []
      · subst hps
        rfl
      · rw [join_cons hps, List.nil_append, List.dropWhile_cons_of_pos (by simp)]
    | cons c r =>
      have hc : c ≠ sep := by
        rintro rfl
        exact h _ (List.mem_cons_self ..) (List.mem_cons_self ..)
      have hjoin : ∃ s, join sep ((c :: r) :: ps) = c :: s := by
        by_cases hps : ps = []
        · exact ⟨r, by rw [hps, join_singleton]⟩
        · exact ⟨_, join_cons hps _⟩
      obtain ⟨s, hs⟩ := hjoin
      rw [List.dropWhile_cons_of_neg (by simp), hs, List.dropWhile_cons_of_neg (by simpa using hc)]

theorem rdropWhile_join (h : ∀ p ∈ ps, sep ∉ p) :
    (join sep ps).rdropWhile (· = sep) = join sep (ps.rdropWhile List.isEmpty) := by
  induction ps using List.reverseRecOn with
  | nil => rfl
  | append_singleton ps p ih =>
    have hps : ∀ q ∈ ps, sep ∉ q := fun q hq => h q (List.mem_append_left _ hq)
    -- before the last line comes nothing, or lines and a separator
    have hjoin : ∃ s, join sep (ps ++ [p]) = s ++ p ∧
        s.rdropWhile (· = sep) = (join sep ps).rdropWhile (· = sep) := by
      by_cases hnil : ps = []
      · exact ⟨[], by simp [hnil, join_singleton], by simp [hnil, join]⟩
      · refine ⟨join sep ps ++ [sep], ?_, List.rdropWhile_concat_pos _ _ _ (by simp)⟩
        rw [join_append sep hnil (by simp), join_singleton, List.append_assoc,
          List.singleton_append]
    obtain ⟨s, hs, hdrop⟩ := hjoin
    by_cases hp : p = []
    · subst hp
      rw [List.rdropWhile_concat_pos _ _ _ rfl, ← ih hps, hs, List.append_nil, hdrop]
    · obtain ⟨r, c, rfl⟩ := (List.eq_nil_or_concat' p).resolve_left hp
      have hc : c ≠ sep := by
        rintro rfl
        exact h _ (List.mem_append_right _ (List.mem_singleton_self _)) (by simp)
      rw [List.rdropWhile_concat_neg _ _ _ (by simp), hs, ← List.append_assoc,
        List.rdropWhile_concat_neg _ _ _ (by simpa using hc)]

/-- To trim separators is to leave out the empty parts at either end. -/
theorem trimOf_join (h : ∀ p ∈ ps, sep ∉ p) :
    trimOf sep (join sep ps) =
      join sep ((ps.dropWhile List.isEmpty).rdropWhile List.isEmpty) := by
  have hfront : ∀ p ∈ ps.dropWhile List.isEmpty, sep ∉ p :=
    fun p hp => h p ((List.dropWhile_sublist _).mem hp)
  rw [← rdropWhile_join hfront, ← dropWhile_join h]
  rfl

theorem filter_trimmed {p : Text → Bool} (hp : p [] = false) (ls : List Text) :
    ((ls.dropWhile List.isEmpty).rdropWhile List.isEmpty).filter p = ls.filter p := by
  have hempty : ∀ l : Text, l.isEmpty = true → ¬p l = true := by
    intro l hl
    rw [List.isEmpty_iff.mp hl, hp]
    decide
  have hfront : (ls.takeWhile List.isEmpty).filter p = [] :=
    List.filter_eq_nil_iff.mpr fun l hl => hempty l (List.mem_takeWhile_imp hl)
  have hback : ((ls.dropWhile List.isEmpty).rtakeWhile List.isEmpty).filter p = [] :=
    List.filter_eq_nil_iff.mpr fun l hl => hempty l (List.mem_rtakeWhile_imp hl)
  calc ((ls.dropWhile List.isEmpty).rdropWhile List.isEmpty).filter p
      = (ls.dropWhile List.isEmpty).filter p := by
        conv_rhs => rw [← List.rdropWhile_append_rtakeWhile (p := List.isEmpty)
          (l := ls.dropWhile List.isEmpty)]
        rw [List.filter_append, hback, List.append_nil]
    _ = ls.filter p := by
        conv_rhs => rw [← List.takeWhile_append_dropWhile (p := List.isEmpty) (l := ls)]
        rw [List.filter_append, hfront, List.nil_append]

/-- A text loses no line that is not empty when it is trimmed. -/
theorem filter_lines_trimOf {p : Text → Bool} (hp : p [] = false) {ls : List Text}
    (h : ∀ l ∈ ls, '\n' ∉ l) :
    (lines (trimOf '\n' (unlines ls))).filter p = ls.filter p := by
  rw [trimOf_join h, ← filter_trimmed hp ls]
  by_cases hnil : (ls.dropWhile List.isEmpty).rdropWhile List.isEmpty = []
  · rw [hnil]
    simp [lines, join, pieces, hp]
  · have hsub : ((ls.dropWhile List.isEmpty).rdropWhile List.isEmpty).Sublist ls :=
      (List.rdropWhile_prefix _ _).sublist.trans (List.dropWhile_sublist _)
    rw [lines, pieces_join hnil fun l hl => h l (hsub.mem hl)]

theorem head?_trimOf (c : Char) (t : Text) : (trimOf c t).head? ≠ some c := by
  intro h
  obtain ⟨r, hr⟩ : trimOf c t <+: t.dropWhile (· = c) := List.rdropWhile_prefix _ _
  have hfirst := List.head?_dropWhile_not (fun d => decide (d = c)) t
  rw [← hr, List.head?_append, h] at hfirst
  simp at hfirst

theorem getLast?_trimOf (c : Char) (t : Text) : (trimOf c t).getLast? ≠ some c := by
  intro h
  have hfirst := List.head?_dropWhile_not (fun d => decide (d = c))
    (t.dropWhile (· = c)).reverse
  rw [trimOf, List.getLast?_reverse] at h
  rw [h] at hfirst
  simp at hfirst

end NotebookKernels.Text
