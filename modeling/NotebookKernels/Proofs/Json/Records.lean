import NotebookKernels.Json.Record
import NotebookKernels.Proofs.Json.Reading

/- Records read from objects.

   An object with text for every name (`named`) gives a record its declared fields, wherever they stand
   and whatever stands between them, if none of them is repeated (`record?_named`, `Scattered.record?`).
   What a value is written as can always be made a value again (`exists_value?_ofValue`). -/
namespace NotebookKernels.Json.Source

variable {names : List String} {fs : List (String × Source)} {k : String} {s : Source}

/-- The fields with one of these names. -/
def among (names : List String) (fs : List (String × Source)) : List (String × Source) :=
  fs.filter fun f => names.contains f.1

theorem among_sublist {more : List String} (h : names ⊆ more) (fs : List (String × Source)) :
    (among names fs).Sublist (among more fs) := by
  have hfilter : among names fs = (among more fs).filter fun f => names.contains f.1 := by
    rw [among, among, List.filter_filter]
    apply List.filter_congr
    intro f _
    by_cases hf : f.1 ∈ names
    · simp [hf, h hf]
    · simp [hf]
  rw [hfilter]
  exact List.filter_sublist

/-- A field that is not repeated is the only one of its name. -/
theorem among_singleton (once : ((among [k] fs).map (·.1)).Nodup) (h : (k, s) ∈ fs) :
    among [k] fs = [(k, s)] := by
  have hmem : (k, s) ∈ among [k] fs := List.mem_filter.mpr ⟨h, by simp⟩
  have hname : ∀ f ∈ among [k] fs, f.1 = k := by
    intro f hf
    simpa using (List.mem_filter.mp hf).2
  cases hfields : among [k] fs with
  | nil =>
    rw [hfields] at hmem
    cases hmem
  | cons f rest =>
    rw [hfields] at once hname hmem
    have hrest : rest = [] := by
      rw [List.eq_nil_iff_forall_not_mem]
      intro g hg
      have hsame : g.1 = f.1 :=
        (hname g (List.mem_cons_of_mem _ hg)).trans (hname f (List.mem_cons_self ..)).symm
      exact (List.nodup_cons.mp once).1 (List.mem_map.mpr ⟨g, hg, hsame⟩)
    subst hrest
    rw [List.mem_singleton.mp hmem]

theorem lookup_of_mem (once : (fs.map (·.1)).Nodup) (h : (k, s) ∈ fs) : fs.lookup k = some s := by
  induction fs with
  | nil => cases h
  | cons f fs ih =>
    obtain ⟨hfresh, once⟩ := List.nodup_cons.mp once
    rw [List.lookup_cons]
    rcases List.mem_cons.mp h with rfl | h
    · rw [beq_self_eq_true]
    · have hne : k ≠ f.1 := fun heq => hfresh (List.mem_map.mpr ⟨(k, s), h, heq⟩)
      rw [beq_false_of_ne hne]
      exact ih once h

/-- Where no declared field is repeated, the declared fields are found. -/
theorem declared?_named (once : ((among names fs).map (·.1)).Nodup) :
    declared? names (named fs) = some (among names fs) := by
  induction fs with
  | nil => rfl
  | cons f fs ih =>
    have hcons : named (f :: fs) = (some f.1, f.2) :: named fs := rfl
    by_cases hdeclared : f.1 ∈ names
    · have htake : among names (f :: fs) = f :: among names fs :=
        List.filter_cons_of_pos (by simpa using hdeclared)
      rw [htake] at once ⊢
      obtain ⟨hfresh, once⟩ := List.nodup_cons.mp once
      have hnone : (among names fs).lookup f.1 = none := by
        rw [List.lookup_eq_none_iff]
        intro g hg
        rw [bne_iff_ne]
        exact fun heq => hfresh (List.mem_map.mpr ⟨g, hg, heq.symm⟩)
      simp [hcons, declared?, ih once, hdeclared, hnone]
    · have hskip : among names (f :: fs) = among names fs :=
        List.filter_cons_of_neg (by simpa using hdeclared)
      rw [hskip] at once ⊢
      simp [hcons, declared?, ih once, hdeclared]

/-- An object gives a record those of its fields that are declared. -/
theorem record?_object (once : ((among names fs).map (·.1)).Nodup) :
    (Source.object (named fs)).record? names = some ⟨false, among names fs⟩ := by
  rw [record?, declared?_named once]
  rfl

/-- A record has every declared field that its object has. -/
theorem record?_named (once : ((among names fs).map (·.1)).Nodup) :
    ∃ r, (Source.object (named fs)).record? names = some r ∧
      ∀ k ∈ names, ∀ s, (k, s) ∈ fs → r.given.lookup k = some s := by
  refine ⟨_, record?_object once, fun k hk s hs => ?_⟩
  exact lookup_of_mem once (List.mem_filter.mpr ⟨hs, by simpa using hk⟩)

theorem lookup_among (hk : k ∈ names) (fs : List (String × Source)) :
    (among names fs).lookup k = fs.lookup k := by
  induction fs with
  | nil => rfl
  | cons f fs ih =>
    rw [List.lookup_cons]
    by_cases hf : k = f.1
    · subst hf
      have htake : among names (f :: fs) = f :: among names fs :=
        List.filter_cons_of_pos (by simpa using hk)
      rw [htake, List.lookup_cons, beq_self_eq_true]
    · rw [beq_false_of_ne hf, ← ih, among, List.filter_cons]
      split
      · rw [List.lookup_cons, beq_false_of_ne hf]
        rfl
      · rfl

theorem lookup_ofValue (fs : List (String × Json)) (k : String) :
    (fs.map fun f => (f.1, ofValue f.2)).lookup k = (fs.lookup k).map ofValue := by
  induction fs with
  | nil => rfl
  | cons f fs ih =>
    rw [List.map_cons, List.lookup_cons, List.lookup_cons, ih]
    cases k == f.1 <;> rfl

section Given

variable {α : Type} {r : Record} {read : Source → Option α} {a : α}

theorem required_of_lookup (h : r.given.lookup k = some s) (hread : read s = some a) :
    r.required k read = some a := by
  rw [Record.required, h, Option.bind_some, hread]

theorem orElse_of_lookup (h : r.given.lookup k = some s) (default : α) (hread : read s = some a) :
    r.orElse k default read = some a := by
  rw [Record.orElse, h]
  exact hread

theorem optional_of_lookup {a : Option α} (h : r.given.lookup k = some s)
    (hread : Record.nullable read s = some a) : r.optional k read = some a := by
  rw [Record.optional, h]
  exact hread

end Given

/-- The ways to write a record with these fields as an object: the fields stand in any order, with others
between them whose names are not declared. -/
inductive Scattered (names : List String) (own : List (String × Source)) : Source → Prop
  | mk {fs more : List (String × Source)} (order : fs.Perm (own ++ more))
    (unknown : ∀ f ∈ more, f.1 ∉ names) : Scattered names own (.object (named fs))

theorem Scattered.plain (names : List String) (own : List (String × Source)) :
    Scattered names own (.object (named own)) :=
  @Scattered.mk names own own [] (by rw [List.append_nil]) (by simp)

/-- Fields that are not declared do not repeat those that are. -/
theorem Scattered.fields {own : List (String × Source)} (h : Scattered names own s)
    (once : (own.map (·.1)).Nodup) :
    ∃ fs, s = .object (named fs) ∧ ((among names fs).map (·.1)).Nodup ∧ ∀ f ∈ own, f ∈ fs := by
  obtain @⟨fs, more, order, unknown⟩ := h
  refine ⟨fs, rfl, ?_, fun f hf => order.mem_iff.mpr (List.mem_append_left _ hf)⟩
  have hmore : among names more = [] := by
    rw [among, List.filter_eq_nil_iff]
    intro f hf
    simpa using unknown f hf
  have hperm : (among names fs).Perm (among names own) := by
    have hfilter := order.filter fun f => names.contains f.1
    rw [List.filter_append] at hfilter
    rwa [← among, ← among, ← among, hmore, List.append_nil] at hfilter
  exact (hperm.map _).nodup_iff.mpr (once.sublist (List.filter_sublist.map _))

/-- A record written in one of these ways has all its fields. -/
theorem Scattered.record? {own : List (String × Source)} (h : Scattered names own s)
    (once : (own.map (·.1)).Nodup) (declared : ∀ f ∈ own, f.1 ∈ names) :
    ∃ r, s.record? names = some r ∧ ∀ f ∈ own, r.given.lookup f.1 = some f.2 := by
  obtain ⟨fs, rfl, hnodup, hown⟩ := h.fields once
  obtain ⟨r, hr, hgiven⟩ := record?_named hnodup
  exact ⟨r, hr, fun f hf => hgiven f.1 (declared f hf) f.2 (hown f hf)⟩

/-! ## Depth -/

theorem depth_le_depthItems {items : List Source} (h : s ∈ items) : s.depth ≤ depthItems items := by
  induction items with
  | nil => cases h
  | cons x xs ih =>
    rw [depthItems]
    rcases List.mem_cons.mp h with rfl | h
    · exact Nat.le_max_left ..
    · exact Nat.le_trans (ih h) (Nat.le_max_right ..)

theorem depth_le_depthFields {n : Option String} {fields : List (Option String × Source)}
    (h : (n, s) ∈ fields) : s.depth ≤ depthFields fields := by
  induction fields with
  | nil => cases h
  | cons f fs ih =>
    rw [depthFields]
    rcases List.mem_cons.mp h with rfl | h
    · exact Nat.le_max_left ..
    · exact Nat.le_trans (ih h) (Nat.le_max_right ..)

/-- The source of a value has a value, if not the same one: that would need its fields in order. -/
theorem exists_value?_ofValue (v : Json) : ∃ w, (ofValue v).value? = some w := by
  have key := ofValue.mutual_induct
    (fun v => ∃ w, (ofValue v).value? = some w)
    (fun fs => ∃ gs, fields? (ofFields fs) = some gs)
    (fun xs => ∃ ys, items? (ofItems xs) = some ys)
    ⟨_, rfl⟩ (fun _ => ⟨_, rfl⟩) (fun _ => ⟨_, rfl⟩) (fun _ => ⟨_, rfl⟩) ?_ ?_ ⟨_, rfl⟩ ?_
    ⟨_, rfl⟩ ?_
  · exact key.1 v
  · rintro items ⟨ys, hys⟩
    exact ⟨.array ys, by simp [ofValue, value?, hys]⟩
  · rintro fields ⟨gs, hgs⟩
    exact ⟨Json.ofFields gs, by simp [ofValue, value?, hgs]⟩
  · rintro v r ⟨w, hw⟩ ⟨ys, hys⟩
    exact ⟨w :: ys, by simp [ofItems, items?, hw, hys]⟩
  · rintro name v r ⟨w, hw⟩ ⟨gs, hgs⟩
    exact ⟨(name, w) :: gs, by simp [ofFields, fields?, hw, hgs]⟩

end NotebookKernels.Json.Source
