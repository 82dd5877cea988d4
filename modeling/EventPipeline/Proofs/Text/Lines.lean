import EventPipeline.Text.Blank

/-!
# `EventPipeline.Proofs.Text.Lines`: a text and its lines

`lines` takes a text apart behind its line feeds. A text is either one line without a line feed, or
such a line with a line feed and another text behind it (`line_induction`). The first line of the
whole is then the line itself, or what stands in front of the carriage return that it ends in
(`exists_lines_append`).
-/

set_option autoImplicit false

namespace EventPipeline.Text

variable {cs : List Char}

/-- A line feed ends a line, and a carriage return in front of it belongs to the line end. -/
theorem lines_go_newline (current : List Char) :
    ∃ line ending, current.reverse = line ++ ending ∧ (ending = [] ∨ ending = ['\r']) ∧
      ∀ cs, lines.go current ('\n' :: cs) = line :: lines.go [] cs := by
  by_cases h : ∃ before, current = '\r' :: before
  · obtain ⟨before, rfl⟩ := h
    exact ⟨before.reverse, ['\r'], List.reverse_cons, .inr rfl, fun _ => rfl⟩
  · refine ⟨current.reverse, [], (List.append_nil _).symm, .inl rfl, fun cs => ?_⟩
    exact lines.go.eq_3 current cs fun before hbefore => h ⟨before, hbefore⟩

/-- The characters of a line are put behind what has been read of it. -/
theorem lines_go_append (h : '\n' ∉ cs) (current ds : List Char) :
    lines.go current (cs ++ ds) = lines.go (cs.reverse ++ current) ds := by
  induction cs generalizing current with
  | nil => rfl
  | cons c cs ih =>
    rw [List.mem_cons, not_or] at h
    rw [List.cons_append, lines.go, ih h.2, List.reverse_cons, List.append_assoc,
      List.singleton_append]
    exact Ne.symm h.1

/-- A line, and behind its line feed the lines of the rest. -/
theorem exists_lines_append (h : '\n' ∉ cs) :
    ∃ line ending, cs = line ++ ending ∧ (ending = [] ∨ ending = ['\r']) ∧
      ∀ ds, lines (cs ++ '\n' :: ds) = line :: lines ds := by
  obtain ⟨line, ending, hcs, hending, hlines⟩ := lines_go_newline cs.reverse
  rw [List.reverse_reverse] at hcs
  refine ⟨line, ending, hcs, hending, fun ds => ?_⟩
  rw [lines, lines_go_append h, List.append_nil, hlines]
  rfl

/-- A text without a line feed is a line, unless it is empty. -/
theorem lines_of_line (h : '\n' ∉ cs) : lines cs = if cs.isEmpty then [] else [cs] := by
  have hgo := lines_go_append h [] []
  rw [List.append_nil, List.append_nil] at hgo
  rw [lines, hgo, lines.go, List.isEmpty_reverse, List.reverse_reverse]

/-- A text is a line without a line feed, or such a line, a line feed and another text. -/
@[elab_as_elim]
theorem line_induction {motive : List Char → Prop} (line : ∀ cs, '\n' ∉ cs → motive cs)
    (next : ∀ cs ds, '\n' ∉ cs → motive ds → motive (cs ++ '\n' :: ds)) (cs : List Char) :
    motive cs := by
  induction hlength : cs.length using Nat.strongRecOn generalizing cs with
  | _ length ih =>
    by_cases h : '\n' ∈ cs
    · obtain ⟨before, after, rfl, hbefore⟩ := List.eq_append_cons_of_mem h
      have hshorter : after.length < length := by
        rw [← hlength, List.length_append, List.length_cons]
        omega
      exact next before after hbefore (ih _ hshorter after rfl)
    · exact line cs h

/-- Where the lines of a text are cut, the text can be cut. -/
theorem exists_prefix_of_lines {before after : List (List Char)} (h : lines cs = before ++ after) :
    ∃ head, head <+: cs ∧ lines head = before := by
  induction cs using line_induction generalizing before with
  | line cs hcs =>
    cases before with
    | nil => exact ⟨[], List.nil_prefix, rfl⟩
    | cons first before =>
      rw [lines_of_line hcs] at h
      split at h
      · cases h
      · rename_i hne
        obtain ⟨rfl, hnil⟩ := List.cons.inj h
        obtain ⟨rfl, rfl⟩ := List.append_eq_nil_iff.mp hnil.symm
        exact ⟨cs, List.prefix_refl cs, by rw [lines_of_line hcs, if_neg hne]⟩
  | next cs ds hcs ih =>
    cases before with
    | nil => exact ⟨[], List.nil_prefix, rfl⟩
    | cons first before =>
      obtain ⟨line, ending, -, -, hlines⟩ := exists_lines_append hcs
      rw [hlines] at h
      obtain ⟨rfl, hrest⟩ := List.cons.inj h
      obtain ⟨head, hhead, hbefore⟩ := ih hrest
      refine ⟨cs ++ '\n' :: head, ?_, by rw [hlines, hbefore]⟩
      exact (List.prefix_append_right_inj cs).mpr (List.cons_prefix_cons.mpr ⟨rfl, hhead⟩)

end EventPipeline.Text
