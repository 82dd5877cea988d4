import EventPipeline.Proofs.Rules.Classifying
import EventPipeline.Proofs.Text.Lines

/-!
# `EventPipeline.Proofs.Rules.RuleFiles`: which texts are rule files

`parseRules` reads a rule file line by line and keeps the rule sets read so far. Its state says
which lines it has read: those that count are what is written of the rule sets
(`entries_of_addLines`). From this follow the two answers that it can give.

* `parseRules_eq_ok_iff`: it returns rule sets exactly for the texts that lay them out.
* `parseRules_eq_error_iff`: it returns an error exactly for the texts with a line at fault, and the
  error is that of the first one.

Names may have letters of any script, and ASCII names are some of them (`isSetName_of_ascii`).
-/

set_option autoImplicit false

namespace EventPipeline.Rules

open Text (isBlank isWordChar collapse)

/-! ### What is written of rule sets -/

theorem header_mem_entries_iff {sets : List RuleSetSource} {name : String} :
    FileLine.header name ∈ entries sets ↔ name ∈ sets.map Prod.fst := by
  simp [entries, eq_comm]

theorem rule_mem_entries_iff {sets : List RuleSetSource} {text : String} :
    FileLine.rule text ∈ entries sets ↔ ∃ set ∈ sets, text ∈ set.2 := by
  simp [entries]

/-- Everything that is written of rule sets counts, and none of it is malformed. -/
theorem counts_of_mem_entries {sets : List RuleSetSource} {f : FileLine} (h : f ∈ entries sets) :
    f.counts = true ∧ f ≠ .malformed := by
  obtain ⟨set, -, hf⟩ := List.mem_flatMap.mp h
  obtain rfl | hrule := List.mem_cons.mp hf
  · exact ⟨rfl, fun h => by cases h⟩
  · obtain ⟨text, -, rfl⟩ := List.mem_map.mp hrule
    exact ⟨rfl, fun h => by cases h⟩

/-- A rule set starts with its header. -/
theorem entries_cases (sets : List RuleSetSource) :
    entries sets = [] ∨ ∃ name rest, entries sets = .header name :: rest := by
  cases sets with
  | nil => exact .inl rfl
  | cons set sets => exact .inr ⟨set.1, set.2.map .rule ++ entries sets, rfl⟩

/-- What is written of rule sets tells which they are. -/
theorem entries_injective {sets others : List RuleSetSource} (h : entries sets = entries others) :
    sets = others := by
  -- Behind the rules of a set there is a header or nothing, so its last rule is where the first
  -- line that is no rule comes. This is an induction of its own, on the rules of the first set.
  have hrules : ∀ (rules rules' : List String) (sets others : List RuleSetSource),
      rules.map FileLine.rule ++ entries sets = rules'.map FileLine.rule ++ entries others →
        rules = rules' ∧ entries sets = entries others := by
    intro rules
    induction rules with
    | nil =>
      intro rules' sets others h
      cases rules' with
      | nil => exact ⟨rfl, h⟩
      | cons rule rules' =>
        obtain hnil | ⟨name, rest, hcons⟩ := entries_cases sets
        · rw [hnil] at h
          cases h
        · rw [hcons] at h
          cases h
    | cons rule rules ih =>
      intro rules' sets others h
      cases rules' with
      | nil =>
        obtain hnil | ⟨name, rest, hcons⟩ := entries_cases others
        · rw [hnil] at h
          cases h
        · rw [hcons] at h
          cases h
      | cons rule' rules' =>
        obtain ⟨heq, hrest⟩ := List.cons.inj h
        cases heq
        obtain ⟨rfl, hsets⟩ := ih rules' sets others hrest
        exact ⟨rfl, hsets⟩
  induction sets generalizing others with
  | nil =>
    cases others with
    | nil => rfl
    | cons other others => cases h
  | cons set sets ih =>
    cases others with
    | nil => cases h
    | cons other others =>
      obtain ⟨hname, hrest⟩ := List.cons.inj h
      obtain ⟨heq, hsets⟩ := hrules set.2 other.2 sets others hrest
      rw [ih hsets, Prod.ext (FileLine.header.inj hname) heq]

/-- The names of the headers among the lines. -/
def FileLine.name? : FileLine → Option String
  | .header name => some name
  | _ => none

theorem filterMap_name?_entries (sets : List RuleSetSource) :
    (entries sets).filterMap FileLine.name? = sets.map Prod.fst := by
  induction sets with
  | nil => rfl
  | cons set sets ih =>
    have hrules : (set.2.map FileLine.rule).filterMap FileLine.name? = [] := by
      simp [FileLine.name?]
    show set.1 :: (set.2.map FileLine.rule ++ entries sets).filterMap FileLine.name? = _
    rw [List.filterMap_append, hrules, List.nil_append, ih]
    rfl

/-! ### Lines that count -/

/-- What the lines are that count. -/
def counted (raws : List (List Char)) : List FileLine :=
  (raws.map FileLine.ofRaw).filter FileLine.counts

theorem counted_append (raws more : List (List Char)) :
    counted (raws ++ more) = counted raws ++ counted more := by
  rw [counted, List.map_append, List.filter_append]
  rfl

theorem mem_counted_iff {raws : List (List Char)} {f : FileLine} (hcounts : f.counts = true)
    (hf : f ≠ .malformed) : f ∈ counted raws ↔ ∃ raw ∈ raws, f.Line raw := by
  rw [counted, List.mem_filter, List.mem_map]
  constructor
  · rintro ⟨⟨raw, hraw, hkind⟩, -⟩
    exact ⟨raw, hraw, (FileLine.ofRaw_eq_iff hf).mp hkind⟩
  · rintro ⟨raw, hraw, hline⟩
    exact ⟨⟨raw, hraw, hline.ofRaw_eq⟩, hcounts⟩

/-- The first line of a text is what stands in front of its first line feed. -/
theorem exists_lines_of_line {raw : List Char} (h : '\n' ∉ raw) :
    ∃ line, FileLine.ofRaw line = FileLine.ofRaw raw ∧
      ∀ cs, Text.lines (raw ++ '\n' :: cs) = line :: Text.lines cs := by
  obtain ⟨line, ending, rfl, rfl | rfl, hlines⟩ := Text.exists_lines_append h
  · exact ⟨line, by rw [List.append_nil], hlines⟩
  · exact ⟨line, (FileLine.ofRaw_append_return line).symm, hlines⟩

/-- The lines of a text that count are those that it was written in. -/
theorem IsWritten.counted_eq {fs : List FileLine} {cs : List Char} (h : IsWritten fs cs) :
    counted (Text.lines cs) = fs.filter FileLine.counts := by
  induction h with
  | @last f raw h hraw =>
    rw [Text.lines_of_line hraw]
    split
    · -- behind the last line feed there is no line, and an empty line would not count
      rename_i hempty
      rw [List.isEmpty_iff.mp hempty] at h
      rw [← h.ofRaw_eq]
      rfl
    · rw [counted, List.map_singleton, h.ofRaw_eq]
  | @next f raw fs cs h hraw _ ih =>
    obtain ⟨line, hline, hlines⟩ := exists_lines_of_line hraw
    rw [hlines, List.filter_cons, ← ih, counted, List.map_cons, hline, h.ofRaw_eq,
      List.filter_cons]
    rfl

/-- A text without malformed lines is written in some lines. -/
theorem exists_isWritten {cs : List Char}
    (h : ∀ raw ∈ Text.lines cs, FileLine.ofRaw raw ≠ .malformed) : ∃ fs, IsWritten fs cs := by
  induction cs using Text.line_induction with
  | line raw hraw =>
    refine ⟨[FileLine.ofRaw raw], .last (FileLine.line_ofRaw ?_) hraw⟩
    rw [Text.lines_of_line hraw] at h
    split at h
    · rename_i hempty
      rw [List.isEmpty_iff.mp hempty]
      intro hkind
      cases hkind
    · exact h raw (List.mem_singleton_self raw)
  | next raw cs hraw ih =>
    obtain ⟨line, hline, hlines⟩ := exists_lines_of_line hraw
    rw [hlines] at h
    obtain ⟨hfirst, hrest⟩ := List.forall_mem_cons.mp h
    obtain ⟨fs, hfs⟩ := ih hrest
    rw [hline] at hfirst
    exact ⟨_, .next (FileLine.line_ofRaw hfirst) hraw hfs⟩

/-! ### Reading lines -/

theorem entries_inOrder_cons (set : RuleSetSource) (sets : List RuleSetSource) :
    entries (inOrder (set :: sets)) =
      entries (inOrder sets) ++ .header set.1 :: set.2.reverse.map .rule := by
  simp [inOrder, entries]

theorem map_fst_inOrder (sets : List RuleSetSource) :
    (inOrder sets).map Prod.fst = (sets.map Prod.fst).reverse := by
  simp [inOrder, Function.comp_def]

theorem addLine_eq_ok {sets after : List RuleSetSource} {line : Nat} {raw : List Char}
    (h : addLine sets line raw = .ok after) :
    entries (inOrder after) = entries (inOrder sets) ++ counted [raw] ∧
      ((sets.map Prod.fst).Nodup → (after.map Prod.fst).Nodup) := by
  unfold addLine at h
  rw [counted, List.map_singleton]
  split at h
  · rename_i hkind
    cases h
    rw [hkind]
    exact ⟨(List.append_nil _).symm, id⟩
  · rename_i name hkind
    split at h
    · cases h
    · rename_i hnew
      cases h
      rw [hkind, entries_inOrder_cons]
      refine ⟨rfl, fun hnodup => List.nodup_cons.mpr ⟨?_, hnodup⟩⟩
      simpa using hnew
  · rename_i text hkind
    -- the rule goes to the set that was opened last, and so to the end of what is written
    cases sets with
    | nil => cases h
    | cons set others =>
      cases h
      rw [hkind, entries_inOrder_cons, entries_inOrder_cons]
      refine ⟨?_, id⟩
      rw [List.reverse_cons, List.map_append, List.append_assoc, List.cons_append]
      rfl
  · cases h

theorem addLines_append (sets : List RuleSetSource) (line : Nat) (before after : List (List Char)) :
    addLines sets line (before ++ after) =
      (addLines sets line before).bind fun sets =>
        addLines sets (line + before.length) after := by
  induction before generalizing sets line with
  | nil => rfl
  | cons raw before ih =>
    rw [List.cons_append, addLines, addLines]
    cases addLine sets line raw with
    | error e => rfl
    | ok next =>
      show addLines next (line + 1) (before ++ after) = (addLines next (line + 1) before).bind _
      rw [ih, List.length_cons, Nat.add_right_comm, Nat.add_assoc]

/-- The rule sets read so far say which lines were read that count. -/
theorem addLines_eq_ok {sets after : List RuleSetSource} {line : Nat} {raws : List (List Char)}
    (h : addLines sets line raws = .ok after) :
    entries (inOrder after) = entries (inOrder sets) ++ counted raws ∧
      ((sets.map Prod.fst).Nodup → (after.map Prod.fst).Nodup) := by
  induction raws generalizing sets line with
  | nil =>
    cases h
    exact ⟨(List.append_nil _).symm, id⟩
  | cons raw raws ih =>
    rw [addLines] at h
    cases hraw : addLine sets line raw with
    | error e =>
      rw [hraw] at h
      cases h
    | ok next =>
      rw [hraw] at h
      obtain ⟨hfirst, hnodup⟩ := addLine_eq_ok hraw
      obtain ⟨hrest, hnodup'⟩ := ih h
      have hsplit := counted_append [raw] raws
      rw [List.singleton_append] at hsplit
      rw [hrest, hfirst, hsplit, List.append_assoc]
      exact ⟨rfl, fun h => hnodup' (hnodup h)⟩

/-- Lines that cannot be added: those before the first one that cannot have been. -/
theorem addLines_eq_error {sets : List RuleSetSource} {line : Nat} {raws : List (List Char)}
    {e : RuleFileError} (h : addLines sets line raws = .error e) :
    ∃ before raw after mid, raws = before ++ raw :: after ∧
      addLines sets line before = .ok mid ∧ addLine mid (line + before.length) raw = .error e := by
  -- the first line fails, or it is one more line before the one that does
  induction raws generalizing sets line with
  | nil => cases h
  | cons first raws ih =>
    rw [addLines] at h
    cases hfirst : addLine sets line first with
    | error e' =>
      rw [hfirst] at h
      cases h
      exact ⟨[], first, raws, sets, rfl, rfl, hfirst⟩
    | ok next =>
      rw [hfirst] at h
      obtain ⟨before, raw, after, mid, rfl, hbefore, hraw⟩ := ih h
      refine ⟨first :: before, raw, after, mid, rfl, ?_, ?_⟩
      · rw [addLines, hfirst]
        exact hbefore
      · rw [List.length_cons, ← Nat.add_assoc, Nat.add_right_comm]
        exact hraw

/-! ### Faults -/

section

variable {before : List (List Char)} {sets : List RuleSetSource} {raw : List Char}
  {e : RuleFileError}

/-- The rule sets at the beginning of a file. -/
theorem entries_of_addLines (h : addLines [] 1 before = .ok sets) :
    entries (inOrder sets) = counted before :=
  (addLines_eq_ok h).1

theorem mem_names_iff (h : addLines [] 1 before = .ok sets) {name : String} :
    name ∈ sets.map Prod.fst ↔ ∃ earlier ∈ before, (FileLine.header name).Line earlier := by
  rw [← mem_counted_iff rfl (fun h => by cases h), ← entries_of_addLines h,
    header_mem_entries_iff, map_fst_inOrder, List.mem_reverse]

theorem eq_nil_iff_of_addLines (h : addLines [] 1 before = .ok sets) :
    sets = [] ↔ ∀ earlier ∈ before, ∀ name, ¬(FileLine.header name).Line earlier := by
  have hnames : sets = [] ↔ ∀ name, name ∉ sets.map Prod.fst := by
    rw [← List.eq_nil_iff_forall_not_mem, List.map_eq_nil_iff]
  rw [hnames]
  constructor
  · intro hnone earlier hearlier name hline
    exact hnone name ((mem_names_iff h).mpr ⟨earlier, hearlier, hline⟩)
  · intro hnone name hname
    obtain ⟨earlier, hearlier, hline⟩ := (mem_names_iff h).mp hname
    exact hnone earlier hearlier name hline

/-- A line cannot be added exactly if it is at fault, and its fault is the error. -/
theorem addLine_eq_error_iff (h : addLines [] 1 before = .ok sets) :
    addLine sets (before.length + 1) raw = .error e ↔ IsFault before raw e := by
  constructor
  · intro he
    unfold addLine at he
    split at he
    · cases he
    · rename_i name hkind
      split at he
      · rename_i hany
        cases he
        have hname : name ∈ sets.map Prod.fst := by simpa using hany
        exact .duplicate ((FileLine.ofRaw_eq_iff fun h => by cases h).mp hkind)
          ((mem_names_iff h).mp hname)
      · cases he
    · rename_i text hkind
      split at he
      · cases he
        exact .orphan ((FileLine.ofRaw_eq_iff fun h => by cases h).mp hkind)
          ((eq_nil_iff_of_addLines h).mp rfl)
      · cases he
    · rename_i hkind
      cases he
      exact .malformed (FileLine.ofRaw_eq_malformed_iff.mp hkind)
  · intro hfault
    cases hfault with
    | @duplicate name hline hbefore =>
      have hany : sets.any (·.1 == name) = true := by
        simpa using (mem_names_iff h).mpr hbefore
      rw [addLine, hline.ofRaw_eq]
      exact if_pos hany
    | orphan hline hbefore =>
      rw [addLine, hline.ofRaw_eq, (eq_nil_iff_of_addLines h).mpr hbefore]
    | malformed hnone =>
      rw [addLine, FileLine.ofRaw_eq_malformed_iff.mpr hnone]

/-- Lines can be read exactly if none of them is at fault. -/
theorem exists_addLines_iff {lines : List (List Char)} :
    (∃ sets, addLines [] 1 lines = .ok sets) ↔ NoFault lines := by
  constructor
  · rintro ⟨sets, hsets⟩ before raw after e rfl hfault
    rw [addLines_append] at hsets
    cases hbefore : addLines [] 1 before with
    | error e' =>
      rw [hbefore] at hsets
      cases hsets
    | ok mid =>
      rw [hbefore] at hsets
      have hraw := (addLine_eq_error_iff hbefore).mpr hfault
      rw [Nat.add_comm] at hraw
      change addLines mid (1 + before.length) (raw :: after) = _ at hsets
      rw [addLines, hraw] at hsets
      cases hsets
  · intro hnone
    cases hlines : addLines [] 1 lines with
    | ok sets => exact ⟨sets, rfl⟩
    | error e =>
      obtain ⟨before, raw, after, mid, rfl, hbefore, hraw⟩ := addLines_eq_error hlines
      rw [Nat.add_comm] at hraw
      exact absurd ((addLine_eq_error_iff hbefore).mp hraw) (hnone before raw after e rfl)

end

/-! ### Rule files -/

theorem parseRules_eq_ok {text : String} {sets : List RuleSetSource}
    (h : parseRules text = .ok sets) :
    ∃ acc, addLines [] 1 (Text.lines text.toList) = .ok acc ∧ inOrder acc = sets := by
  rw [parseRules] at h
  cases hlines : addLines [] 1 (Text.lines text.toList) with
  | error e =>
    rw [hlines] at h
    cases h
  | ok acc =>
    rw [hlines] at h
    cases h
    exact ⟨acc, rfl, rfl⟩

/-- What is written of the rule sets that a text has are its lines that count. -/
theorem entries_of_parseRules {text : String} {sets : List RuleSetSource}
    (h : parseRules text = .ok sets) : entries sets = counted (Text.lines text.toList) := by
  obtain ⟨acc, hacc, rfl⟩ := parseRules_eq_ok h
  exact entries_of_addLines hacc

theorem isRuleFile_of_parseRules {text : String} {sets : List RuleSetSource}
    (h : parseRules text = .ok sets) : IsRuleFile sets := by
  have hentries := entries_of_parseRules h
  obtain ⟨acc, hacc, hsets⟩ := parseRules_eq_ok h
  constructor
  case nodup =>
    rw [← hsets, map_fst_inOrder]
    have hnodup := (addLines_eq_ok hacc).2 List.nodup_nil
    exact List.pairwise_reverse.mpr (hnodup.imp Ne.symm)
  case names =>
    intro set hset
    have hmem : FileLine.header set.1 ∈ entries sets :=
      header_mem_entries_iff.mpr (List.mem_map_of_mem hset)
    rw [hentries, mem_counted_iff rfl fun h => by cases h] at hmem
    obtain ⟨raw, -, hline⟩ := hmem
    cases hline with
    | header hname _ => exact hname
  case rules =>
    intro set hset rule hrule
    have hmem : FileLine.rule rule ∈ entries sets := rule_mem_entries_iff.mpr ⟨set, hset, hrule⟩
    rw [hentries, mem_counted_iff rfl fun h => by cases h] at hmem
    obtain ⟨raw, -, hline⟩ := hmem
    cases hline with
    | rule _ _ htext _ _ => exact htext

theorem isLayout_of_parseRules {text : String} {sets : List RuleSetSource}
    (h : parseRules text = .ok sets) : IsLayout sets text := by
  have hentries := entries_of_parseRules h
  have hnone : ∀ raw ∈ Text.lines text.toList, FileLine.ofRaw raw ≠ .malformed := by
    intro raw hraw hkind
    have hmem : FileLine.malformed ∈ counted (Text.lines text.toList) :=
      List.mem_filter.mpr ⟨hkind ▸ List.mem_map_of_mem hraw, rfl⟩
    rw [← hentries] at hmem
    exact (counts_of_mem_entries hmem).2 rfl
  obtain ⟨fs, hfs⟩ := exists_isWritten hnone
  exact ⟨fs, hfs, by rw [hentries, hfs.counted_eq]⟩

/-- In a text that lays out rule sets no line is at fault. -/
theorem noFault_of_counted {sets : List RuleSetSource} {lines : List (List Char)}
    (hnodup : (sets.map Prod.fst).Nodup) (h : counted lines = entries sets) : NoFault lines := by
  rintro before raw after e rfl hfault
  have hsplit : entries sets =
      counted before ++ ([FileLine.ofRaw raw].filter FileLine.counts ++ counted after) := by
    have happend := counted_append [raw] after
    rw [List.singleton_append] at happend
    rw [← h, counted_append, happend]
    rfl
  cases hfault with
  | @duplicate name hline hbefore =>
    -- the name would be that of two rule sets
    rw [hline.ofRaw_eq] at hsplit
    have hnames := filterMap_name?_entries sets
    rw [hsplit, List.filterMap_append] at hnames
    rw [← hnames] at hnodup
    have hfirst : name ∈ (counted before).filterMap FileLine.name? :=
      List.mem_filterMap.mpr ⟨.header name,
        (mem_counted_iff rfl fun h => by cases h).mpr hbefore, rfl⟩
    exact (List.nodup_append.mp hnodup).2.2 name hfirst name List.mem_cons_self rfl
  | @orphan text hline hbefore =>
    -- what is written of rule sets starts with a header, and there is none before this rule
    rw [hline.ofRaw_eq] at hsplit
    obtain hnil | ⟨name, rest, hcons⟩ := entries_cases sets
    · rw [hnil] at hsplit
      exact absurd hsplit.symm (by simp [FileLine.counts])
    · cases hcounted : counted before with
      | nil =>
        rw [hcons, hcounted] at hsplit
        cases hsplit
      | cons f fs =>
        rw [hcons, hcounted] at hsplit
        cases hsplit
        have hmem : FileLine.header name ∈ counted before := by
          rw [hcounted]
          exact List.mem_cons_self
        obtain ⟨earlier, hearlier, hheader⟩ :=
          (mem_counted_iff rfl fun h => by cases h).mp hmem
        exact hbefore earlier hearlier name hheader
  | malformed hnone =>
    rw [FileLine.ofRaw_eq_malformed_iff.mpr hnone] at hsplit
    have hmem : FileLine.malformed ∈ entries sets := by
      rw [hsplit]
      exact List.mem_append_right _ List.mem_cons_self
    exact (counts_of_mem_entries hmem).2 rfl

/-- A text has rule sets exactly if it lays them out. -/
theorem parseRules_eq_ok_iff {text : String} {sets : List RuleSetSource} :
    parseRules text = .ok sets ↔ IsRuleFile sets ∧ IsLayout sets text := by
  constructor
  · intro h
    exact ⟨isRuleFile_of_parseRules h, isLayout_of_parseRules h⟩
  · rintro ⟨hfile, fs, hwritten, hfs⟩
    have hcounted : counted (Text.lines text.toList) = entries sets := by
      rw [hwritten.counted_eq, hfs]
    obtain ⟨acc, hacc⟩ := exists_addLines_iff.mpr (noFault_of_counted hfile.nodup hcounted)
    have hentries := entries_of_addLines hacc
    rw [hcounted] at hentries
    rw [parseRules, hacc, ← entries_injective hentries]
    rfl

/-- Lines can be read exactly if the rule sets of any text with these lines can be. -/
theorem exists_parseRules_iff {text : String} :
    (∃ sets, parseRules text = .ok sets) ↔ NoFault (Text.lines text.toList) := by
  rw [← exists_addLines_iff]
  constructor
  · rintro ⟨sets, h⟩
    obtain ⟨acc, hacc, -⟩ := parseRules_eq_ok h
    exact ⟨acc, hacc⟩
  · rintro ⟨acc, hacc⟩
    exact ⟨inOrder acc, by rw [parseRules, hacc]; rfl⟩

/-- A text has an error exactly if one of its lines is at fault. The error is that of the first such
line. -/
theorem parseRules_eq_error_iff {text : String} {e : RuleFileError} :
    parseRules text = .error e ↔
      ∃ before raw after, Text.lines text.toList = before ++ raw :: after ∧
        IsFault before raw e ∧ NoFault before := by
  rw [parseRules]
  constructor
  · intro h
    cases hlines : addLines [] 1 (Text.lines text.toList) with
    | ok acc =>
      rw [hlines] at h
      cases h
    | error e' =>
      rw [hlines] at h
      cases h
      obtain ⟨before, raw, after, mid, hcut, hbefore, hraw⟩ := addLines_eq_error hlines
      rw [Nat.add_comm] at hraw
      exact ⟨before, raw, after, hcut, (addLine_eq_error_iff hbefore).mp hraw,
        exists_addLines_iff.mp ⟨mid, hbefore⟩⟩
  · rintro ⟨before, raw, after, hcut, hfault, hnone⟩
    obtain ⟨mid, hbefore⟩ := exists_addLines_iff.mpr hnone
    have hraw := (addLine_eq_error_iff hbefore).mpr hfault
    rw [hcut, addLines_append, hbefore]
    show (addLines mid (1 + before.length) (raw :: after)).map inOrder = _
    rw [addLines, Nat.add_comm, hraw]
    rfl

/-! ### Writing rule sets -/

/-- White space in a collapsed text is a space. -/
theorem eq_space_of_mem_collapse {c : Char} {cs : List Char} (h : c ∈ collapse cs)
    (hc : isBlank c = true) : c = ' ' := by
  have hwords : ∀ w ∈ Text.words cs, c ∉ w := by
    intro w hw hmem
    rw [(Text.isWord_of_mem hw).2 c hmem] at hc
    cases hc
  rw [collapse] at h
  cases hcs : Text.words cs with
  | nil =>
    rw [hcs] at h
    cases h
  | cons w ws =>
    rw [hcs, Text.unwords_cons, List.mem_append, List.mem_flatMap] at h
    rw [hcs] at hwords
    obtain ⟨hw, hws⟩ := List.forall_mem_cons.mp hwords
    obtain hmem | ⟨v, hv, hmem⟩ := h
    · exact absurd hmem hw
    · obtain rfl | hmem := List.mem_cons.mp hmem
      · rfl
      · exact absurd hmem (hws v hv)

/-- A text whose white space is spaces is one way to widen it. -/
theorem Widens.refl {cs : List Char} (h : ∀ c ∈ cs, isBlank c = true → c = ' ') :
    Widens cs cs := by
  induction cs with
  | nil => exact .nil
  | cons c cs ih =>
    obtain ⟨hc, hcs⟩ := List.forall_mem_cons.mp h
    cases hblank : isBlank c with
    | false => exact .visible hblank (ih hcs)
    | true =>
      obtain rfl := hc hblank
      have hspace : IsBlankText [' '] := List.forall_mem_singleton.mpr rfl
      exact .space (List.cons_ne_nil _ _) hspace (ih hcs)

theorem newline_not_mem_name {name : List Char} (h : IsSetName name) : '\n' ∉ name := by
  cases name with
  | nil => cases h
  | cons c cs =>
    intro hmem
    obtain rfl | hmem := List.mem_cons.mp hmem
    · cases h.1
    · cases h.2 '\n' hmem

theorem newline_not_mem_rule {rule : List Char} (h : IsRuleText rule) : '\n' ∉ rule := by
  intro hmem
  rw [← h.2] at hmem
  cases eq_space_of_mem_collapse hmem rfl

/-- Rule sets that a rule file can hold can be written. -/
theorem isLayout_render {sets : List RuleSetSource} (h : IsRuleFile sets) :
    IsLayout sets (render sets) := by
  have hlines : ∀ f ∈ entries sets, f.Line f.write ∧ '\n' ∉ f.write := by
    intro f hf
    obtain ⟨set, hset, hmem⟩ := List.mem_flatMap.mp hf
    obtain rfl | hrule := List.mem_cons.mp hmem
    · refine ⟨.header (h.names set hset) (List.forall_mem_nil _), ?_⟩
      simp [FileLine.write, newline_not_mem_name (h.names set hset)]
    · obtain ⟨rule, hkept, rfl⟩ := List.mem_map.mp hrule
      have htext := h.rules set hset rule hkept
      have hwide : Widens rule.toList rule.toList := by
        refine .refl fun c hc => ?_
        rw [← htext.2] at hc
        exact eq_space_of_mem_collapse hc
      have hnil : IsBlankText [] := List.forall_mem_nil _
      constructor
      · have hline := FileLine.Line.rule (.inr rfl) hnil htext hwide hnil
        rw [List.append_nil] at hline
        exact hline
      · simp [FileLine.write, newline_not_mem_rule htext]
  -- every line ends in a line feed, and behind the last one there is an empty line
  have hwritten : ∀ fs : List FileLine, (∀ f ∈ fs, f.Line f.write ∧ '\n' ∉ f.write) →
      IsWritten (fs ++ [.ignored]) (fs.flatMap fun f => f.write ++ ['\n']) := by
    intro fs
    induction fs with
    | nil => exact fun _ => .last (.blank (List.forall_mem_nil _)) (List.not_mem_nil)
    | cons f fs ih =>
      intro hfs
      obtain ⟨⟨hline, hbreak⟩, hrest⟩ := List.forall_mem_cons.mp hfs
      rw [List.flatMap_cons, List.append_assoc, List.singleton_append]
      exact .next hline hbreak (ih hrest)
  refine ⟨entries sets ++ [.ignored], ?_, ?_⟩
  · rw [render, String.toList_ofList]
    exact hwritten _ hlines
  · rw [List.filter_append, List.filter_eq_self.mpr fun f hf => (counts_of_mem_entries hf).1]
    exact List.append_nil _

/-- Names of ASCII letters, digits and underscores that do not start with a digit. -/
theorem isSetName_of_ascii {c : Char} {cs : List Char} (hc : (c.isAlpha || c == '_') = true)
    (hcs : ∀ d ∈ cs, (d.isAlphanum || d == '_') = true) : IsSetName (c :: cs) := by
  refine ⟨hc, fun d hd => ?_⟩
  have hword := hcs d hd
  have hascii : d.toNat < 128 := by
    simp only [Char.isAlphanum, Bool.or_eq_true, beq_iff_eq] at hword
    obtain (halpha | hdigit) | rfl := hword
    · obtain hupper | hlower := toNat_of_isAlpha halpha
      · omega
      · omega
    · have hrange : 48 ≤ d.toNat ∧ d.toNat ≤ 57 := Char.isDigit_iff_toNat.mp hdigit
      omega
    · decide
  rw [isWordChar, if_pos hascii]
  exact hword

/-- What rule files are. A text has rule sets exactly if it lays them out, with their names all
different. Rule sets that a text has can be written again, and however that is done, they are what
the new text has. A text has an error exactly if one of its lines is at fault. The error is that of
the first such line, with its number, and the text in front of that line has rule sets. -/
theorem parseRules_spec (text : String) :
    (∀ sets, parseRules text = .ok sets ↔ IsRuleFile sets ∧ IsLayout sets text) ∧
      (∀ sets, parseRules text = .ok sets → IsLayout sets (render sets) ∧
        ∀ again, IsLayout sets again → parseRules again = .ok sets) ∧
      ∀ e, parseRules text = .error e ↔
        ∃ before raw after, Text.lines text.toList = before ++ raw :: after ∧
          IsFault before raw e ∧ NoFault before ∧
          ∃ head, head <+: text.toList ∧ Text.lines head = before ∧
            ∃ sets, parseRules (String.ofList head) = .ok sets := by
  refine ⟨fun sets => parseRules_eq_ok_iff, fun sets h => ⟨?_, ?_⟩, fun e => ?_⟩
  · exact isLayout_render (isRuleFile_of_parseRules h)
  · intro again hagain
    exact parseRules_eq_ok_iff.mpr ⟨isRuleFile_of_parseRules h, hagain⟩
  · rw [parseRules_eq_error_iff]
    constructor
    · rintro ⟨before, raw, after, hcut, hfault, hnone⟩
      obtain ⟨head, hhead, hlines⟩ := Text.exists_prefix_of_lines hcut
      refine ⟨before, raw, after, hcut, hfault, hnone, head, hhead, hlines, ?_⟩
      rw [exists_parseRules_iff, String.toList_ofList, hlines]
      exact hnone
    · rintro ⟨before, raw, after, hcut, hfault, hnone, -⟩
      exact ⟨before, raw, after, hcut, hfault, hnone⟩

/-- A comment, a rule that is widened, and a carriage return at the end of a line. -/
theorem parseRules_spec_widened :
    parseRules "# x\na:\n\tIF  b\tTHEN 1\r\n" = .ok [("a", ["IF b THEN 1"])] ∧
      parseRules (render [("a", ["IF b THEN 1"])]) = .ok [("a", ["IF b THEN 1"])] := by
  have hread : parseRules "# x\na:\n\tIF  b\tTHEN 1\r\n" = .ok [("a", ["IF b THEN 1"])] := by
    rfl
  obtain ⟨hlayout, hagain⟩ := (parseRules_spec _).2.1 _ hread
  exact ⟨hread, hagain _ hlayout⟩

end EventPipeline.Rules
