/-!
# `EventPipeline.Data.Fields`: named fields in key order

A collection of named fields is a list of pairs whose names ascend. `ascending_put`,
`ascending_erase` and `ascending_ofPairs` say that every operation keeps the order.
`get?_put_self` and `get?_put_of_ne` say what one assignment does to every lookup. Pairs become
fields one for one exactly if no two of them have the same name (`ofPairs_perm_iff`); otherwise
the last pair of a name is found (`get?_ofPairs`).
-/

set_option autoImplicit false

namespace EventPipeline

/-- Named fields, in ascending order of their names. -/
abbrev Fields (α : Type) := List (String × α)

namespace Fields

variable {α β : Type}

/-- The field called `name`. -/
def get? (fields : Fields α) (name : String) : Option α :=
  match fields with
  | [] => none
  | (k, v) :: rest => if k = name then some v else get? rest name

/-- There is a field called `name`. -/
def contains (fields : Fields α) (name : String) : Bool :=
  (get? fields name).isSome

/-- Sets the field called `name`, replacing the one of that name. -/
def put (fields : Fields α) (name : String) (value : α) : Fields α :=
  match fields with
  | [] => [(name, value)]
  | (k, v) :: rest =>
    if k = name then (name, value) :: rest
    else if k < name then (k, v) :: put rest name value
    else (name, value) :: (k, v) :: rest

/-- Removes the field called `name`. -/
def erase (fields : Fields α) (name : String) : Fields α :=
  fields.filter fun field => field.1 ≠ name

/-- The fields of a list of pairs; of two with one name the later counts. -/
def ofPairs (pairs : List (String × α)) : Fields α :=
  pairs.foldl (fun fields pair => put fields pair.1 pair.2) []

/-- The names, ascending. -/
def names (fields : Fields α) : List String :=
  fields.map (·.1)

/-- Changes every value and keeps the names. -/
def mapValues (f : α → β) (fields : Fields α) : Fields β :=
  fields.map fun field => (field.1, f field.2)

/-- The names of the fields ascend. -/
def Ascending (fields : Fields α) : Prop :=
  fields.Pairwise fun field later => field.1 < later.1

/-- A lookup of the assigned name finds the assigned value. -/
theorem get?_put_self (fields : Fields α) (name : String) (value : α) :
    get? (put fields name value) name = some value := by
  induction fields with
  | nil => simp [put, get?]
  | cons field rest ih =>
    obtain ⟨k, v⟩ := field
    by_cases h : k = name
    · simp [put, get?, h]
    · by_cases hlt : k < name
      · simp [put, get?, h, hlt, ih]
      · simp [put, get?, h, hlt]

/-- An assignment leaves the lookup of every other name as it was. -/
theorem get?_put_of_ne (fields : Fields α) {name other : String} (value : α)
    (h : name ≠ other) : get? (put fields name value) other = get? fields other := by
  induction fields with
  | nil => simp [put, get?, h]
  | cons field rest ih =>
    obtain ⟨k, v⟩ := field
    by_cases hk : k = name
    · subst hk
      simp [put, get?, h]
    · by_cases hlt : k < name
      · simp [put, get?, hk, hlt, ih]
      · simp [put, get?, hk, hlt, h]

/-- A name that was removed is not found. -/
theorem get?_erase_self (fields : Fields α) (name : String) :
    get? (erase fields name) name = none := by
  induction fields with
  | nil => rfl
  | cons field rest ih =>
    obtain ⟨k, v⟩ := field
    by_cases h : k = name
    · simpa [erase, h] using ih
    · simpa [erase, h, get?] using ih

/-- Removing a name leaves the lookup of every other name as it was. -/
theorem get?_erase_of_ne (fields : Fields α) {name other : String} (h : name ≠ other) :
    get? (erase fields name) other = get? fields other := by
  induction fields with
  | nil => rfl
  | cons field rest ih =>
    obtain ⟨k, v⟩ := field
    by_cases hk : k = name
    · subst hk
      simpa [erase, get?, h] using ih
    · by_cases ho : k = other
      · simp [erase, get?, ho, h.symm]
      · simpa [erase, get?, hk, ho] using ih

/-- The fields after an assignment are those from before and the assigned one. -/
theorem mem_of_mem_put {fields : Fields α} {name : String} {value : α} {field : String × α}
    (h : field ∈ put fields name value) : field = (name, value) ∨ field ∈ fields := by
  induction fields with
  | nil => exact Or.inl (List.mem_singleton.mp h)
  | cons first rest ih =>
    obtain ⟨k, v⟩ := first
    unfold put at h
    split at h
    · rcases List.mem_cons.mp h with h | h
      · exact Or.inl h
      · exact Or.inr (List.mem_cons_of_mem _ h)
    · split at h
      · rcases List.mem_cons.mp h with h | h
        · exact Or.inr (h ▸ List.mem_cons_self)
        · exact (ih h).imp_right (List.mem_cons_of_mem _)
      · exact List.mem_cons.mp h

/-- An assignment keeps the names ascending. -/
theorem ascending_put {fields : Fields α} (h : Ascending fields) (name : String) (value : α) :
    Ascending (put fields name value) := by
  induction fields with
  | nil => exact List.pairwise_singleton _ _
  | cons first rest ih =>
    obtain ⟨k, v⟩ := first
    obtain ⟨hfirst, hrest⟩ := List.pairwise_cons.mp h
    unfold put
    split
    · rename_i hk
      subst hk
      exact List.pairwise_cons.mpr ⟨hfirst, hrest⟩
    · rename_i hne
      split
      · rename_i hlt
        refine List.pairwise_cons.mpr ⟨fun field hfield => ?_, ih hrest⟩
        rcases mem_of_mem_put hfield with rfl | hmem
        · exact hlt
        · exact hfirst field hmem
      · rename_i hge
        have hlt : name < k := Decidable.byContradiction fun hnot =>
          hne (String.le_antisymm (String.not_lt.mp hnot) (String.not_lt.mp hge))
        refine List.pairwise_cons.mpr ⟨fun field hfield => ?_, h⟩
        rcases List.mem_cons.mp hfield with rfl | hmem
        · exact hlt
        · exact String.lt_trans hlt (hfirst field hmem)

/-- Removing a name keeps the names ascending. -/
theorem ascending_erase {fields : Fields α} (h : Ascending fields) (name : String) :
    Ascending (erase fields name) :=
  h.filter _

/-- The fields of a list of pairs ascend. -/
theorem ascending_ofPairs (pairs : List (String × α)) : Ascending (ofPairs pairs) := by
  have key : ∀ (pairs : List (String × α)) (fields : Fields α), Ascending fields →
      Ascending (pairs.foldl (fun fields pair => put fields pair.1 pair.2) fields) := by
    intro pairs
    induction pairs with
    | nil => exact fun _ h => h
    | cons pair pairs ih => exact fun fields h => ih _ (ascending_put h pair.1 pair.2)
  exact key pairs [] List.Pairwise.nil

/-- There is a field of exactly the names that there are. -/
theorem contains_iff {fields : Fields α} {name : String} :
    contains fields name = true ↔ name ∈ fields.names := by
  induction fields with
  | nil => simp [contains, get?, names]
  | cons field rest ih =>
    obtain ⟨k, v⟩ := field
    by_cases hk : k = name
    · simp [contains, get?, names, hk]
    · have hne : name ≠ k := fun h => hk h.symm
      simpa [contains, get?, names, hk, hne] using ih

/-- What a lookup finds is among the fields. -/
theorem mem_of_get? {fields : Fields α} {name : String} {value : α}
    (h : get? fields name = some value) : (name, value) ∈ fields := by
  induction fields with
  | nil => simp [get?] at h
  | cons field rest ih =>
    obtain ⟨k, v⟩ := field
    by_cases hk : k = name
    · obtain rfl : v = value := by simpa [get?, hk] using h
      exact hk ▸ List.mem_cons_self
    · exact List.mem_cons_of_mem _ (ih (by simpa [get?, hk] using h))

/-- When names ascend, a lookup finds every field. -/
theorem get?_of_mem {fields : Fields α} {name : String} {value : α} (h : Ascending fields)
    (hmem : (name, value) ∈ fields) : get? fields name = some value := by
  induction fields with
  | nil => simp at hmem
  | cons field rest ih =>
    obtain ⟨k, v⟩ := field
    obtain ⟨hfirst, hrest⟩ := List.pairwise_cons.mp h
    rcases List.mem_cons.mp hmem with heq | hmem
    · simp only [Prod.mk.injEq] at heq
      simp [get?, heq.1, heq.2]
    · have hk : k ≠ name := fun hk => String.lt_irrefl name (hk ▸ hfirst _ hmem)
      simpa [get?, hk] using ih hrest hmem

/-- Names ascend or not, whatever they are the names of. -/
theorem ascending_iff_names {fields : Fields α} :
    Ascending fields ↔ fields.names.Pairwise (· < ·) := by
  simp [Ascending, names, List.pairwise_map]

/-- The names after an assignment depend on the names before it only. -/
theorem names_put_congr {fields : Fields α} {others : Fields β} (h : fields.names = others.names)
    (name : String) (value : α) (other : β) :
    (fields.put name value).names = (others.put name other).names := by
  induction fields generalizing others with
  | nil =>
    obtain rfl : others = [] := List.map_eq_nil_iff.mp h.symm
    rfl
  | cons field rest ih =>
    obtain ⟨k, v⟩ := field
    cases others with
    | nil => simp [names] at h
    | cons field' rest' =>
      obtain ⟨k', v'⟩ := field'
      obtain ⟨rfl, hrest⟩ : k = k' ∧ names rest = names rest' := by simpa [names] using h
      unfold put
      split
      · simpa [names] using hrest
      · split
        · simpa [names] using ih hrest
        · simpa [names] using hrest

/-- Assigning to a field that is there keeps the names. -/
theorem names_put_of_contains {fields : Fields α} (h : Ascending fields) {name : String}
    (hname : fields.contains name = true) (value : α) :
    (fields.put name value).names = fields.names := by
  induction fields with
  | nil => simp [contains, get?] at hname
  | cons field rest ih =>
    obtain ⟨k, v⟩ := field
    obtain ⟨hfirst, hrest⟩ := List.pairwise_cons.mp h
    by_cases hk : k = name
    · simp [put, names, hk]
    · have hmem : contains rest name = true := by simpa [contains, get?, hk] using hname
      obtain ⟨⟨other, u⟩, hu, rfl⟩ := List.mem_map.mp (contains_iff.mp hmem)
      have hlt : k < other := hfirst _ hu
      simpa [put, names, hk, hlt] using ih hrest hmem

/-- A name that was not there comes in between the others. -/
theorem put_perm {fields : Fields α} {name : String} (h : name ∉ fields.names) (value : α) :
    (fields.put name value).Perm ((name, value) :: fields) := by
  induction fields with
  | nil => exact .refl _
  | cons field rest ih =>
    obtain ⟨k, v⟩ := field
    obtain ⟨hk, hrest⟩ : name ≠ k ∧ name ∉ names rest := by simpa [names] using h
    unfold put
    rw [if_neg hk.symm]
    split
    · exact ((ih hrest).cons (k, v)).trans (.swap (name, value) (k, v) rest)
    · exact .refl _

/-- Pairs that are put in one after the other all come in, if they and the fields have names of
their own. -/
theorem foldl_put_perm {pairs : List (String × α)} {fields : Fields α}
    (h : (pairs.map (·.1) ++ fields.names).Nodup) :
    (pairs.foldl (fun fields pair => put fields pair.1 pair.2) fields).Perm (pairs ++ fields) := by
  induction pairs generalizing fields with
  | nil => exact .refl fields
  | cons pair pairs ih =>
    have hput : (fields.put pair.1 pair.2).Perm (pair :: fields) := by
      refine put_perm (fun hmem => ?_) pair.2
      exact (List.nodup_cons.mp h).1 (List.mem_append_right _ hmem)
    have hnames : ((pair :: pairs).map (·.1) ++ fields.names).Perm
        (pairs.map (·.1) ++ (fields.put pair.1 pair.2).names) :=
      List.perm_middle.symm.trans ((hput.map (·.1)).symm.append_left _)
    refine (ih (hnames.nodup_iff.mp h)).trans ?_
    exact (hput.append_left pairs).trans List.perm_middle

/-- No two fields of pairs have the same name. -/
theorem nodup_names_ofPairs (pairs : List (String × α)) : (ofPairs pairs).names.Nodup := by
  refine (ascending_iff_names.mp (ascending_ofPairs pairs)).imp fun hlt heq => ?_
  exact String.lt_irrefl _ (heq ▸ hlt)

/-- Pairs become fields one for one exactly if no two of them have the same name. -/
theorem ofPairs_perm_iff (pairs : List (String × α)) :
    (ofPairs pairs).Perm pairs ↔ (pairs.map (·.1)).Nodup := by
  constructor
  · intro h
    have hnames : (ofPairs pairs).names.Perm (pairs.map (·.1)) := h.map _
    exact hnames.nodup_iff.mp (nodup_names_ofPairs pairs)
  · intro h
    have hput : (ofPairs pairs).Perm (pairs ++ []) := foldl_put_perm (by simpa [names] using h)
    rwa [List.append_nil] at hput

/-- A lookup finds the last pair of the name that was put in, or else a field from before. -/
theorem get?_foldl_put (pairs : List (String × α)) (fields : Fields α) (name : String) :
    get? (pairs.foldl (fun fields pair => put fields pair.1 pair.2) fields) name =
      ((pairs.reverse.find? fun pair => pair.1 = name).map (·.2)).or (fields.get? name) := by
  induction pairs generalizing fields with
  | nil => rfl
  | cons pair pairs ih =>
    rw [List.foldl_cons, ih, List.reverse_cons, List.find?_append, Option.map_or, Option.or_assoc]
    congr 1
    by_cases hname : pair.1 = name
    · simp [hname, get?_put_self]
    · simp [hname, get?_put_of_ne]

/-- A lookup among the fields of pairs finds the last pair of the name. -/
theorem get?_ofPairs (pairs : List (String × α)) (name : String) :
    (ofPairs pairs).get? name = (pairs.reverse.find? fun pair => pair.1 = name).map (·.2) := by
  rw [ofPairs, get?_foldl_put]
  exact Option.or_none

/-- Removing a name takes it away from the names. -/
theorem names_erase (fields : Fields α) (name : String) :
    (fields.erase name).names = fields.names.filter (· ≠ name) := by
  simp [erase, names, List.filter_map, Function.comp_def]

end Fields
end EventPipeline
