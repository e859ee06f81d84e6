import Mathlib.Data.List.MinMax
import Mathlib.Data.List.Nodup
import WchLink.Target

/-! # Looking a part up by name

The row whose name is the longest start of the query. Rows that both start one
query and have names of one length have the same name up to letter case, so in
a table of distinct names the lookup does not depend on the order of the rows.
-/

namespace WchLink

/-- A name without its letter case. -/
def lower (name : String) : List Char := name.toList.map Char.toLower

/-- The part's name starts the query, in any case. -/
def Chip.Starts (part : Chip) (query : String) : Prop := lower part.name <+: lower query

instance (part : Chip) (query : String) : Decidable (part.Starts query) :=
  inferInstanceAs (Decidable (_ <+: _))

/-- No two rows have the same name up to letter case. -/
def DistinctNames (table : List Chip) : Prop := (table.map fun part => lower part.name).Nodup

theorem length_lower (name : String) : (lower name).length = name.length := by
  rw [lower, List.length_map, String.length_toList]

theorem nameMatches_iff (candidate query : List Char) :
    nameMatches candidate query = true ↔
      candidate.map Char.toLower <+: query.map Char.toLower := by
  induction candidate generalizing query with
  | nil => simp [nameMatches]
  | cons a candidate ih =>
      cases query with
      | nil => simp [nameMatches]
      | cons b query => simp [nameMatches, ih, List.cons_prefix_cons]

/-- The lookup takes the first of the longest names that start the query. -/
theorem chipByName_eq (table : List Chip) {query : String} (hquery : query ≠ "") :
    chipByName table query =
      (table.filter fun part => part.Starts query).argmax fun part => part.name.length := by
  have hempty : query.isEmpty = false := by
    rw [← Bool.not_eq_true, String.isEmpty_iff]
    exact hquery
  have hmatches (part : Chip) :
      nameMatches part.name.toList query.toList = decide (part.Starts query) := by
    rw [Bool.eq_iff_iff, nameMatches_iff, decide_eq_true_iff]
    rfl
  unfold chipByName List.argmax
  rw [hempty, if_neg Bool.false_ne_true, List.foldl_filter]
  congr 1
  funext best part
  rw [hmatches]
  cases best with
  | none => cases decide (part.Starts query) <;> rfl
  | some chosen => cases decide (part.Starts query) <;> rfl

theorem chipByName_empty (table : List Chip) : chipByName table "" = none := rfl

/-- Names of one length that start the same query are the same. -/
theorem lower_eq_of_starts {part other : Chip} {query : String} (hpart : part.Starts query)
    (hother : other.Starts query) (hlength : other.name.length = part.name.length) :
    lower other.name = lower part.name := by
  rw [← length_lower, ← length_lower part.name] at hlength
  exact (List.prefix_of_prefix_length_le hother hpart hlength.le).eq_of_length hlength

/-- Whatever is found starts the query, and nothing that does is longer. -/
theorem longest_of_chipByName {table : List Chip} {query : String} {part : Chip}
    (hfound : chipByName table query = some part) :
    query ≠ "" ∧ part ∈ table ∧ part.Starts query ∧
      ∀ other ∈ table, other.Starts query → other.name.length ≤ part.name.length := by
  have hquery : query ≠ "" := by
    rintro rfl
    cases hfound
  rw [chipByName_eq table hquery, ← Option.mem_def] at hfound
  have hmem := List.argmax_mem hfound
  simp only [List.mem_filter, decide_eq_true_eq] at hmem
  refine ⟨hquery, hmem.1, hmem.2, ?_⟩
  intro other hother hstarts
  have hother' : other ∈ table.filter fun part => part.Starts query := by
    simp [hother, hstarts]
  exact @List.le_of_mem_argmax Chip Nat _ (fun part => part.name.length) _ _ _ hother' hfound

theorem chipByName_eq_none_iff (table : List Chip) (query : String) :
    chipByName table query = none ↔ query = "" ∨ ∀ part ∈ table, ¬part.Starts query := by
  by_cases hquery : query = ""
  · simp [hquery, chipByName_empty]
  · rw [chipByName_eq table hquery, List.argmax_eq_none]
    simp [hquery, List.filter_eq_nil_iff]

/-- Something is found as soon as one row starts the query. -/
theorem exists_chipByName {table : List Chip} {query : String} {part : Chip} (hquery : query ≠ "")
    (hmem : part ∈ table) (hstarts : part.Starts query) :
    ∃ found, chipByName table query = some found := by
  apply Option.ne_none_iff_exists'.mp
  rw [Ne, chipByName_eq_none_iff, not_or]
  exact ⟨hquery, fun hnone => hnone part hmem hstarts⟩

/-- What is found starts the query and is longer than everything else that does. -/
theorem chipByName_eq_some_iff {table : List Chip} (hdistinct : DistinctNames table)
    {query : String} {part : Chip} :
    chipByName table query = some part ↔
      query ≠ "" ∧ part ∈ table ∧ part.Starts query ∧
        ∀ other ∈ table, other ≠ part → other.Starts query →
          other.name.length < part.name.length := by
  constructor
  · intro hfound
    obtain ⟨hquery, hmem, hstarts, hlongest⟩ := longest_of_chipByName hfound
    refine ⟨hquery, hmem, hstarts, ?_⟩
    intro other hother hne hother'
    apply lt_of_le_of_ne (hlongest other hother hother')
    -- of equal length it would have the same name, and be the same row
    intro hlength
    exact hne (List.inj_on_of_nodup_map hdistinct hother hmem
      (lower_eq_of_starts hstarts hother' hlength))
  · rintro ⟨hquery, hmem, hstarts, hlongest⟩
    obtain ⟨found, hfound⟩ := exists_chipByName hquery hmem hstarts
    obtain ⟨-, hmem', hstarts', hlongest'⟩ := longest_of_chipByName hfound
    by_cases hsame : found = part
    · rw [hfound, hsame]
    · have hlt := hlongest found hmem' hsame hstarts'
      have hle := hlongest' part hmem hstarts
      omega

theorem DistinctNames.perm {table table' : List Chip} (h : DistinctNames table)
    (hperm : table.Perm table') : DistinctNames table' :=
  (hperm.map _).nodup_iff.mp h

theorem chipByName_perm {table table' : List Chip} (hdistinct : DistinctNames table)
    (hperm : table.Perm table') (query : String) :
    chipByName table' query = chipByName table query := by
  ext part
  rw [chipByName_eq_some_iff hdistinct, chipByName_eq_some_iff (hdistinct.perm hperm)]
  simp only [hperm.mem_iff]

theorem chipByName_lower (table : List Chip) {query query' : String}
    (hcase : lower query' = lower query) : chipByName table query' = chipByName table query := by
  have hempty : query' = "" ↔ query = "" := by
    rw [← String.length_eq_zero_iff, ← length_lower, hcase, length_lower, String.length_eq_zero_iff]
  by_cases hquery : query = ""
  · rw [hquery, hempty.mpr hquery]
  · have hstarts : (fun part : Chip => decide (part.Starts query')) =
        fun part => decide (part.Starts query) := by
      ext part
      rw [decide_eq_decide, Chip.Starts, Chip.Starts, hcase]
    rw [chipByName_eq table hquery, chipByName_eq table (mt hempty.mp hquery), hstarts]

/-- A longer query still has every start the shorter one had. -/
theorem Chip.Starts.extend {part : Chip} {query : String} (h : part.Starts query) (more : String) :
    part.Starts (query ++ more) := by
  unfold Chip.Starts lower at *
  rw [String.toList_append, List.map_append]
  exact h.trans (List.prefix_append _ _)

theorem chipByName_extend {table : List Chip} {query more : String} {part : Chip}
    (hfound : chipByName table query = some part) :
    ∃ longer, chipByName table (query ++ more) = some longer ∧
      part.name.length ≤ longer.name.length := by
  obtain ⟨hquery, hmem, hstarts, -⟩ := longest_of_chipByName hfound
  have hmore : query ++ more ≠ "" := by
    simp [hquery]
  obtain ⟨longer, hlonger⟩ := exists_chipByName hmore hmem (hstarts.extend more)
  obtain ⟨-, -, -, hlongest⟩ := longest_of_chipByName hlonger
  exact ⟨longer, hlonger, hlongest part hmem (hstarts.extend more)⟩

/-- The lookup finds the longest name that starts the query and nothing else;
neither the order of the table nor the query's letter case matters, and a
longer query never finds a shorter name. -/
theorem chipByName_longest (table : List Chip) (hdistinct : DistinctNames table) (query : String) :
    (∀ part, chipByName table query = some part ↔ query ≠ "" ∧ part ∈ table ∧
      part.Starts query ∧ ∀ other ∈ table, other ≠ part → other.Starts query →
        other.name.length < part.name.length) ∧
    (chipByName table query = none ↔ query = "" ∨ ∀ part ∈ table, ¬part.Starts query) ∧
    (∀ table', table.Perm table' → chipByName table' query = chipByName table query) ∧
    (∀ query', lower query' = lower query → chipByName table query' = chipByName table query) ∧
    ∀ more part, chipByName table query = some part →
      ∃ longer, chipByName table (query ++ more) = some longer ∧
        part.name.length ≤ longer.name.length :=
  ⟨fun _ => chipByName_eq_some_iff hdistinct, chipByName_eq_none_iff table query,
    fun _ hperm => chipByName_perm hdistinct hperm query,
    fun _ hcase => chipByName_lower table hcase, fun _ _ hfound => chipByName_extend hfound⟩

theorem chips_distinctNames : DistinctNames chips := by
  unfold DistinctNames
  decide

theorem chipByName_longest_table :
    chipByName chips "CH32V003F4P6" = some ch32v003 ∧
      ∀ table', chips.Perm table' → chipByName table' "CH32V003F4P6" = some ch32v003 := by
  obtain ⟨hfound, -, hperm, -⟩ := chipByName_longest chips chips_distinctNames "CH32V003F4P6"
  have hpart : chipByName chips "CH32V003F4P6" = some ch32v003 :=
    (hfound ch32v003).mpr (by decide)
  exact ⟨hpart, fun table' htable => (hperm table' htable).trans hpart⟩

end WchLink
