import Mathlib.Data.List.Nodup
import Mathlib.Order.Lattice
import WorkflowPlatform.Foundation.RowOrder

/-! # Reading a table page by page

A query that sorts by a key leaves the order of rows with equal keys open, and may
choose another one the next time. Pages that are read by one query each give every
row once exactly when no page ends between two rows with the same key.
-/

namespace Paging

universe u v

variable {Row : Type u} {Key : Type v} [LinearOrder Key] (key : Row → Key)

/-- The rows in descending order of a key. Rows with the same key stay in the order
in which the table is scanned. -/
def descending (order : RowOrder Row) (table : List Row) : List Row :=
  (order.rows table).mergeSort fun row next => decide (key next ≤ key row)

/-- `OFFSET skip LIMIT limit`. -/
def window (skip limit : ℕ) (rows : List Row) : List Row := (rows.drop skip).take limit

/-- The first pages, each read in an order of its own. -/
def readPages (orders : ℕ → RowOrder Row) (size count : ℕ) (table : List Row) : List Row :=
  (List.range count).flatMap fun page =>
    window (page * size) size (descending key (orders page) table)

/-- Pages up to the end of the table give every row exactly once. -/
def Lossless [DecidableEq Row] (size : ℕ) (table : List Row) : Prop :=
  ∀ (orders : ℕ → RowOrder Row) (count : ℕ), table.length ≤ count * size →
    ∀ row ∈ table, (readPages key orders size count table).count row = 1

/-- How many rows have a greater key. -/
def countAbove (table : List Row) (target : Key) : ℕ :=
  table.countP fun row => decide (target < key row)

/-- How many rows have the key or a greater one. -/
def countFrom (table : List Row) (target : Key) : ℕ :=
  table.countP fun row => decide (target ≤ key row)

/-- The rows with one key all fall on one page. -/
def KeepsTies (size : ℕ) (table : List Row) : Prop :=
  ∀ row ∈ table, countAbove key table (key row) / size = (countFrom key table (key row) - 1) / size

instance (size : ℕ) (table : List Row) : Decidable (KeepsTies key size table) :=
  inferInstanceAs (Decidable (∀ row ∈ table, _))

/-! ## Windows -/

theorem mem_window_iff {skip limit : ℕ} {rows : List Row} {row : Row} :
    row ∈ window skip limit rows ↔
      ∃ position, skip ≤ position ∧ position < skip + limit ∧ rows[position]? = some row := by
  rw [window, List.mem_iff_getElem?]
  constructor
  · intro ⟨offset, hoffset⟩
    rw [List.getElem?_take] at hoffset
    split at hoffset
    · rw [List.getElem?_drop] at hoffset
      exact ⟨skip + offset, by omega, by omega, hoffset⟩
    · cases hoffset
  · intro ⟨position, hskip, hlimit, hrow⟩
    refine ⟨position - skip, ?_⟩
    rw [List.getElem?_take, if_pos (by omega), List.getElem?_drop, Nat.add_sub_cancel' hskip]
    exact hrow

theorem window_sublist (skip limit : ℕ) (rows : List Row) : (window skip limit rows).Sublist rows :=
  (List.take_sublist _ _).trans (List.drop_sublist _ _)

/-! ## Sorted rows -/

/-- Rows in descending order of their keys. -/
def Sorted (rows : List Row) : Prop := rows.Pairwise fun row next => key next ≤ key row

theorem descending_perm (order : RowOrder Row) (table : List Row) :
    (descending key order table).Perm table :=
  (List.mergeSort_perm _ _).trans (order.perm table)

theorem descending_sorted (order : RowOrder Row) (table : List Row) :
    Sorted key (descending key order table) := by
  refine (List.pairwise_mergeSort ?_ ?_ _).imp fun hle => of_decide_eq_true hle
  · intro first second third hfirst hsecond
    exact decide_eq_true ((of_decide_eq_true hsecond).trans (of_decide_eq_true hfirst))
  · intro first second
    simpa using le_total (key second) (key first)

/-- Every sorted list of the rows is what some order of the scan gives. -/
theorem exists_descending {table rows : List Row} (hperm : rows.Perm table)
    (hsorted : Sorted key rows) : ∃ order : RowOrder Row, descending key order table = rows := by
  obtain ⟨order, horder⟩ := RowOrder.exists_rows hperm
  refine ⟨order, ?_⟩
  rw [descending, horder]
  exact List.mergeSort_of_pairwise (hsorted.imp fun hle => decide_eq_true hle)

variable {key} {table rows : List Row} {size : ℕ}

/-- A property that goes over to the rows before holds of as many rows as there are
places it reaches. -/
theorem getElem_iff_lt_countP {accepts : Row → Bool}
    (hdown : rows.Pairwise fun row next => accepts next = true → accepts row = true)
    {position : ℕ} (hposition : position < rows.length) :
    accepts rows[position] = true ↔ position < rows.countP accepts := by
  induction rows generalizing position with
  | nil => cases hposition
  | cons row rest ih =>
      obtain ⟨hhead, htail⟩ := List.pairwise_cons.mp hdown
      by_cases haccepts : accepts row = true
      · rw [List.countP_cons_of_pos haccepts]
        cases position with
        | zero => simp [haccepts]
        | succ position =>
            rw [List.getElem_cons_succ, ih htail (Nat.lt_of_succ_lt_succ hposition)]
            omega
      · have hnone : ∀ next ∈ rest, ¬ accepts next = true := fun next hnext hnext' =>
          haccepts (hhead next hnext hnext')
        rw [List.countP_cons_of_neg haccepts, List.countP_eq_zero.mpr hnone]
        simp only [Nat.not_lt_zero, iff_false]
        cases position with
        | zero => exact haccepts
        | succ position => exact hnone _ (List.getElem_mem _)

/-- In a sorted list the rows with greater keys come first. -/
theorem Sorted.lt_key_iff (hsorted : Sorted key rows) (hperm : rows.Perm table) {position : ℕ}
    (hposition : position < rows.length) (target : Key) :
    target < key rows[position] ↔ position < countAbove key table target := by
  have hdown : rows.Pairwise fun row next =>
      decide (target < key next) = true → decide (target < key row) = true := by
    refine hsorted.imp fun hle hlt => ?_
    exact decide_eq_true ((of_decide_eq_true hlt).trans_le hle)
  rw [countAbove, ← hperm.countP_eq, ← getElem_iff_lt_countP hdown hposition, decide_eq_true_eq]

theorem Sorted.le_key_iff (hsorted : Sorted key rows) (hperm : rows.Perm table) {position : ℕ}
    (hposition : position < rows.length) (target : Key) :
    target ≤ key rows[position] ↔ position < countFrom key table target := by
  have hdown : rows.Pairwise fun row next =>
      decide (target ≤ key next) = true → decide (target ≤ key row) = true := by
    refine hsorted.imp fun hle hlt => ?_
    exact decide_eq_true ((of_decide_eq_true hlt).trans hle)
  rw [countFrom, ← hperm.countP_eq, ← getElem_iff_lt_countP hdown hposition, decide_eq_true_eq]

/-- The places of the rows with one key in any sorted list. -/
theorem Sorted.key_eq_iff (hsorted : Sorted key rows) (hperm : rows.Perm table) {position : ℕ}
    (hposition : position < rows.length) (target : Key) :
    key rows[position] = target ↔
      countAbove key table target ≤ position ∧ position < countFrom key table target := by
  rw [← hsorted.le_key_iff hperm hposition, ← not_lt, ← hsorted.lt_key_iff hperm hposition, not_lt,
    le_antisymm_iff]

/-! ## Pages that keep ties together -/

/-- The page a row is on then does not depend on the order. -/
theorem mem_page_iff (hkeeps : KeepsTies key size table) (hsize : 0 < size)
    (order : RowOrder Row) (page : ℕ) (row : Row) :
    row ∈ window (page * size) size (descending key order table) ↔
      row ∈ table ∧ countAbove key table (key row) / size = page := by
  have hperm := descending_perm key order table
  have hsorted := descending_sorted key order table
  generalize descending key order table = rows at hperm hsorted ⊢
  have hpage : ∀ position, (hposition : position < rows.length) → rows[position] = row →
      countAbove key table (key row) / size = position / size := by
    intro position hposition hrow
    obtain ⟨hlower, hupper⟩ :=
      (hsorted.key_eq_iff hperm hposition (key row)).mp (congrArg key hrow)
    have hmem : row ∈ table := hperm.mem_iff.mp (hrow ▸ List.getElem_mem hposition)
    apply le_antisymm
    · exact Nat.div_le_div_right hlower
    · rw [hkeeps row hmem]
      exact Nat.div_le_div_right (by omega)
  rw [mem_window_iff]
  constructor
  · intro ⟨position, hstart, hend, hrow⟩
    obtain ⟨hposition, hrow⟩ := List.getElem?_eq_some_iff.mp hrow
    refine ⟨hperm.mem_iff.mp (hrow ▸ List.getElem_mem hposition), ?_⟩
    rw [hpage position hposition hrow, Nat.div_eq_iff hsize]
    omega
  · intro ⟨hmem, habove⟩
    obtain ⟨position, hposition, hrow⟩ := List.getElem_of_mem (hperm.mem_iff.mpr hmem)
    rw [hpage position hposition hrow, Nat.div_eq_iff hsize] at habove
    exact ⟨position, by omega, by omega, List.getElem?_eq_some_iff.mpr ⟨hposition, hrow⟩⟩

/-- The last of the pages up to the end of the table comes after every row. -/
theorem page_lt_count {count : ℕ} (hcount : table.length ≤ count * size) (hsize : 0 < size)
    {row : Row} (hrow : row ∈ table) : countAbove key table (key row) / size < count := by
  rw [Nat.div_lt_iff_lt_mul hsize]
  refine lt_of_lt_of_le (lt_of_le_of_ne List.countP_le_length fun heq => ?_) hcount
  have hlt := List.countP_eq_length.mp heq row hrow
  exact lt_irrefl _ (of_decide_eq_true hlt)

theorem lossless_of_keepsTies [DecidableEq Row] (hkeeps : KeepsTies key size table)
    (hnodup : table.Nodup) (hsize : 0 < size) : Lossless key size table := by
  intro orders count hcount row hrow
  apply List.count_eq_one_of_mem
  · refine List.nodup_flatMap.mpr ⟨fun page _ => ?_, ?_⟩
    · apply List.Nodup.sublist (window_sublist _ _ _)
      exact (descending_perm key (orders page) table).nodup_iff.mpr hnodup
    · refine List.Pairwise.imp ?_ List.pairwise_lt_range
      intro page later hlt other hpage hlater
      rw [mem_page_iff hkeeps hsize] at hpage hlater
      omega
  · have hpage : countAbove key table (key row) / size < count := page_lt_count hcount hsize hrow
    refine List.mem_flatMap.mpr ⟨_, List.mem_range.mpr hpage, ?_⟩
    rw [mem_page_iff hkeeps hsize]
    exact ⟨hrow, rfl⟩

/-! ## Pages that separate ties -/

/-- Two neighbours with the same key may change places. -/
theorem Sorted.swap {before after : List Row} {row next : Row} (heq : key row = key next)
    (hsorted : Sorted key (before ++ row :: next :: after)) :
    Sorted key (before ++ next :: row :: after) := by
  simp only [Sorted, List.pairwise_append, List.pairwise_cons, List.mem_cons,
    forall_eq_or_imp] at hsorted ⊢
  grind

/-- The rows around a position. -/
theorem eq_around {position : ℕ} (hposition : position + 1 < rows.length) :
    rows = rows.take position ++ rows[position] :: rows[position + 1] ::
      rows.drop (position + 2) := by
  rw [List.getElem_cons_drop hposition, List.getElem_cons_drop, List.take_append_drop]

/-- No row is on two pages. -/
theorem Lossless.not_mem_later [DecidableEq Row] (hlossless : Lossless key size table)
    {orders : ℕ → RowOrder Row} {count page later : ℕ} (hcount : table.length ≤ count * size)
    (hlt : page < later) (hlater : later < count) {row : Row}
    (hpage : row ∈ window (page * size) size (descending key (orders page) table)) :
    row ∉ window (later * size) size (descending key (orders later) table) := by
  have hnodup : (readPages key orders size count table).Nodup := by
    apply List.nodup_iff_count_eq_one.mpr
    intro other hother
    obtain ⟨number, -, hnumber⟩ := List.mem_flatMap.mp hother
    apply hlossless orders count hcount
    exact (descending_perm key (orders number) table).mem_iff.mp
      ((window_sublist _ _ _).subset hnumber)
  have hdisjoint := List.pairwise_iff_getElem.mp (List.nodup_flatMap.mp hnodup).2 page later
    (by simp; omega) (by simpa using hlater) hlt
  simp only [List.getElem_range] at hdisjoint
  exact hdisjoint hpage

/-- Rows with one key on two pages: two of them are neighbours where a page ends. -/
theorem exists_tied_neighbours (hperm : rows.Perm table) (hsorted : Sorted key rows)
    (hsize : 0 < size) {row : Row} (hrow : row ∈ table)
    (hne : countAbove key table (key row) / size ≠ (countFrom key table (key row) - 1) / size) :
    ∃ page before first second after, rows = before ++ first :: second :: after ∧
      key first = key second ∧ before.length + 1 = (page + 1) * size := by
  obtain ⟨place, hplace, hfound⟩ := List.getElem_of_mem (hperm.mem_iff.mpr hrow)
  obtain ⟨hlower, hupper⟩ := (hsorted.key_eq_iff hperm hplace (key row)).mp (congrArg key hfound)
  have hlength : countFrom key table (key row) ≤ rows.length :=
    hperm.length_eq ▸ List.countP_le_length
  have hlater : countAbove key table (key row) / size <
      (countFrom key table (key row) - 1) / size :=
    lt_of_le_of_ne (Nat.div_le_div_right (by omega)) hne
  have hstart := (Nat.div_lt_iff_lt_mul hsize).mp hlater
  have hend := Nat.div_mul_le_self (countFrom key table (key row) - 1) size
  obtain ⟨page, hpage⟩ := Nat.exists_eq_succ_of_ne_zero (Nat.ne_zero_of_lt hlater)
  rw [hpage] at hstart hend
  -- the last row of the page and the one after it
  obtain ⟨position, hposition⟩ := Nat.exists_eq_succ_of_ne_zero (Nat.ne_zero_of_lt hstart)
  rw [hposition] at hstart hend
  have hbound : position + 1 < rows.length := by omega
  refine ⟨page, rows.take position, rows[position], rows[position + 1], rows.drop (position + 2),
    eq_around hbound, ?_, ?_⟩
  · rw [(hsorted.key_eq_iff hperm (by omega) (key row)).mpr (by omega),
      (hsorted.key_eq_iff hperm (by omega) (key row)).mpr (by omega)]
  · rw [List.length_take_of_le (by omega)]
    exact hposition.symm

/-- Rows with one key on two pages can be read twice. -/
theorem keepsTies_of_lossless [DecidableEq Row] (hlossless : Lossless key size table)
    (hsize : 0 < size) : KeepsTies key size table := by
  intro row hrow
  by_contra hne
  have hstored := descending_perm key .stored table
  have hsorted := descending_sorted key .stored table
  obtain ⟨page, before, first, second, after, hrows, htied, hend⟩ :=
    exists_tied_neighbours hstored hsorted hsize hrow hne
  rw [hrows] at hstored hsorted
  -- the query of the later page returns the two rows the other way round
  obtain ⟨order, horder⟩ := exists_descending key
    (.trans (List.Perm.append_left _ (.swap _ _ _)) hstored) (hsorted.swap htied)
  let orders : ℕ → RowOrder Row := fun number => if number = page + 1 then order else .stored
  have hcount : table.length ≤ table.length * size := Nat.le_mul_of_pos_right _ hsize
  have hlater : page + 1 < table.length := by
    have hlength := hstored.length_eq
    have hpages := Nat.le_mul_of_pos_right (page + 1) hsize
    rw [List.length_append, List.length_cons, List.length_cons] at hlength
    omega
  rw [Nat.succ_mul] at hend
  have hfirst : first ∈ window (page * size) size (descending key (orders page) table) := by
    simp only [orders, Nat.ne_of_lt (Nat.lt_succ_self page), if_false, hrows]
    exact mem_window_iff.mpr ⟨before.length, by omega, by omega, by simp⟩
  have hagain : first ∈
      window ((page + 1) * size) size (descending key (orders (page + 1)) table) := by
    simp only [orders, if_true, horder]
    rw [Nat.succ_mul]
    exact mem_window_iff.mpr ⟨before.length + 1, by omega, by omega, by simp⟩
  exact hlossless.not_mem_later hcount (Nat.lt_succ_self page) hlater hfirst hagain

/-- Pages give every row once exactly when rows with one key share a page. -/
theorem lossless_iff [DecidableEq Row] (hnodup : table.Nodup) (hsize : 0 < size) :
    Lossless key size table ↔ KeepsTies key size table :=
  ⟨fun hlossless => keepsTies_of_lossless hlossless hsize,
    fun hkeeps => lossless_of_keepsTies hkeeps hnodup hsize⟩

/-- Two rows with one key are never both the only row of their page. -/
theorem not_keepsTies_one {row other : Row} (hrow : row ∈ table) (hother : other ∈ table)
    (hne : row ≠ other) (heq : key other = key row) : ¬ KeepsTies key 1 table := by
  intro hkeeps
  have hshared := hkeeps row hrow
  rw [Nat.div_one, Nat.div_one] at hshared
  have hperm := descending_perm key .stored table
  have hsorted := descending_sorted key .stored table
  obtain ⟨first, hfirst, rfl⟩ := List.getElem_of_mem (hperm.mem_iff.mpr hrow)
  obtain ⟨second, hsecond, rfl⟩ := List.getElem_of_mem (hperm.mem_iff.mpr hother)
  have hfirst' := (hsorted.key_eq_iff hperm hfirst _).mp rfl
  have hsecond' := (hsorted.key_eq_iff hperm hsecond _).mp heq
  apply hne
  congr 1
  omega

end Paging
