import SlimStreamer.Lib.HexText

/-!
# The hex dump

`util::buffer::writeToStream`: rows of sixteen octets, each with its number, the octets in
hexadecimal digits and the same octets as characters.  The text is what a stream with the default
flags receives.

* `writeToStream_eq` — the text is the rows with line feeds between them;
* `row_*` — the columns of a row;
* `octets_rows` — the octets read back from all rows;
* `writeToStream_faithful` — what a reader of the text finds in it.
-/

namespace SlimStreamer

open HexText

namespace HexDump

def totalColumns : ℕ := 16

/-- `std::isprint` in the default locale. -/
def isPrint (ch : UInt8) : Bool := 0x20 ≤ ch.toNat && ch.toNat ≤ 0x7E

/-- An octet in the column of the characters. -/
def printable (ch : UInt8) : Char := if isPrint ch then Char.ofNat ch.toNat else '.'

/-- Writing the octets of a row, which are those from index `i` on. -/
def rowWriter (buffer : List UInt8) (i columnsLeft : ℕ) (charWriter : UInt8 → List Char) :
    List Char :=
  (List.range columnsLeft).flatMap fun c => charWriter (buffer.getD (i + c) 0)

/-- A row without the end of its line. -/
def row (buffer : List UInt8) (r i : ℕ) : List Char :=
  let charsLeft := buffer.length - i
  let columnsLeft := min charsLeft totalColumns
  -- row number and separator
  pair (r &&& 0xFF) ++ [' ', '|', ' '] ++
  rowWriter buffer i columnsLeft (fun ch => pair (0xFF &&& ch.toNat) ++ [' ']) ++
  -- separator between hex and chars
  (if charsLeft < totalColumns then List.replicate ((totalColumns - charsLeft) * 3) ' ' else []) ++
  ['|', ' '] ++
  rowWriter buffer i columnsLeft fun ch => [printable ch]

/-- The loop over the rows, with the number of rows that are left. -/
def writeRows (buffer : List UInt8) : ℕ → ℕ → ℕ → List Char
  | 0, _, _ => []
  | rowsLeft + 1, r, i =>
    if i < buffer.length then
      row buffer r i ++
        -- submitting EOL only if it is not the last row
        (if totalColumns < buffer.length - i then ['\n'] else []) ++
        writeRows buffer rowsLeft (r + 1) (i + totalColumns)
    else []

def totalRows (size : ℕ) : ℕ := size / totalColumns + if size % totalColumns ≠ 0 then 1 else 0

def writeToStream (buffer : List UInt8) : List Char :=
  writeRows buffer (totalRows buffer.length) 0 0

/-! ### The rows of the text -/

theorem totalRows_eq (size : ℕ) : totalRows size = (size + 15) / 16 := by
  unfold totalRows totalColumns
  split <;> omega

/-- The rows from number `r` on, if there are `rowsLeft` of them. -/
theorem writeRows_eq (buffer : List UInt8) (rowsLeft r : ℕ)
    (h : r + rowsLeft = totalRows buffer.length) :
    writeRows buffer rowsLeft r (16 * r) =
      ['\n'].intercalate ((List.range' r rowsLeft).map fun r => row buffer r (16 * r)) := by
  rw [totalRows_eq] at h
  induction rowsLeft generalizing r with
  | zero => rfl
  | succ rowsLeft ih =>
    have hrest := ih (r + 1) (by omega)
    have hinside : 16 * r < buffer.length := by omega
    rw [writeRows, if_pos hinside, totalColumns, ← Nat.mul_succ, hrest, List.range'_succ]
    cases rowsLeft with
    | zero =>
      have hlast : ¬ 16 < buffer.length - 16 * r := by omega
      simp [hlast]
    | succ rowsLeft =>
      have hmore : 16 < buffer.length - 16 * r := by omega
      rw [if_pos hmore, List.map_cons, List.range'_succ, List.map_cons, List.intercalate_cons_cons]

def rows (buffer : List UInt8) : List (List Char) :=
  (List.range (totalRows buffer.length)).map fun r => row buffer r (16 * r)

/-- **The text** is the rows with line feeds between them. -/
theorem writeToStream_eq (buffer : List UInt8) :
    writeToStream buffer = ['\n'].intercalate (rows buffer) := by
  have h := writeRows_eq buffer (totalRows buffer.length) 0 (Nat.zero_add _)
  rw [← List.range_eq_range'] at h
  exact h

/-! ### The columns of a row -/

/-- The octets of a row. -/
def rowOctets (buffer : List UInt8) (r : ℕ) : List UInt8 := (buffer.drop (16 * r)).take 16

theorem length_rowOctets (buffer : List UInt8) (r : ℕ) :
    (rowOctets buffer r).length = min (buffer.length - 16 * r) 16 := by
  simp [rowOctets, Nat.min_comm]

/-- Writing by index writes the octets of the row. -/
theorem rowWriter_eq (buffer : List UInt8) (r : ℕ) (charWriter : UInt8 → List Char) :
    rowWriter buffer (16 * r) (min (buffer.length - 16 * r) totalColumns) charWriter =
      (rowOctets buffer r).flatMap charWriter := by
  have hoctets : (List.range (min (buffer.length - 16 * r) totalColumns)).map
      (fun c => buffer.getD (16 * r + c) 0) = rowOctets buffer r := by
    apply List.ext_getElem
    · rw [length_rowOctets]
      simp [totalColumns]
    · intro c hc _
      have hin : 16 * r + c < buffer.length := by
        simp only [List.length_map, List.length_range] at hc
        omega
      simp [rowOctets, List.getElem?_eq_getElem hin]
  rw [← hoctets, List.flatMap_map]
  rfl

/-- What stands between the two separators. -/
def hexColumns (buffer : List UInt8) (r : ℕ) : List Char :=
  pairs (rowOctets buffer r) ++ List.replicate ((16 - (rowOctets buffer r).length) * 3) ' '

theorem row_eq (buffer : List UInt8) (r : ℕ) :
    row buffer r (16 * r) =
      pair (r % 256) ++ [' ', '|', ' '] ++ hexColumns buffer r ++ ['|', ' '] ++
        (rowOctets buffer r).map printable := by
  have hnumber : r &&& 0xFF = r % 256 := Nat.and_two_pow_sub_one_eq_mod r 8
  have hoctet : ∀ b : UInt8, 0xFF &&& b.toNat = b.toNat := by
    intro b
    rw [Nat.and_comm, show (0xFF : ℕ) = 2 ^ 8 - 1 by rfl, Nat.and_two_pow_sub_one_eq_mod,
      Nat.mod_eq_of_lt b.toNat_lt]
  have hpad : (if buffer.length - 16 * r < totalColumns then
      List.replicate ((totalColumns - (buffer.length - 16 * r)) * 3) ' ' else []) =
      List.replicate ((16 - (rowOctets buffer r).length) * 3) ' ' := by
    rw [length_rowOctets, totalColumns]
    split
    · rename_i hshort
      rw [Nat.min_eq_left (Nat.le_of_lt hshort)]
    · rename_i hfull
      rw [Nat.min_eq_right (Nat.le_of_not_lt hfull)]
      rfl
  simp only [row, rowWriter_eq, hpad, hnumber, hoctet, hexColumns,
    pairs, List.append_assoc]
  simp [← List.map_eq_flatMap]

theorem length_hexColumns (buffer : List UInt8) (r : ℕ) : (hexColumns buffer r).length = 48 := by
  have hlength := length_rowOctets buffer r
  simp only [hexColumns, List.length_append, length_pairs, List.length_replicate]
  omega

theorem not_mem_hexColumns {c : Char} (h : digitValue c = none) (hc : c ≠ ' ')
    (buffer : List UInt8) (r : ℕ) : c ∉ hexColumns buffer r := by
  rw [hexColumns, List.mem_append]
  rintro (hpairs | hpad)
  · exact not_mem_pairs h hc _ hpairs
  · exact hc (List.eq_of_mem_replicate hpad)

theorem printable_ne_newline (ch : UInt8) : printable ch ≠ '\n' := by
  rw [printable]
  split
  · rename_i hprint
    simp only [isPrint, Bool.and_eq_true, decide_eq_true_eq] at hprint
    intro h
    have hvalid : ch.toNat.isValidChar := Or.inl (by omega)
    have htoNat : (Char.ofNat ch.toNat).toNat = ch.toNat := by
      rw [Char.ofNat, dif_pos hvalid]
      rfl
    rw [h, show '\n'.toNat = 10 by rfl] at htoNat
    omega
  · decide

theorem newline_not_mem_row (buffer : List UInt8) (r : ℕ) : '\n' ∉ row buffer r (16 * r) := by
  have hnumber : '\n' ∉ pair (r % 256) := not_mem_pair rfl (Nat.mod_lt _ (by decide))
  have hhex : '\n' ∉ hexColumns buffer r := not_mem_hexColumns rfl (by decide) buffer r
  have hchars : '\n' ∉ (rowOctets buffer r).map printable := by
    rw [List.mem_map]
    rintro ⟨ch, _, hch⟩
    exact printable_ne_newline ch hch
  rw [row_eq]
  simp [hnumber, hhex, hchars]

theorem length_number (r : ℕ) : (pair (r % 256)).length = 2 := by
  rw [pair_eq (Nat.mod_lt _ (by decide))]
  rfl

/-- **The columns of a row**, counted from the left. -/
theorem row_columns (buffer : List UInt8) (r : ℕ) :
    let line := row buffer r (16 * r)
    line.take 2 = pair (r % 256) ∧ (line.drop 5).take 48 = hexColumns buffer r ∧
      line.drop 55 = (rowOctets buffer r).map printable := by
  intro line
  have hnumber := length_number r
  have hhex := length_hexColumns buffer r
  refine ⟨?_, ?_, ?_⟩
  · simp [line, row_eq, hnumber]
  · simp [line, row_eq, hnumber, hhex, List.take_append, List.drop_append]
  · rw [show line = (pair (r % 256) ++ [' ', '|', ' '] ++ hexColumns buffer r ++ ['|', ' ']) ++
      (rowOctets buffer r).map printable from row_eq buffer r]
    apply List.drop_left'
    simp [hnumber, hhex]

/-- The first place of a separator that a text does not have before. -/
theorem idxOf_separator {l : List Char} (h : '|' ∉ l) (m : List Char) :
    (l ++ '|' :: m).idxOf '|' = l.length := by
  rw [List.idxOf_append, if_neg h]
  simp

/-- The separators of a row are in the columns `3` and `53`. -/
theorem row_separators (buffer : List UInt8) (r : ℕ) :
    let line := row buffer r (16 * r)
    line.idxOf '|' = 3 ∧ (line.drop 4).idxOf '|' = 49 := by
  intro line
  have hnumber := length_number r
  have hhex := length_hexColumns buffer r
  have hnot : '|' ∉ pair (r % 256) ++ [' '] := by
    simp [not_mem_pair (show digitValue '|' = none by rfl) (Nat.mod_lt r (show 0 < 256 by decide))]
  have hnot' : '|' ∉ [' '] ++ hexColumns buffer r := by
    simp [not_mem_hexColumns (show digitValue '|' = none by rfl) (by decide) buffer r]
  constructor
  · have hline : line = (pair (r % 256) ++ [' ']) ++ '|' :: ([' '] ++ hexColumns buffer r ++
        ['|', ' '] ++ (rowOctets buffer r).map printable) := by
      simp [line, row_eq]
    rw [hline, idxOf_separator hnot, List.length_append, hnumber]
    rfl
  · have hline : line = (pair (r % 256) ++ [' ', '|']) ++ (([' '] ++ hexColumns buffer r) ++
        '|' :: ([' '] ++ (rowOctets buffer r).map printable)) := by
      simp [line, row_eq]
    rw [hline, List.drop_left' (by simp [hnumber]), idxOf_separator hnot', List.length_append, hhex]
    rfl

/-! ### Reading the text -/

theorem readOctets_blanks (n : ℕ) : readOctets (List.replicate n ' ') = [] := by
  cases n with
  | zero => rfl
  | succ n => exact readOctets_of_not_digit rfl _

/-- **The octets of all rows** are those of the buffer. -/
theorem octets_rows (buffer : List UInt8) :
    (rows buffer).flatMap (fun line => readOctets ((line.drop 5).take 48)) = buffer := by
  have hrow : ∀ r, readOctets (((row buffer r (16 * r)).drop 5).take 48) = rowOctets buffer r := by
    intro r
    rw [(row_columns buffer r).2.1, hexColumns, readOctets_pairs, readOctets_blanks,
      List.append_nil]
  rw [rows, List.flatMap_map]
  simp only [hrow, rowOctets]
  rw [flatMap_blocks, List.take_of_length_le]
  rw [totalRows_eq]
  omega

/-- The lines of a text that no line feed ends. -/
def textLines (text : List Char) : List (List Char) :=
  if text.isEmpty then [] else text.splitOn '\n'

/-- **The lines of the text** are the rows. -/
theorem textLines_writeToStream (buffer : List UInt8) :
    textLines (writeToStream buffer) = rows buffer := by
  rw [writeToStream_eq, textLines]
  by_cases hrows : rows buffer = []
  · rw [hrows]
    rfl
  · have hsplit : (['\n'].intercalate (rows buffer)).splitOn '\n' = rows buffer := by
      apply List.splitOn_intercalate _ _ hrows
      intro line hline
      obtain ⟨r, _, rfl⟩ := List.mem_map.mp hline
      exact newline_not_mem_row buffer r
    rw [hsplit, if_neg]
    rw [List.isEmpty_iff]
    intro hempty
    rw [hempty] at hsplit
    -- a text without characters has one line, and no row is empty
    have hline : [] ∈ rows buffer := by
      rw [← hsplit]
      simp
    obtain ⟨r, _, hrow⟩ := List.mem_map.mp hline
    have hnumber := (row_columns buffer r).1
    rw [hrow] at hnumber
    have hlength := length_number r
    rw [← hnumber] at hlength
    cases hlength

/-- **The dump is faithful.**  For a buffer of any length the text consists of as many lines as there
are rows, with line feeds only between them; the octets of all lines are those of the buffer; and
every line has its number, its separators and its characters in their columns. -/
theorem writeToStream_faithful (buffer : List UInt8) :
    writeToStream buffer = ['\n'].intercalate (textLines (writeToStream buffer)) ∧
      (textLines (writeToStream buffer)).length = (buffer.length + 15) / 16 ∧
      (textLines (writeToStream buffer)).flatMap
        (fun line => readOctets ((line.drop 5).take 48)) = buffer ∧
      ∀ r line, (textLines (writeToStream buffer))[r]? = some line →
        '\n' ∉ line ∧ line.take 2 = pair (r % 256) ∧
          line.idxOf '|' = 3 ∧ (line.drop 4).idxOf '|' = 49 ∧
          line.drop 55 = ((buffer.drop (16 * r)).take 16).map printable := by
  rw [textLines_writeToStream]
  refine ⟨writeToStream_eq buffer, ?_, octets_rows buffer, ?_⟩
  · simp [rows, totalRows_eq]
  · intro r line hline
    obtain ⟨hr, rfl⟩ := List.getElem?_eq_some_iff.mp hline
    have hrow : (rows buffer)[r] = row buffer r (16 * r) := by simp [rows]
    obtain ⟨hnumber, _, hchars⟩ := row_columns buffer r
    obtain ⟨hfirst, hsecond⟩ := row_separators buffer r
    rw [hrow]
    exact ⟨newline_not_mem_row buffer r, hnumber, hfirst, hsecond, hchars⟩

/-- A last row that is not full. -/
example : String.ofList (writeToStream [0x31, 0x0d, 0xff]) =
    "00 | 31 0d ff                                        | 1.." := by decide

end HexDump

end SlimStreamer
