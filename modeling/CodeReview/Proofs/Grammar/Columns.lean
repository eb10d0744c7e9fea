import CodeReview.Concrete.Node
import CodeReview.Grammar.Source
import CodeReview.Proofs.Text.Utf8
/-!
# Places in texts

The place of a byte offset is in a line of the text (`ofOffset_inLine`), and its column is turned into one more than the
number of the line's characters that start before it, also where the offset falls inside of a character (`column_eq`,
`columns_count_characters`).
So a place of a text is inside of it, in lines and columns that count from one (`inside_ofOffset`).
-/
namespace CodeReview

open Text (Bytes)
open Text.Utf8 (bytesOf offset startsBefore)

def Text.line? (text : String) (row : Nat) : Option (List Char) := (Text.splitOn '\n' text.toList)[row]?

theorem Text.line?_eq_some {text : String} {row : Nat} {cs : List Char} (h : Text.line? text row = some cs) :
    row < max 1 (Text.countLines text) ∧ ∀ c ∈ cs, c ∈ text.toList := by
  refine ⟨?_, Text.mem_of_mem_splitOn (List.mem_of_getElem? h)⟩
  have hrow := (List.getElem?_eq_some_iff.1 h).1
  rw [Text.length_splitOn] at hrow
  rw [Text.countLines]
  split
  · rename_i hempty
    rw [String.isEmpty_iff.1 hempty] at hrow
    exact hrow
  · omega

/-- That a line and a column, which count from one, are those of a character of a text, or of the end of a line. -/
structure Inside (text : String) (line column : Int) : Prop where
  line_ge : 1 ≤ line
  line_le : line ≤ max 1 (Text.countLines text)
  column_ge : 1 ≤ column
  column_le : ∃ cs, Text.line? text (line - 1).toNat = some cs ∧ column ≤ 1 + cs.length

namespace Grammar.Source

theorem line?_ofText (text : String) (row : Nat) : (ofText text).line? row = (Text.line? text row).map bytesOf := by
  have hrow : ¬ (row : Int) < 0 := by omega
  rw [line?, if_neg hrow, if_neg hrow, Int.toNat_natCast, ofText, ofBytes, Text.Utf8.encode_eq,
    Text.Utf8.splitOn_bytesOf, List.getElem?_map]
  rfl

/-- Columns count the characters that start before a byte. -/
theorem columnIn_bytesOf (cs : List Char) (b : Nat) : columnIn (bytesOf cs) b = startsBefore cs b + 1 := by
  have hb : ¬ (b : Int) < 0 := by omega
  have hprefix : Text.between 0 (b : Int) (bytesOf cs) = (bytesOf cs).take b := by
    simp [Text.between, Text.before, hb]
  rw [columnIn, hprefix, Text.Utf8.length_decodeLossy_take]

theorem utf8Size_of_ascii {text : String} (h : (ofText text).ascii = true) : ∀ c ∈ text.toList, c.utf8Size = 1 := by
  refine Text.Utf8.utf8Size_of_ascii fun b hb => ?_
  rw [← Text.Utf8.encode_eq] at hb
  exact of_decide_eq_true (List.all_eq_true.1 h b hb)

/-- **A column counts the characters of its line that start before it.**  In a text of ASCII bytes that is all bytes. -/
theorem column_eq {text : String} {row b : Nat} {cs : List Char} (h : Text.line? text row = some cs)
    (hb : b ≤ (bytesOf cs).length) : (ofText text).column row b = startsBefore cs b + 1 := by
  rw [column]
  split
  · rename_i hascii
    have hone : ∀ c ∈ cs, c.utf8Size = 1 := fun c hc => utf8Size_of_ascii hascii c ((Text.line?_eq_some h).2 c hc)
    rw [(Text.Utf8.startsBefore_eq_iff cs b hb).2 fun c hc => hone c (List.mem_of_mem_take hc)]
  · rw [line?_ofText, h]
    exact columnIn_bytesOf cs b

theorem ascii_iff {text : String} : (ofText text).ascii = true ↔ ∀ c ∈ text.toList, c.toNat < 0x80 := by
  rw [← Text.Utf8.ascii_iff, ← Text.Utf8.encode_eq]
  show ((Text.Utf8.encode text).all fun b => decide (b < 0x80)) = true ↔ _
  simp [List.all_eq_true, UInt8.lt_iff_toNat_lt]

/-- In a text of ASCII characters the byte column is the column also where it is read off the bytes of the line. -/
theorem columnIn_of_ascii {text : String} (h : (ofText text).ascii = true) {row b : Nat} {cs : List Char}
    (hcs : Text.line? text row = some cs) (hb : b ≤ (bytesOf cs).length) : columnIn (bytesOf cs) b = b + 1 := by
  have hone : ∀ c ∈ cs, c.utf8Size = 1 := fun c hc => utf8Size_of_ascii h c ((Text.line?_eq_some hcs).2 c hc)
  rw [columnIn_bytesOf, (Text.Utf8.startsBefore_eq_iff cs b hb).2 fun c hc => hone c (List.mem_of_mem_take hc)]

/-- **Columns count characters.** -/
theorem columns_count_characters {text : String} {row : Nat} (hrow : row < (ofText text).lines.length) :
    ∃ cs, Text.line? text row = some cs ∧ (ofText text).line? row = some (bytesOf cs) ∧
      (∀ b ≤ (bytesOf cs).length,
        (ofText text).column row b = 1 + ((List.range cs.length).countP fun i => offset cs i < b)) ∧
      (∀ i ≤ cs.length, (ofText text).column row (offset cs i) = i + 1) ∧
      (∀ b b' : Nat, b ≤ b' → b' ≤ (bytesOf cs).length → (ofText text).column row b ≤ (ofText text).column row b') ∧
      (∀ b ≤ (bytesOf cs).length, 1 ≤ (ofText text).column row b ∧ (ofText text).column row b ≤ cs.length + 1) ∧
      ((∀ c ∈ text.toList, c.toNat < 0x80) → ∀ b ≤ (bytesOf cs).length,
        (ofText text).column row b = b + 1 ∧ columnIn (bytesOf cs) b = b + 1) := by
  have hlines : (ofText text).lines = (Text.splitOn '\n' text.toList).map bytesOf := by
    rw [ofText, ofBytes, Text.Utf8.encode_eq, Text.Utf8.splitOn_bytesOf]
  rw [hlines, List.length_map] at hrow
  have hline : Text.line? text row = some (Text.splitOn '\n' text.toList)[row] := List.getElem?_eq_getElem hrow
  generalize (Text.splitOn '\n' text.toList)[row] = cs at hline
  refine ⟨cs, hline, by rw [line?_ofText, hline, Option.map_some], fun b hb => ?_, fun i hi => ?_, fun b b' hbb' hb' => ?_,
    fun b hb => ?_, fun hascii b hb => ?_⟩
  · rw [column_eq hline hb, Text.Utf8.startsBefore_eq_countP, Int.add_comm]
  · rw [column_eq hline (Text.Utf8.offset_le cs i)]
    exact congrArg (fun n : Nat => (n : Int) + 1) (Text.Utf8.startsBefore_offset hi)
  · rw [column_eq hline (hbb'.trans hb'), column_eq hline hb']
    have := Text.Utf8.startsBefore_mono cs hbb'
    omega
  · rw [column_eq hline hb]
    have := Text.Utf8.startsBefore_le_length cs b
    omega
  · have hall := ascii_iff.2 hascii
    exact ⟨by rw [column, if_pos hall], columnIn_of_ascii hall hline hb⟩

def mixedText : String := "é\n€😀x"

/-- A byte inside of the second character of a line is in column three. -/
theorem column_inside_character : 1 < (ofText mixedText).lines.length ∧ (ofText mixedText).column (1 : Nat) (5 : Nat) = 3 := by
  have hrow : 1 < (ofText mixedText).lines.length := by decide +kernel
  obtain ⟨cs, hline, -, hcolumn, -⟩ := columns_count_characters hrow
  have hcs : Text.line? mixedText 1 = some ['€', '😀', 'x'] := by decide +kernel
  obtain rfl : ['€', '😀', 'x'] = cs := Option.some.inj (hcs.symm.trans hline)
  refine ⟨hrow, ?_⟩
  rw [hcolumn 5 (by decide +kernel)]
  decide +kernel

end Grammar.Source

namespace Concrete

theorem Point.ofOffset_eq {bytes : Bytes} {o : Nat} (h : o ≤ bytes.length) : Point.ofOffset bytes o =
    ⟨(bytes.take o).count 10, ((bytes.take o).reverse.takeWhile (· != 10)).length⟩ := by
  have ho : ¬ (o : Int) < 0 := by omega
  have hlen : (bytes.take o).length = o := List.length_take_of_le h
  have hle : ((bytes.take o).reverse.takeWhile (· != 10)).length ≤ o := by
    refine (List.takeWhile_sublist _).length_le.trans ?_
    rw [List.length_reverse, hlen]
  simp only [Point.ofOffset, Text.before, if_neg ho, Int.toNat_natCast, hlen, Point.mk.injEq, true_and]
  omega

/-- **The place of a byte offset is in a line of the text.** -/
theorem Point.ofOffset_inLine {text : String} {o : Nat} (h : o ≤ (Text.Utf8.encode text).length) :
    ∃ (row b : Nat) (cs : List Char), Point.ofOffset (Text.Utf8.encode text) o = ⟨row, b⟩ ∧
      Text.line? text row = some cs ∧ b ≤ (bytesOf cs).length := by
  obtain ⟨line, hline, hle⟩ :=
    Text.exists_line 10 ((Text.Utf8.encode text).take o) ((Text.Utf8.encode text).drop o)
  rw [List.take_append_drop, Text.Utf8.encode_eq, Text.Utf8.splitOn_bytesOf, List.getElem?_map,
    Option.map_eq_some_iff] at hline
  obtain ⟨cs, hcs, rfl⟩ := hline
  rw [← Text.Utf8.encode_eq] at hcs
  exact ⟨_, _, cs, Point.ofOffset_eq h, hcs, hle⟩

end Concrete

/-- **The place of a byte offset is inside of the text**, also where it falls inside of a character. -/
theorem inside_ofOffset {text : String} {o : Nat} (h : o ≤ (Text.Utf8.encode text).length) {p : Concrete.Point}
    (hp : p = Concrete.Point.ofOffset (Text.Utf8.encode text) o) :
    Inside text (p.row + 1) ((Grammar.Source.ofText text).column p.row p.column) := by
  obtain ⟨row, b, cs, hplace, hcs, hb⟩ := Concrete.Point.ofOffset_inLine h
  rw [hp, hplace]
  dsimp only
  have hrow : row < max 1 (Text.countLines text) := (Text.line?_eq_some hcs).1
  have hle := Text.Utf8.startsBefore_le_length cs b
  rw [Grammar.Source.column_eq hcs hb]
  refine ⟨by omega, by omega, by omega, cs, ?_, by omega⟩
  rw [Int.add_sub_cancel, Int.toNat_natCast, hcs]

theorem inside_start (text : String) : Inside text 1 1 := by
  obtain ⟨p, ps, h⟩ := List.exists_cons_of_ne_nil (Text.splitOn_ne_nil '\n' text.toList)
  refine ⟨Int.le_refl 1, by omega, Int.le_refl 1, p, ?_, by omega⟩
  rw [Text.line?, h]
  rfl

end CodeReview
