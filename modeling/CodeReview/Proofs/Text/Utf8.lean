import CodeReview.Proofs.Text.Lines
import CodeReview.Text.Utf8
/-!
# Reading cut characters

The bytes of a character spell it: one byte below 128, or a lead byte and the continuation bytes that it announces
(`spells_utf8EncodeChar`).  Cut off behind the lead byte or a continuation byte they are one maximal invalid part.  So the
first bytes of some characters are read as one character for each that starts there (`length_decodeLossy_take`), and these
are as many as the bytes exactly if only the last of them may take more than one (`startsBefore_eq_iff`).  Their number can
be read off the offsets of the characters (`startsBefore_eq_countP`).
-/
namespace CodeReview.Text.Utf8

def bytesOf (cs : List Char) : Bytes := cs.flatMap String.utf8EncodeChar

theorem encode_eq (s : String) : encode s = bytesOf s.toList := by
  rw [encode, String.toUTF8, ← String.utf8Encode_toList, List.utf8Encode, List.data_toByteArray]
  rfl

theorem toNat_ofNat {n : Nat} (h : n < 256) : (UInt8.ofNat n).toNat = n := UInt8.toNat_ofNat_of_lt' h

/-! ## Lead bytes -/

theorem lead_two {n : Nat} (h : 0xC2 ≤ n) (h' : n < 0xE0) :
    lead (UInt8.ofNat n) = some (1, 0x80, 0xBF, n - 0xC0) := by
  have h1 : ¬ n < 0xC2 := by omega
  simp only [lead, toNat_ofNat (show n < 256 by omega), if_neg h1, if_pos h']

theorem lead_three {n : Nat} (h : 0xE0 ≤ n) (h' : n < 0xF0) : lead (UInt8.ofNat n) =
    some (2, if n = 0xE0 then 0xA0 else 0x80, if n = 0xED then 0x9F else 0xBF, n - 0xE0) := by
  have h1 : ¬ n < 0xC2 := by omega
  have h2 : ¬ n < 0xE0 := by omega
  simp only [lead, toNat_ofNat (show n < 256 by omega), if_neg h1, if_neg h2, beq_iff_eq]
  split
  · rename_i he
    simp [he]
  · split
    · rename_i he
      simp [he]
    · simp

theorem lead_four {n : Nat} (h : 0xF0 ≤ n) (h' : n < 0xF5) : lead (UInt8.ofNat n) =
    some (3, if n = 0xF0 then 0x90 else 0x80, if n = 0xF4 then 0x8F else 0xBF, n - 0xF0) := by
  have h1 : ¬ n < 0xC2 := by omega
  have h2 : ¬ n < 0xE0 := by omega
  have h3 : ¬ n = 0xE0 := by omega
  have h4 : ¬ n = 0xED := by omega
  have h5 : ¬ n < 0xF0 := by omega
  simp only [lead, toNat_ofNat (show n < 256 by omega), if_neg h1, if_neg h2, beq_iff_eq, if_neg h3, if_neg h4, if_neg h5]
  split
  · rename_i he
    simp [he]
  · split
    · rename_i he he'
      have : n ≠ 0xF4 := by omega
      simp [this]
    · have : n = 0xF4 := by omega
      simp [this]

/-! ## Continuation bytes -/

/-- The bytes that may follow a lead byte, the first of them between `lo` and `hi`. -/
def Continues : (lo hi : Nat) → Bytes → Prop
  | _, _, [] => True
  | lo, hi, b :: bs => 0x80 ≤ lo ∧ lo ≤ b.toNat ∧ b.toNat ≤ hi ∧ hi ≤ 0xBF ∧ Continues 0x80 0xBF bs

/-- What continuation bytes stand for behind `acc`. -/
def value (acc : Nat) (bs : Bytes) : Nat := bs.foldl (fun acc b => acc * 64 + (b.toNat - 0x80)) acc

theorem continue_append : ∀ (bs rest : Bytes) (lo hi acc len : Nat), Continues lo hi bs →
    continue_ bs.length lo hi acc len (bs ++ rest) = .char (Char.ofNat (value acc bs)) (len + bs.length)
  | [], _, _, _, _, _, _ => rfl
  | b :: bs, rest, lo, hi, acc, len, ⟨_, hlo, hhi, _, hbs⟩ => by
    rw [List.length_cons, List.cons_append, continue_]
    simp only [hlo, hhi, decide_true, Bool.and_self, if_true]
    rw [continue_append bs rest _ _ _ _ hbs, Nat.add_right_comm, Nat.add_assoc, value, value, List.foldl_cons]

theorem continue_take : ∀ (bs : Bytes) (k lo hi acc len : Nat), Continues lo hi bs → k < bs.length →
    continue_ bs.length lo hi acc len (bs.take k) = .invalid (len + k) .truncated
  | [], _, _, _, _, _, _, hk => by cases hk
  | _ :: _, 0, _, _, _, _, _, _ => rfl
  | b :: bs, k + 1, lo, hi, acc, len, ⟨_, hlo, hhi, _, hbs⟩, hk => by
    rw [List.length_cons, List.take_succ_cons, continue_]
    simp only [hlo, hhi, decide_true, Bool.and_self, if_true]
    rw [continue_take bs k _ _ _ _ hbs (Nat.lt_of_succ_lt_succ hk), Nat.add_right_comm, Nat.add_assoc]

theorem Continues.ge : ∀ {lo hi : Nat} {bs : Bytes}, Continues lo hi bs → ∀ b ∈ bs, 0x80 ≤ b.toNat
  | _, _, [], _, b, hb => by cases hb
  | _, _, x :: _, ⟨hge, hlo, _, _, hbs⟩, b, hb => by
    rcases List.mem_cons.1 hb with rfl | hb
    · exact Nat.le_trans hge hlo
    · exact hbs.ge b hb

/-! ## Whole characters -/

/-- The bytes that are read as a character: one below 128, or a lead byte and what it announces. -/
inductive Spells (c : Char) : Bytes → Prop
  | one {b : UInt8} : b.toNat < 0x80 → Char.ofNat b.toNat = c → Spells c [b]
  | more {b : UInt8} {bs : Bytes} {lo hi acc : Nat} : 0x80 ≤ b.toNat → lead b = some (bs.length, lo, hi, acc) →
    Continues lo hi bs → Char.ofNat (value acc bs) = c → Spells c (b :: bs)

theorem spells_utf8EncodeChar (c : Char) : Spells c (String.utf8EncodeChar c) := by
  have hc : Char.ofNat c.val.toNat = c := c.ofNat_toNat
  have hvalid : c.val.toNat < 0xD800 ∨ 0xDFFF < c.val.toNat ∧ c.val.toNat < 0x110000 := c.valid
  fun_cases String.utf8EncodeChar c with
  | case1 v h =>
    have hv : (UInt8.ofNat v).toNat = v := toNat_ofNat (by omega)
    refine .one (by omega) (by rw [hv, hc])
  | case2 v h h' =>
    have hb : (UInt8.ofNat (v / 64 % 32 + 192)).toNat = v / 64 % 32 + 192 := toNat_ofNat (by omega)
    have hx : (UInt8.ofNat (v % 64 + 128)).toNat = v % 64 + 128 := toNat_ofNat (by omega)
    refine .more (by omega) (lead_two (by omega) (by omega)) ?_ ?_
    · exact ⟨Nat.le_refl _, by omega, by omega, Nat.le_refl _, trivial⟩
    · refine (congrArg Char.ofNat ?_).trans hc
      simp only [value, List.foldl_cons, List.foldl_nil, hx]
      omega
  | case3 v h h' h'' =>
    have hb : (UInt8.ofNat (v / 4096 % 16 + 224)).toNat = v / 4096 % 16 + 224 := toNat_ofNat (by omega)
    have hx : (UInt8.ofNat (v / 64 % 64 + 128)).toNat = v / 64 % 64 + 128 := toNat_ofNat (by omega)
    have hy : (UInt8.ofNat (v % 64 + 128)).toNat = v % 64 + 128 := toNat_ofNat (by omega)
    refine .more (by omega) (lead_three (by omega) (by omega)) ?_ ?_
    · refine ⟨by split <;> omega, by split <;> omega, by split <;> omega, by split <;> omega, ?_⟩
      exact ⟨Nat.le_refl _, by omega, by omega, Nat.le_refl _, trivial⟩
    · refine (congrArg Char.ofNat ?_).trans hc
      simp only [value, List.foldl_cons, List.foldl_nil, hx, hy]
      omega
  | case4 v h h' h'' =>
    have hb : (UInt8.ofNat (v / 262144 % 8 + 240)).toNat = v / 262144 % 8 + 240 := toNat_ofNat (by omega)
    have hx : (UInt8.ofNat (v / 4096 % 64 + 128)).toNat = v / 4096 % 64 + 128 := toNat_ofNat (by omega)
    have hy : (UInt8.ofNat (v / 64 % 64 + 128)).toNat = v / 64 % 64 + 128 := toNat_ofNat (by omega)
    have hz : (UInt8.ofNat (v % 64 + 128)).toNat = v % 64 + 128 := toNat_ofNat (by omega)
    refine .more (by omega) (lead_four (by omega) (by omega)) ?_ ?_
    · refine ⟨by split <;> omega, by split <;> omega, by split <;> omega, by split <;> omega, ?_⟩
      exact ⟨Nat.le_refl _, by omega, by omega, Nat.le_refl _, Nat.le_refl _, by omega, by omega, Nat.le_refl _, trivial⟩
    · refine (congrArg Char.ofNat ?_).trans hc
      simp only [value, List.foldl_cons, List.foldl_nil, hx, hy, hz]
      omega

theorem Spells.next_append {c : Char} {b : UInt8} {bs : Bytes} (h : Spells c (b :: bs)) (rest : Bytes) :
    next b (bs ++ rest) = .char c (bs.length + 1) := by
  unfold next
  cases h with
  | one hb hc => rw [if_pos hb, hc, List.length_nil]
  | more hb hlead hbs hc =>
    have hno : ¬ b.toNat < 0x80 := by omega
    rw [if_neg hno, hlead]
    dsimp only
    rw [continue_append _ _ _ _ _ _ hbs, hc, Nat.add_comm]

theorem Spells.next_take {c : Char} {b : UInt8} {bs : Bytes} (h : Spells c (b :: bs)) {k : Nat} (hk : k < bs.length) :
    next b (bs.take k) = .invalid (k + 1) .truncated := by
  unfold next
  cases h with
  | one => cases hk
  | more hb hlead hbs hc =>
    have hno : ¬ b.toNat < 0x80 := by omega
    rw [if_neg hno, hlead]
    dsimp only
    rw [continue_take _ _ _ _ _ _ hbs hk, Nat.add_comm]

/-! ## Texts -/

theorem decodeLossyFrom_skip : ∀ (k : Nat) (bs : Bytes), decodeLossyFrom k bs = decodeLossy (bs.drop k)
  | 0, _ => rfl
  | _ + 1, [] => rfl
  | k + 1, _ :: bs => by rw [decodeLossyFrom, decodeLossyFrom_skip k bs, List.drop_succ_cons]

theorem Spells.decodeLossy_append {c : Char} {bs : Bytes} (h : Spells c bs) (rest : Bytes) :
    decodeLossy (bs ++ rest) = c :: decodeLossy rest := by
  cases bs with
  | nil => cases h
  | cons b bs =>
    rw [List.cons_append, decodeLossy, decodeLossyFrom, h.next_append rest]
    dsimp only
    rw [decodeLossyFrom_skip, Nat.add_sub_cancel, List.drop_left]

/-- A character that is cut off is read as one character. -/
theorem Spells.length_decodeLossy_take {c : Char} {bs : Bytes} (h : Spells c bs) {k : Nat} (hpos : 0 < k)
    (hk : k < bs.length) : (decodeLossy (bs.take k)).length = 1 := by
  cases bs with
  | nil => cases h
  | cons b bs =>
    obtain ⟨k, rfl⟩ : ∃ j, k = j + 1 := ⟨k - 1, by omega⟩
    rw [List.length_cons] at hk
    rw [List.take_succ_cons, decodeLossy, decodeLossyFrom, h.next_take (by omega)]
    dsimp only
    rw [decodeLossyFrom_skip, Nat.add_sub_cancel, List.drop_take, Nat.sub_self, List.take_zero]
    rfl

/-- How many of some characters start before a byte of theirs. -/
def startsBefore : List Char → Nat → Nat
  | _, 0 => 0
  | [], _ + 1 => 0
  | c :: cs, b + 1 => startsBefore cs (b + 1 - c.utf8Size) + 1

theorem bytesOf_cons (c : Char) (cs : List Char) : bytesOf (c :: cs) = String.utf8EncodeChar c ++ bytesOf cs := rfl

theorem startsBefore_zero (cs : List Char) : startsBefore cs 0 = 0 := by cases cs <;> rfl

/-- **Reading the first bytes of some characters gives as many as start there**, whether or not the last of them is cut
off. -/
theorem length_decodeLossy_take : ∀ (cs : List Char) (b : Nat),
    (decodeLossy ((bytesOf cs).take b)).length = startsBefore cs b
  | cs, 0 => by rw [List.take_zero, startsBefore_zero]; rfl
  | [], _ + 1 => rfl
  | c :: cs, b + 1 => by
    have hc := spells_utf8EncodeChar c
    have hlen : (String.utf8EncodeChar c).length = c.utf8Size := String.length_utf8EncodeChar c
    rw [bytesOf_cons, startsBefore, ← length_decodeLossy_take cs (b + 1 - c.utf8Size)]
    by_cases hcut : b + 1 < c.utf8Size
    · have hnone : b + 1 - c.utf8Size = 0 := by omega
      rw [List.take_append_of_le_length (by omega), hc.length_decodeLossy_take (Nat.succ_pos b) (by omega), hnone]
      rfl
    · rw [List.take_append, List.take_of_length_le (by omega), hc.decodeLossy_append, List.length_cons, hlen]

theorem startsBefore_le_length : ∀ (cs : List Char) (b : Nat), startsBefore cs b ≤ cs.length
  | cs, 0 => by rw [startsBefore_zero]; exact Nat.zero_le _
  | [], _ + 1 => Nat.le_refl 0
  | c :: cs, b + 1 => Nat.succ_le_succ (startsBefore_le_length cs (b + 1 - c.utf8Size))

theorem startsBefore_le : ∀ (cs : List Char) (b : Nat), startsBefore cs b ≤ b
  | cs, 0 => by rw [startsBefore_zero]
  | [], b + 1 => Nat.zero_le _
  | c :: cs, b + 1 => by
    have h := startsBefore_le cs (b + 1 - c.utf8Size)
    have hc := c.utf8Size_pos
    rw [startsBefore]
    omega

theorem length_bytesOf_cons (c : Char) (cs : List Char) :
    (bytesOf (c :: cs)).length = c.utf8Size + (bytesOf cs).length := by
  rw [bytesOf_cons, List.length_append, String.length_utf8EncodeChar]

/-- **As many characters start before a byte as there are bytes before it** exactly if each of them takes one byte, but for
the last, which may take more. -/
theorem startsBefore_eq_iff : ∀ (cs : List Char) (b : Nat), b ≤ (bytesOf cs).length →
    (startsBefore cs b = b ↔ ∀ c ∈ cs.take (b - 1), c.utf8Size = 1)
  | cs, 0, _ => by simp [startsBefore_zero]
  | [], b + 1, h => by cases h
  | c :: cs, 1, _ => by
    have hc : 1 - c.utf8Size = 0 := by have := c.utf8Size_pos; omega
    simp [startsBefore, hc, startsBefore_zero]
  | c :: cs, b + 2, h => by
    rw [length_bytesOf_cons] at h
    have hstep : startsBefore (c :: cs) (b + 2) = startsBefore cs (b + 2 - c.utf8Size) + 1 := rfl
    rw [hstep]
    show _ ↔ ∀ x ∈ (c :: cs).take (b + 1), x.utf8Size = 1
    rw [List.take_succ_cons, List.forall_mem_cons]
    by_cases hc : c.utf8Size = 1
    · have ih := startsBefore_eq_iff cs (b + 1) (by omega)
      rw [Nat.add_sub_cancel] at ih
      rw [hc, and_iff_right rfl, ← ih]
      show startsBefore cs (b + 1) + 1 = b + 2 ↔ _
      omega
    · -- a character of more than one byte leaves too few bytes for the rest
      have hpos := c.utf8Size_pos
      have hle := startsBefore_le cs (b + 2 - c.utf8Size)
      exact iff_of_false (by omega) fun hall => hc hall.1

def offset (cs : List Char) (i : Nat) : Nat := (bytesOf (cs.take i)).length

theorem offset_zero (cs : List Char) : offset cs 0 = 0 := by simp [offset, bytesOf]

theorem offset_cons_succ (c : Char) (cs : List Char) (i : Nat) : offset (c :: cs) (i + 1) = c.utf8Size + offset cs i := by
  rw [offset, List.take_succ_cons, length_bytesOf_cons, offset]

theorem offset_le (cs : List Char) (i : Nat) : offset cs i ≤ (bytesOf cs).length := by
  have hsplit : bytesOf cs = bytesOf (cs.take i) ++ bytesOf (cs.drop i) := by
    rw [bytesOf, bytesOf, bytesOf, ← List.flatMap_append, List.take_append_drop]
  rw [offset, hsplit, List.length_append]
  exact Nat.le_add_right _ _

/-- **The characters that start before a byte** are those whose first byte comes before it. -/
theorem startsBefore_eq_countP : ∀ (cs : List Char) (b : Nat),
    startsBefore cs b = (List.range cs.length).countP fun i => offset cs i < b
  | cs, 0 => by simp [startsBefore_zero]
  | [], _ + 1 => rfl
  | c :: cs, b + 1 => by
    have hrest : (fun i => decide (offset (c :: cs) i < b + 1)) ∘ Nat.succ =
        fun i => decide (offset cs i < b + 1 - c.utf8Size) := by
      funext i
      rw [Function.comp_apply, Nat.succ_eq_add_one, offset_cons_succ, decide_eq_decide]
      omega
    have hfirst : decide (offset (c :: cs) 0 < b + 1) = true := decide_eq_true (by rw [offset_zero]; omega)
    rw [startsBefore, startsBefore_eq_countP cs, List.length_cons, List.range_succ_eq_map, List.countP_cons, List.countP_map,
      hrest, if_pos hfirst]

theorem startsBefore_offset : ∀ {cs : List Char} {i : Nat}, i ≤ cs.length → startsBefore cs (offset cs i) = i
  | cs, 0, _ => by rw [offset_zero, startsBefore_zero]
  | c :: cs, i + 1, h => by
    have hpos := c.utf8Size_pos
    obtain ⟨b, hb⟩ : ∃ b, c.utf8Size + offset cs i = b + 1 := ⟨c.utf8Size + offset cs i - 1, by omega⟩
    rw [offset_cons_succ, hb, startsBefore, ← hb, Nat.add_sub_cancel_left, startsBefore_offset (Nat.le_of_succ_le_succ h)]

theorem startsBefore_mono (cs : List Char) {b b' : Nat} (h : b ≤ b') : startsBefore cs b ≤ startsBefore cs b' := by
  rw [startsBefore_eq_countP, startsBefore_eq_countP]
  refine List.countP_mono_left fun i _ hi => ?_
  rw [decide_eq_true_eq] at hi ⊢
  omega

theorem Spells.length_of_ascii {c : Char} {bs : Bytes} (h : Spells c bs) (hbs : ∀ b ∈ bs, b.toNat < 0x80) :
    bs.length = 1 := by
  cases h with
  | one => rfl
  | @more b _ _ _ _ hb =>
    have := hbs b (List.mem_cons_self ..)
    omega

theorem utf8Size_of_ascii {cs : List Char} (h : ∀ b ∈ bytesOf cs, b.toNat < 0x80) : ∀ c ∈ cs, c.utf8Size = 1 := by
  intro c hc
  rw [← String.length_utf8EncodeChar]
  exact (spells_utf8EncodeChar c).length_of_ascii fun b hb => h b (List.mem_flatMap.2 ⟨c, hc, hb⟩)

theorem ascii_iff {cs : List Char} : (∀ b ∈ bytesOf cs, b.toNat < 0x80) ↔ ∀ c ∈ cs, c.toNat < 0x80 := by
  constructor
  · intro h c hc
    have hone := Char.utf8Size_eq_one_iff.1 (utf8Size_of_ascii h c hc)
    exact Nat.lt_succ_of_le hone
  · intro h b hb
    obtain ⟨c, hc, hbc⟩ := List.mem_flatMap.1 hb
    have hsmall : c.val.toNat ≤ 0x7F := Nat.le_of_lt_succ (h c hc)
    rw [String.utf8EncodeChar, if_pos hsmall, List.mem_singleton] at hbc
    rw [hbc, toNat_ofNat (by omega)]
    omega

/-! ## Line feeds -/

theorem Spells.eq_of_lineFeed_mem {c : Char} {bs : Bytes} (h : Spells c bs) (hmem : 10 ∈ bs) : c = '\n' := by
  cases h with
  | one hb hc =>
    rw [← List.mem_singleton.1 hmem] at hc
    exact hc.symm
  | more hb _ hbs _ =>
    -- a line feed is below 128, and no byte of a longer character is
    rcases List.mem_cons.1 hmem with rfl | hmem
    · exact absurd hb (by decide)
    · exact absurd (hbs.ge 10 hmem) (by decide)

/-- **The lines of bytes are the bytes of lines.** -/
theorem splitOn_bytesOf : ∀ cs : List Char, splitOn 10 (bytesOf cs) = (splitOn '\n' cs).map bytesOf
  | [] => rfl
  | c :: cs => by
    have ih := splitOn_bytesOf cs
    rw [bytesOf_cons]
    by_cases hc : c = '\n'
    · have hbytes : String.utf8EncodeChar '\n' = [10] := rfl
      subst hc
      rw [hbytes, List.singleton_append, splitOn, splitOn, if_pos (by decide), if_pos (by decide), ih]
      rfl
    · have hfree : 10 ∉ String.utf8EncodeChar c := fun hmem => hc ((spells_utf8EncodeChar c).eq_of_lineFeed_mem hmem)
      rw [splitOn_append_left hfree, ih, splitOn, if_neg (by simpa using hc)]
      cases hcs : splitOn '\n' cs with
      | nil => exact absurd hcs (splitOn_ne_nil '\n' cs)
      | cons p ps => rfl

end CodeReview.Text.Utf8
