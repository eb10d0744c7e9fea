import CodeReview.Proofs.Number.Numerals
import CodeReview.Value.Json
/-!
# JSON on one line

Every character that `compact` writes is printed ASCII (`compact_printed`): what a value holds of other characters, in its
texts and in its keys, is escaped, and one line has no gaps but spaces.  In particular a written value has no line feed
(`newline_notMem_compact`), so lines of values can be told apart.
-/
namespace CodeReview.Value

/-! ## Texts -/

theorem hex_printed (width n : Nat) : Printed (Text.hex width n).toList := by
  rw [Text.hex, Text.padLeft]
  refine .string_append ?_ ?_
  · rw [String.toList_ofList]
    exact .replicate (by decide) _
  · rw [String.toList_ofList]
    exact Number.toDigits_printed (by decide) n

theorem jsonUnit_printed (n : Nat) : Printed (jsonUnit n).toList := .string_append (by decide) (hex_printed 4 n)

theorem jsonChar_printed (c : Char) : Printed (jsonChar c).toList := by
  unfold jsonChar
  dsimp only
  iterate 7 split; · decide
  split
  · rename_i h
    rw [String.toList_singleton]
    intro d hd
    rw [List.mem_singleton.1 hd]
    simpa using h
  · split
    · exact jsonUnit_printed _
    · exact .string_append (jsonUnit_printed _) (jsonUnit_printed _)

theorem jsonText_printed {out : String} (hout : Printed out.toList) (s : String) : Printed (jsonText out s).toList := by
  have hfold : ∀ (cs : List Char) (out : String), Printed out.toList →
      Printed (cs.foldl (fun o c => o ++ jsonChar c) out).toList := by
    intro cs
    induction cs with
    | nil => exact fun _ h => h
    | cons c cs ih => exact fun out h => ih _ (h.string_append (jsonChar_printed c))
  rw [jsonText, String.foldl_eq_foldl_toList]
  exact (hfold _ _ (hout.string_append (by decide))).string_append (by decide)

theorem jsonFloat_printed (x : Float) : Printed (jsonFloat x).toList := by
  unfold jsonFloat
  split
  · rename_i b hb
    rw [Number.floatText, hb]
    exact .string_append (by split <;> decide) (Number.write_printed _ _)
  · split
    · decide
    · split <;> decide

/-! ## Values -/

theorem gap_printed (depth : Nat) : ∀ first, Printed (Setting.line.gap first depth).toList
  | true => (by decide : Printed "".toList)
  | false => (by decide : Printed ", ".toList)

theorem close_printed (depth : Nat) : Printed (Setting.line.close depth).toList := (by decide : Printed "".toList)

mutual

/-- **A value on one line is printed ASCII**, whatever it holds and however deep. -/
theorem writeJson_printed (depth : Nat) {out : String} (hout : Printed out.toList) :
    ∀ v : Value, Printed (writeJson .line depth out v).toList
  | .null => hout.string_append (by decide)
  | .bool true => hout.string_append (by decide)
  | .bool false => hout.string_append (by decide)
  | .int n => hout.string_append (Number.int_printed n)
  | .float x => hout.string_append (jsonFloat_printed x)
  | .text s => jsonText_printed hout s
  | .list [] => hout.string_append (by decide)
  | .list (v :: vs) =>
    ((writeItems_printed (depth + 1) true (hout.string_append (by decide)) (v :: vs)).string_append
      (close_printed depth)).string_append (by decide)
  | .map [] => hout.string_append (by decide)
  | .map (e :: es) =>
    ((writeEntries_printed (depth + 1) true (hout.string_append (by decide)) (e :: es)).string_append
      (close_printed depth)).string_append (by decide)
  | .special s => jsonText_printed hout s.shown
  | .keyed [] => hout.string_append (by decide)
  | .keyed (e :: es) =>
    ((writePairs_printed (depth + 1) true (hout.string_append (by decide)) (e :: es)).string_append
      (close_printed depth)).string_append (by decide)

theorem writeItems_printed (depth : Nat) (first : Bool) {out : String} (hout : Printed out.toList) :
    ∀ vs : List Value, Printed (writeItems .line depth first out vs).toList
  | [] => hout
  | v :: vs => by
    rw [writeItems]
    exact writeItems_printed depth false (writeJson_printed depth (hout.string_append (gap_printed depth first)) v) vs

theorem writeEntries_printed (depth : Nat) (first : Bool) {out : String} (hout : Printed out.toList) :
    ∀ es : List (String × Value), Printed (writeEntries .line depth first out es).toList
  | [] => hout
  | (k, v) :: es => by
    rw [writeEntries]
    have hkey := jsonText_printed (hout.string_append (gap_printed depth first)) k
    exact writeEntries_printed depth false (writeJson_printed depth (hkey.string_append (by decide)) v) es

theorem writePairs_printed (depth : Nat) (first : Bool) {out : String} (hout : Printed out.toList) :
    ∀ es : List (Value × Value), Printed (writePairs .line depth first out es).toList
  | [] => hout
  | (k, v) :: es => by
    rw [writePairs]
    have hkey := jsonText_printed (hout.string_append (gap_printed depth first)) (jsonKey k)
    exact writePairs_printed depth false (writeJson_printed depth (hkey.string_append (by decide)) v) es

end

theorem compact_printed (v : Value) : Printed v.compact.toList := writeJson_printed 0 (by decide) v

/-- **A value on one line has no line feed.** -/
theorem newline_notMem_compact (v : Value) : '\n' ∉ v.compact.toList := fun h =>
  absurd (compact_printed v '\n' h) (by decide)

end CodeReview.Value
